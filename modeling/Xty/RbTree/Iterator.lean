import Xty.General.RedBlack.Traversal
import Xty.RbTree.Runs

/-! `xtyRbTreeIterator`: a node pointer that is moved along the order of the tree. -/

namespace Xty.RbTree

open Xty.General.Programs Xty.General.RedBlack Xty.General.Heap ColorTree

section Moves

def climbs (s : Side) (p : Ptr) : GraphProgram Bool := do
  let parent ← getParent p
  if parent ≠ .sentinel then return decide (p = (← getChild s parent)) else return false

/-- The half of `Increment` and `Decrement` that goes up. -/
def ascend (s : Side) (fuel : ℕ) (p : Ptr) : GraphProgram Ptr := do
  let p ← loop (climbs s) getParent fuel p
  let parent ← getParent p
  if parent = .sentinel then return .sentinel
  else if p = (← getChild s.other parent) then return parent
  else return p

def advance (s : Side) (fuel : ℕ) (p : Ptr) : GraphProgram Ptr :=
  -- a null pointer raises `XTY_INVALID_ITERATOR`
  if p = .null then fun _ => none
  else do
    let next ← getChild s p
    if next ≠ .sentinel then outermost s.other fuel next else ascend s fuel p

variable {T : Type}

def move (s : Side) (p : Ptr) : TreeProgram T Ptr := do onGraph (advance s (← nodeBound) p)

def start (s : Side) : TreeProgram T Ptr := do
  onGraph (outermost s.other (← nodeBound) (← onGraph getRoot))

structure IteratorOps (T : Type) where
  iterBegin : TreeProgram T Ptr
  iterReverseBegin : TreeProgram T Ptr
  iterEnd : TreeProgram T Ptr
  increment : Ptr → TreeProgram T Ptr
  decrement : Ptr → TreeProgram T Ptr

def iterator : IteratorOps T where
  iterBegin := start .right
  iterReverseBegin := start .left
  iterEnd := return .sentinel
  increment := move .right
  decrement := move .left

def times (m : Ptr → TreeProgram T Ptr) : ℕ → Ptr → TreeProgram T Ptr
  | 0, p => return p
  | n + 1, p => do times m n (← m p)

end Moves

def firstPtr : List ℕ → Ptr
  | [] => .sentinel
  | a :: _ => .node a

lemma firstPtr_drop {l : List ℕ} {n : ℕ} (hn : n ≤ l.length) :
    firstPtr (l.drop n) = .sentinel ↔ n = l.length := by
  by_cases h : n = l.length
  · simp [h, firstPtr]
  · rw [List.drop_eq_getElem_cons (lt_of_le_of_ne hn h)]
    simp [h, firstPtr]

section Ascending

variable {g : Graph} {t u : ColorTree ℕ} {C : Context ℕ} {f : Frame ℕ} {p : Ptr} {F : LinkCells}
  {s : Side}

lemma climbs_run (h : Shows g t (f :: C) p F) (ht : t ≠ .leaf) :
    climbs s (ptr t) g = some (decide (f.side = s), g) := by
  have hc := h.child_run
  have hs := h.sibling_run
  have hne := h.ne_sibling (Or.inl ht)
  apply Yields.run_eq
  rw [climbs]
  apply Yields.step (h.parent_run fun hl => absurd hl ht)
  rw [contextPtr, if_pos (by simp)]
  by_cases hf : f.side = s
  · rw [hf] at hc
    exact Yields.step hc (Yields.pure ⟨by simp [hf], rfl⟩)
  · rw [Side.eq_other_of_ne hf, Side.other_other] at hs
    exact Yields.step hs (Yields.pure ⟨by simp [hf, hne], rfl⟩)

lemma climbs_root (h : Shows g t [] p F) (ht : t ≠ .leaf) :
    climbs s (ptr t) g = some (false, g) := by
  apply Yields.run_eq
  rw [climbs]
  apply Yields.step (h.parent_run fun hl => absurd hl ht)
  exact Yields.pure ⟨rfl, rfl⟩

lemma ascend_run {fuel : ℕ} (h : Shows g t C p F) (ht : t ≠ .leaf) (hfuel : C.length < fuel) :
    ascend s fuel (ptr t) g = some (firstPtr (ahead s C), g) := by
  have hloop : Yields (loop (climbs s) getParent fuel (ptr t)) g fun q g' => g' = g ∧
      ∃ u D, q = ptr u ∧ u ≠ .leaf ∧ Shows g u D p F ∧ ahead s D = ahead s C ∧
        ∀ f E, D = f :: E → f.side ≠ s := by
    refine loop_yields (I := fun n q g' => g' = g ∧ ∃ u D, D.length = n ∧ q = ptr u ∧
      u ≠ .leaf ∧ Shows g u D p F ∧ ahead s D = ahead s C) ?_ hfuel
      ⟨rfl, t, C, rfl, rfl, ht, h, rfl⟩
    rintro n q _ ⟨rfl, u, D, rfl, rfl, hu, hs, ha⟩
    cases D with
    | nil =>
      refine Yields.of_eq (climbs_root hs hu) ?_
      exact ⟨rfl, u, [], rfl, hu, hs, ha, fun f E he => by cases he⟩
    | cons f D =>
      apply Yields.of_eq (climbs_run hs hu)
      by_cases hf : f.side = s
      · rw [if_pos (decide_eq_true hf)]
        refine Yields.of_eq (hs.parent_run fun hl => absurd hl hu) ⟨D.length, by simp, rfl, ?_⟩
        rw [ahead_near hf] at ha
        exact ⟨f.fill u, D, rfl, (ptr_fill f u).symm, link_ne_leaf _ _ _ _ _, hs.up, ha⟩
      · rw [if_neg (by simpa using hf)]
        refine ⟨rfl, u, f :: D, rfl, hu, hs, ha, ?_⟩
        rintro f' E he
        cases he
        exact hf
  apply Yields.run_eq
  rw [ascend]
  apply hloop.bind
  rintro _ _ ⟨rfl, u, D, rfl, hu, hs, ha, hside⟩
  apply Yields.step (hs.parent_run fun hl => absurd hl hu)
  rw [← ha]
  cases D with
  | nil => exact Yields.pure ⟨rfl, rfl⟩
  | cons f D =>
    have hf : f.side = s.other := Side.eq_other_of_ne (hside f D rfl)
    have hc := hs.child_run
    rw [hf] at hc
    rw [contextPtr, if_neg (by simp), ahead_far hf, firstPtr]
    apply Yields.step hc
    rw [if_pos rfl]
    exact Yields.pure ⟨rfl, rfl⟩

lemma outermost_first {fuel : ℕ} (h : Shows g u C p F) (hu : u ≠ .leaf) (hfuel : u.size ≤ fuel)
    (rest : List ℕ) :
    outermost s.other fuel (ptr u) g = some (firstPtr (u.walk s ++ rest), g) := by
  obtain ⟨d, b, x, D, rfl, hD⟩ := exists_outermost s.other hu
  have hlen : D.length < fuel := (length_lt_size (link_ne_leaf _ _ _ _ _) D).trans_le hfuel
  rw [outermost_run (h.refocus (plug_append _ D C).symm) hD hlen, walk_plug, ahead_eq_nil hD,
    walk_link]
  simp [firstPtr]

lemma advance_run {c : Color} {l r : ColorTree ℕ} {a fuel : ℕ} (h : Shows g (node c l a r) C p F)
    (hfuel : (plug (node c l a r) C).size < fuel) :
    advance s fuel (.node a) g
      = some (firstPtr (((node c l a r).child s).walk s ++ ahead s C), g) := by
  have hl := link_children s c l a r
  have hr : Shows g ((node c l a r).child s)
      (⟨s, c, a, (node c l a r).child s.other⟩ :: C) p F := by
    refine h.refocus ?_
    rw [plug, Frame.fill, hl]
  apply Yields.run_eq
  rw [advance, if_neg (by simp)]
  apply Yields.step hr.child_run
  by_cases hn : (node c l a r).child s = .leaf
  · have hC : C.length < fuel := (length_le_size _ C).trans_lt hfuel
    rw [hn, ptr, if_neg fun hne => hne rfl, walk_leaf, List.nil_append]
    exact Yields.of_eq (ascend_run h (by simp) hC) ⟨rfl, rfl⟩
  · rw [if_pos fun he => hn (ptr_eq_sentinel.mp he)]
    have hsize : ((node c l a r).child s).size ≤ fuel := by
      rw [size_plug, size] at hfuel
      cases s <;> simp only [child] <;> omega
    exact Yields.of_eq (outermost_first hr hn hsize (ahead s C)) ⟨rfl, rfl⟩

end Ascending

section Stepping

variable {T κ : Type} [LinearOrder κ] {o : KeyOrder T κ} {t : LinkedTree T} {c : ColorTree ℕ}
  {s : Side}

lemma Holds.nodup (h : Holds o t c) : (c.walk s).Nodup := by
  obtain ⟨p, hs⟩ := h.shows
  exact nodup_walk.mpr hs.nodup

lemma Holds.move_run (h : Holds o t c) {x y : List ℕ} {a : ℕ} (hw : c.walk s = x ++ a :: y) :
    move s (.node a) t = some (firstPtr y, t) := by
  obtain ⟨p, hs⟩ := h.shows
  have hsize := h.size_le
  have hn := h.nodup (s := s)
  have ha : a ∈ c.inorder := by
    rw [← mem_walk (s := s), hw]
    simp
  obtain ⟨d, l, r, D, rfl⟩ := exists_plug_of_mem ha
  rw [hw, List.nodup_middle, List.nodup_cons, List.mem_append, not_or] at hn
  rw [walk_plug_node, eq_comm, List.append_cons_inj_of_notMem hn.1.1 hn.1.2] at hw
  obtain ⟨_, _, rfl⟩ := hw
  apply Yields.run_eq
  rw [move]
  apply Yields.step rfl
  exact Yields.of_eq (onGraph_run (advance_run (hs.refocus rfl) (by omega))) ⟨rfl, rfl⟩

lemma Holds.start_run (h : Holds o t c) : start s t = some (firstPtr (c.walk s), t) := by
  obtain ⟨p, hs⟩ := h.shows
  have hsize := h.size_le
  apply Yields.run_eq
  rw [start]
  refine Yields.step rfl (Yields.step (onGraph_run hs.root_run) ?_)
  by_cases hc : c = .leaf
  · subst hc
    have hrun : outermost s.other (t.next + 1) (ptr .leaf) t.graph = some (.sentinel, t.graph) := by
      apply Yields.run_eq
      rw [outermost, ptr]
      apply Yields.step (readLinks_run hs.sentinel_run)
      cases s <;> exact Yields.pure ⟨rfl, rfl⟩
    rw [walk_leaf]
    exact Yields.of_eq (onGraph_run hrun) ⟨rfl, rfl⟩
  · have hfuel : c.size ≤ t.next + 1 := by omega
    have hrun := outermost_first (s := s) hs hc hfuel []
    rw [List.append_nil] at hrun
    exact Yields.of_eq (onGraph_run hrun) ⟨rfl, rfl⟩

lemma Holds.times_run (h : Holds o t c) {n : ℕ} {x y : List ℕ} (hw : c.walk s = x ++ y)
    (hn : n ≤ y.length) : times (move s) n (firstPtr y) t = some (firstPtr (y.drop n), t) := by
  induction n generalizing x y with
  | zero => rfl
  | succ n ih =>
    cases y with
    | nil => simp at hn
    | cons a y =>
      apply Yields.run_eq
      rw [times]
      apply Yields.step (h.move_run hw)
      have hw' : c.walk s = (x ++ [a]) ++ y := by rw [hw, List.append_assoc, List.singleton_append]
      exact Yields.of_eq (ih hw' (by simpa using hn)) ⟨rfl, rfl⟩

lemma Holds.walk_run (h : Holds o t c) (s : Side) {n : ℕ} (hn : n ≤ c.size) :
    Yields (do times (move s) n (← start s)) t fun q t' => t' = t ∧
      q = firstPtr ((c.walk s).drop n) ∧ (q = .sentinel ↔ n = c.size) := by
  have hlen := length_walk (s := s) c
  rw [← hlen] at hn
  apply Yields.step h.start_run
  refine Yields.of_eq (h.times_run (x := []) rfl hn) ⟨rfl, rfl, ?_⟩
  rw [firstPtr_drop hn, hlen]

structure Iterates (I : IteratorOps T) (o : KeyOrder T κ) (t : LinkedTree T) (c : ColorTree ℕ) :
    Prop where
  nodes : ∀ q, (∃ k, t.graph.links q = some k) ↔ q = .sentinel ∨ ∃ a ∈ c.inorder, q = .node a
  distinct : c.inorder.Nodup
  increasing : (elements t c).Pairwise fun a b => o.less a b = true
  ending : I.iterEnd t = some (.sentinel, t)
  forward : ∀ n ≤ c.size, Yields (do times I.increment n (← I.iterBegin)) t fun q t' => t' = t ∧
    q = firstPtr (c.inorder.drop n) ∧ (q = .sentinel ↔ n = c.size)
  backward : ∀ n ≤ c.size, Yields (do times I.decrement n (← I.iterReverseBegin)) t fun q t' =>
    t' = t ∧ q = firstPtr (c.inorder.reverse.drop n) ∧ (q = .sentinel ↔ n = c.size)
  empty : c.size = 0 →
    I.iterBegin t = some (.sentinel, t) ∧ I.iterReverseBegin t = some (.sentinel, t)
  neighbours : ∀ x a b y, c.inorder = x ++ a :: b :: y →
    I.increment (.node a) t = some (.node b, t) ∧ I.decrement (.node b) t = some (.node a, t)
  count : t.nodeCount.toNat = c.size % 2 ^ 32

lemma Holds.iterates (h : Holds o t c) : Iterates iterator o t c := by
  obtain ⟨p, hs⟩ := h.shows
  refine ⟨fun q => hs.exists_iff, hs.nodup, h.isSearchTree.increasing, rfl,
    fun n => h.walk_run .right, fun n => h.walk_run .left, ?_, ?_, ?_⟩
  · intro hc
    have hnil : ∀ s, c.walk s = [] := fun s =>
      List.eq_nil_of_length_eq_zero ((length_walk c).trans hc)
    have hstart : ∀ s, start s t = some (.sentinel, t) := by
      intro s
      rw [h.start_run, hnil]
      rfl
    exact ⟨hstart .right, hstart .left⟩
  · intro x a b y hc
    have hleft : c.walk .left = y.reverse ++ b :: (a :: x.reverse) := by
      rw [walk, hc]
      simp
    exact ⟨h.move_run (s := .right) hc, h.move_run hleft⟩
  · rw [h.count, UInt32.toNat_ofNat']

end Stepping

end Xty.RbTree
