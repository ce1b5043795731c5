import Xty.RbTree.Iterator

/-! The sentinel between two calls. A deletion points it into the tree, and only the repair after
the loss of a black node puts it back. -/

namespace Xty.RbTree

open Xty.General.Programs Xty.General.RedBlack Xty.General.Heap ColorTree

variable {T κ : Type} [LinearOrder κ] {o : KeyOrder T κ}

structure Restored (t : LinkedTree T) : Prop where
  links : t.graph.links .sentinel = some ⟨.sentinel, .sentinel, .sentinel, .black⟩
  increment : iterator.increment .sentinel t = some (.sentinel, t)
  decrement : iterator.decrement .sentinel t = some (.sentinel, t)

/-- In the tree that is linked together, the node to be deleted is black if it has at most one
child, and else its successor is. -/
def GivesUpBlack (o : KeyOrder T κ) (t : LinkedTree T) : Operation T → Prop
  | .delete v => ∀ c, IsSearchTree o t c → ∀ a ∈ c.inorder, t.keyAt o a = o.key v →
      (c.subtree a).vacated = .black
  | _ => True

def AfterEach (o : KeyOrder T κ) (Q : LinkedTree T → Prop) :
    List (Operation T) → LinkedTree T → Prop
  | [], _ => True
  | p :: ps, t => Yields (p.run o) t fun _ t' => Q t' ∧ AfterEach o Q ps t'

def BeforeEach (o : KeyOrder T κ) (R : LinkedTree T → Operation T → Prop) :
    List (Operation T) → LinkedTree T → Prop
  | [], _ => True
  | p :: ps, t => R t p ∧ Yields (p.run o) t fun _ t' => BeforeEach o R ps t'

section

variable {t : LinkedTree T} {c c' : ColorTree ℕ}

lemma move_sentinel (h : t.graph.links .sentinel = some (sentinelLinks .sentinel)) (s : Side) :
    move s .sentinel t = some (.sentinel, t) := by
  have hchild : getChild s .sentinel t.graph = some (.sentinel, t.graph) := by
    cases s <;> exact readLinks_run h
  have hclimbs : climbs s .sentinel t.graph = some (false, t.graph) := by
    apply Yields.run_eq
    rw [climbs]
    exact Yields.step (readLinks_run h) (Yields.pure ⟨rfl, rfl⟩)
  have hrun : advance s (t.next + 1) .sentinel t.graph = some (.sentinel, t.graph) := by
    apply Yields.run_eq
    rw [advance, if_neg (by simp)]
    apply Yields.step hchild
    rw [if_neg fun hne => hne rfl, ascend]
    refine Yields.step (loop_stop hclimbs) (Yields.step (readLinks_run h) ?_)
    exact Yields.pure ⟨rfl, rfl⟩
  apply Yields.run_eq
  rw [move]
  apply Yields.step rfl
  exact Yields.of_eq (onGraph_run hrun) ⟨rfl, rfl⟩

lemma restored_iff :
    Restored t ↔ t.graph.links .sentinel = some (sentinelLinks .sentinel) :=
  ⟨fun h => h.links, fun h => ⟨h, move_sentinel h .right, move_sentinel h .left⟩⟩

lemma givesUpBlack_iff (h : Holds o t c) {v : T} {a : ℕ} (ha : a ∈ c.inorder)
    (hk : t.keyAt o a = o.key v) :
    GivesUpBlack o t (.delete v) ↔ (c.subtree a).vacated = .black := by
  constructor
  · exact fun hg => hg c h.isSearchTree a ha hk
  · intro hb c' hc' b hb' hkb
    obtain rfl := h.isSearchTree.unique hc'
    obtain rfl := h.sorted.eq_of_key ha hb' (hk.trans hkb.symm)
    exact hb

lemma givesUpBlack_of_absent (h : Holds o t c) {v : T}
    (habs : ∀ a ∈ c.inorder, t.keyAt o a ≠ o.key v) :
    GivesUpBlack o t (.delete v) := by
  intro c' hc' a ha hk
  obtain rfl := h.isSearchTree.unique hc'
  exact absurd hk (habs a ha)

lemma Marks.restored_iff {d : Color} {q : Ptr} (hm : Marks d c q)
    (hq : t.graph.links .sentinel = some (sentinelLinks q)) :
    t.graph.links .sentinel = some (sentinelLinks .sentinel) ↔ d = .black := by
  rw [hq]
  cases d with
  | black =>
    obtain rfl : q = .sentinel := hm
    simp
  | red =>
    obtain ⟨b, _, rfl⟩ := hm
    simp [sentinelLinks]

lemma Operation.run_restores (p : Operation T) (h : Holds o t c)
    (hs : t.graph.links .sentinel = some (sentinelLinks .sentinel)) :
    Yields (p.run o) t fun _ t' => (∃ c', Holds o t' c') ∧
      (t'.graph.links .sentinel = some (sentinelLinks .sentinel) ↔ GivesUpBlack o t p) := by
  cases p with
  | insert v =>
    apply (insert_spec h v).bind
    rintro _ t' ⟨c', h', _, hlinks⟩
    exact Yields.pure ⟨⟨c', h'⟩, iff_of_true (hlinks.trans hs) trivial⟩
  | delete v =>
    apply (delete_spec h v).mono
    rintro _ t' ⟨c', h', ⟨rfl, rfl, habs⟩ | ⟨a, ha, hk, _, _⟩, hmarks⟩
    · exact ⟨⟨c', h'⟩, iff_of_true hs (givesUpBlack_of_absent h habs)⟩
    · obtain ⟨q, hq, hm⟩ := hmarks a ha hk
      exact ⟨⟨c', h'⟩, (hm.restored_iff hq).trans (givesUpBlack_iff h ha hk).symm⟩
  | clear => exact (clear_spec h).mono fun _ t' h' => ⟨⟨.leaf, h'.1⟩, iff_of_true h'.2 trivial⟩

lemma runs_restore (ps : List (Operation T)) (h : Holds o t c)
    (hs : t.graph.links .sentinel = some (sentinelLinks .sentinel)) :
    AfterEach o Restored ps t ↔ BeforeEach o (GivesUpBlack o) ps t := by
  induction ps generalizing t c with
  | nil => rfl
  | cons p ps ih =>
    obtain ⟨_, t', hrun, ⟨c', h'⟩, hstep⟩ := p.run_restores h hs
    rw [AfterEach, BeforeEach, Yields.iff_of_eq hrun, Yields.iff_of_eq hrun, restored_iff, hstep]
    exact and_congr_right fun hg => ih h' (hstep.mpr hg)

/-- The sentinel is in its initial state after every call of a run exactly if every deletion in it
gives up the place of a black node. -/
theorem sentinel_restored_iff [Inhabited T] (o : KeyOrder T κ) (ps : List (Operation T)) :
    AfterEach o Restored ps create ↔ BeforeEach o (GivesUpBlack o) ps create :=
  runs_restore ps create_holds rfl

def valueOrder [LinearOrder T] : KeyOrder T T where
  key := id
  less a b := a < b
  greater a b := a > b
  equal a b := a = b
  less_iff _ _ := decide_eq_true_iff
  greater_iff _ _ := decide_eq_true_iff
  equal_iff _ _ := decide_eq_true_iff

def leafDeletion : List (Operation ℕ) := [.insert 2, .insert 1, .insert 3, .delete 1]

theorem sentinel_left_marked : Yields (runAll valueOrder leafDeletion) create fun _ t =>
    t.graph.links .sentinel = some ⟨.node 0, .sentinel, .sentinel, .black⟩ ∧
      (iterator.increment .sentinel t).map Prod.fst = some (.node 0) ∧ ¬ Restored t := by
  have hrun : (runAll valueOrder leafDeletion create).map (fun r =>
      (r.2.graph.links .sentinel, (iterator.increment .sentinel r.2).map Prod.fst))
        = some (some ⟨.node 0, .sentinel, .sentinel, .black⟩, some (.node 0)) := by
    decide +kernel
  obtain ⟨⟨u, t⟩, hr, hv⟩ := Option.map_eq_some_iff.mp hrun
  obtain ⟨hlinks, hnext⟩ := Prod.mk.inj hv
  refine Yields.of_eq hr ⟨hlinks, hnext, fun h => ?_⟩
  have hinit := h.links
  rw [hlinks] at hinit
  exact absurd hinit (by decide)

end

end Xty.RbTree
