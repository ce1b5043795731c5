import Xty.RbTree.Links

/-! Which tree of node addresses a linked structure shows. -/

namespace Xty.RbTree

open Xty.General.Programs Xty.General.RedBlack Xty.General.Heap

abbrev LinkCells := Cells Ptr Links

def ptr : ColorTree ℕ → Ptr
  | .leaf => .sentinel
  | .node _ _ a _ => .node a

def treeCells (parent : Ptr) : ColorTree ℕ → LinkCells
  | .leaf => 0
  | .node c l a r => cell (.node a) ⟨parent, ptr l, ptr r, c⟩
      + (treeCells (.node a) l + treeCells (.node a) r)

def contextPtr : Context ℕ → Ptr
  | [] => .sentinel
  | f :: _ => .node f.value

def contextCells (hole : Ptr) : Context ℕ → LinkCells
  | [] => 0
  | f :: C => cell (.node f.value)
        (Links.make f.side (contextPtr C) hole (ptr f.sibling) f.color)
      + (treeCells (.node f.value) f.sibling + contextCells (.node f.value) C)

@[simp] lemma ptr_link (s : Side) (c : Color) (t : ColorTree ℕ) (a : ℕ) (u : ColorTree ℕ) :
    ptr (ColorTree.link s c t a u) = .node a := by
  cases s <;> rfl

@[simp] lemma ptr_fill (f : Frame ℕ) (t : ColorTree ℕ) : ptr (f.fill t) = .node f.value :=
  ptr_link _ _ _ _ _

lemma ptr_eq_sentinel {t : ColorTree ℕ} : ptr t = .sentinel ↔ t = .leaf := by
  cases t <;> simp [ptr]

lemma treeCells_link (p : Ptr) (s : Side) (c : Color) (t : ColorTree ℕ) (a : ℕ)
    (u : ColorTree ℕ) :
    treeCells p (ColorTree.link s c t a u) = cell (.node a) (Links.make s p (ptr t) (ptr u) c)
      + (treeCells (.node a) t + treeCells (.node a) u) := by
  cases s
  · rfl
  · rw [add_comm (treeCells _ t)]
    rfl

lemma treeCells_plug (t : ColorTree ℕ) (C : Context ℕ) :
    treeCells .sentinel (plug t C) = treeCells (contextPtr C) t + contextCells (ptr t) C := by
  induction C generalizing t with
  | nil => exact (add_zero _).symm
  | cons f C ih =>
    rw [plug, ih, ptr_fill, Frame.fill, treeCells_link, contextCells, contextPtr]
    ac_rfl

lemma ptr_plug_congr {t u : ColorTree ℕ} (C : Context ℕ) (h : C = [] → ptr t = ptr u) :
    ptr (plug t C) = ptr (plug u C) := by
  induction C generalizing t u with
  | nil => exact h rfl
  | cons f C ih => exact ih fun _ => by rw [ptr_fill, ptr_fill]

lemma keys_treeCells (p : Ptr) (t : ColorTree ℕ) :
    (treeCells p t).map Prod.fst = ↑(t.inorder.map Ptr.node) := by
  induction t generalizing p with
  | leaf => rfl
  | node c l a r ihl ihr =>
    rw [treeCells, Multiset.map_add, Multiset.map_add, ihl, ihr, cell, Multiset.map_singleton,
      ColorTree.inorder, List.map_append, List.map_cons, ← Multiset.coe_add,
      ← Multiset.cons_coe, ← Multiset.singleton_add]
    ac_rfl

lemma mem_treeCells {p : Ptr} {t : ColorTree ℕ} (ht : t ≠ .leaf) :
    ∃ k, (ptr t, k) ∈ treeCells p t := by
  cases t with
  | leaf => exact absurd rfl ht
  | node c l a r => exact ⟨_, Multiset.mem_add.mpr (Or.inl (Multiset.mem_singleton_self _))⟩

lemma mem_contextCells {t : ColorTree ℕ} {C : Context ℕ} (q : Ptr) (hC : C ≠ []) :
    ∃ k, (ptr (plug t C), k) ∈ contextCells q C := by
  induction C generalizing t q with
  | nil => exact absurd rfl hC
  | cons f C ih =>
    by_cases h : C = []
    · subst h
      refine ⟨Links.make f.side (contextPtr []) q (ptr f.sibling) f.color, ?_⟩
      rw [plug, plug, ptr_fill]
      exact Multiset.mem_add.mpr (Or.inl (Multiset.mem_singleton_self _))
    · obtain ⟨k, hk⟩ := ih (t := f.fill t) (.node f.value) h
      exact ⟨k, Multiset.mem_add.mpr (Or.inr (Multiset.mem_add.mpr (Or.inr hk)))⟩

def sentinelLinks (parent : Ptr) : Links := ⟨parent, .sentinel, .sentinel, .black⟩

/-- The linked structure consists of the tree `t` in the context `C`, the sentinel, whose parent
pointer is `p`, and the cells `F` of nodes outside the tree. -/
structure Shows (g : Graph) (t : ColorTree ℕ) (C : Context ℕ) (p : Ptr) (F : LinkCells) :
    Prop where
  describes : Describes g.links (cell .sentinel (sentinelLinks p)
    + (treeCells (contextPtr C) t + contextCells (ptr t) C + F))
  root : g.root = ptr (plug t C)

namespace Shows

variable {g : Graph} {t u : ColorTree ℕ} {C : Context ℕ} {f : Frame ℕ} {p : Ptr} {F : LinkCells}

lemma iff_plug : Shows g t C p F ↔ Shows g (plug t C) [] p F := by
  have hcells : treeCells (contextPtr C) t + contextCells (ptr t) C
      = treeCells (contextPtr []) (plug t C) + contextCells (ptr (plug t C)) [] := by
    rw [contextCells, add_zero, contextPtr, treeCells_plug]
  constructor
  · exact fun h => ⟨hcells ▸ h.describes, h.root⟩
  · exact fun h => ⟨hcells ▸ h.describes, h.root⟩

lemma refocus {D : Context ℕ} (h : Shows g t C p F) (he : plug t C = plug u D) :
    Shows g u D p F :=
  iff_plug.mpr (he ▸ iff_plug.mp h)

lemma nodup (h : Shows g t C p F) : (plug t C).inorder.Nodup := by
  have hn := (iff_plug.mp h).describes.nodup
  rw [Multiset.map_add, Multiset.map_add, Multiset.map_add, Multiset.nodup_add,
    Multiset.nodup_add, Multiset.nodup_add, keys_treeCells, Multiset.coe_nodup] at hn
  exact hn.2.1.1.1.of_map _

lemma up (h : Shows g t (f :: C) p F) : Shows g (f.fill t) C p F := h.refocus rfl

lemma across {s : Side} {c : Color} {a : ℕ} (h : Shows g t (⟨s, c, a, u⟩ :: C) p F) :
    Shows g u (⟨s.other, c, a, t⟩ :: C) p F :=
  h.refocus (by simp only [plug, Frame.fill, ColorTree.link_other])

lemma sentinel_run (h : Shows g t C p F) : g.links .sentinel = some (sentinelLinks p) :=
  h.describes.read rfl

lemma node_run {s : Side} {c : Color} {a : ℕ} {r : ColorTree ℕ}
    (h : Shows g (ColorTree.link s c t a r) C p F) :
    g.links (.node a) = some (Links.make s (contextPtr C) (ptr t) (ptr r) c) := by
  refine h.describes.read (R := cell .sentinel (sentinelLinks p) + (treeCells (.node a) t
    + treeCells (.node a) r + contextCells (.node a) C + F)) ?_
  rw [treeCells_link, ptr_link]
  ac_rfl

lemma color_run (h : Shows g t C p F) : getColor (ptr t) g = some (t.color, g) := by
  cases t with
  | leaf => exact readLinks_run h.sentinel_run
  | node c l a r => exact readLinks_run (h.node_run (s := .left))

lemma parent_run (h : Shows g t C p F) (hp : t = .leaf → p = contextPtr C) :
    getParent (ptr t) g = some (contextPtr C, g) := by
  cases t with
  | leaf =>
    rw [← hp rfl]
    exact readLinks_run h.sentinel_run
  | node c l a r => exact readLinks_run (h.node_run (s := .left))

lemma parentColor_run (h : Shows g t C p F) :
    getColor (contextPtr C) g = some (parentColor C, g) := by
  cases C with
  | nil => exact readLinks_run h.sentinel_run
  | cons f C =>
    have hc := h.up.color_run
    rw [ptr_fill, Frame.fill, ColorTree.link_color] at hc
    exact hc

lemma child_run (h : Shows g t (f :: C) p F) :
    getChild f.side (.node f.value) g = some (ptr t, g) := by
  have hr := readLinks_run (f := (Links.child · f.side)) h.up.node_run
  rwa [Links.make_child] at hr

lemma sibling_run (h : Shows g t (f :: C) p F) :
    getChild f.side.other (.node f.value) g = some (ptr f.sibling, g) := by
  have hr := readLinks_run (f := (Links.child · f.side.other)) h.up.node_run
  rwa [Links.make_child_other] at hr

lemma ne_sibling (h : Shows g t (f :: C) p F) (hn : t ≠ .leaf ∨ f.sibling ≠ .leaf) :
    ptr t ≠ ptr f.sibling := by
  intro he
  have ht : t ≠ .leaf := fun hl => by
    have hs : f.sibling = .leaf := by rw [← ptr_eq_sentinel, ← he, hl, ptr]
    exact hn.elim (absurd hl) (absurd hs)
  have hs : f.sibling ≠ .leaf := fun hl => ht (by rw [← ptr_eq_sentinel, he, hl, ptr])
  obtain ⟨k, hk⟩ := mem_treeCells (p := .node f.value) ht
  obtain ⟨k', hk'⟩ := mem_treeCells (p := .node f.value) hs
  have hd : Describes g.links (treeCells (.node f.value) t + (cell .sentinel (sentinelLinks p)
      + (cell (.node f.value) (Links.make f.side (contextPtr C) (ptr t) (ptr f.sibling) f.color)
        + (treeCells (.node f.value) f.sibling + contextCells (.node f.value) C)) + F)) := by
    apply h.describes.congr
    rw [contextCells, contextPtr]
    ac_rfl
  apply hd.disjoint hk (w := k')
  rw [he]
  simp only [Multiset.mem_add]
  exact Or.inl (Or.inr (Or.inr (Or.inl hk')))

lemma side_test (h : Shows g t (f :: C) p F) (hn : t ≠ .leaf ∨ f.sibling ≠ .leaf) :
    ∃ q, getChild .left (.node f.value) g = some (q, g) ∧
      (if ptr t = q then Side.left else Side.right) = f.side := by
  have hne := h.ne_sibling hn
  have hc := h.child_run
  have hs := h.sibling_run
  rcases f with ⟨s, c, a, u⟩
  cases s with
  | left => exact ⟨_, hc, if_pos rfl⟩
  | right => exact ⟨_, hs, if_neg hne⟩

lemma root_run (h : Shows g t C p F) : getRoot g = some (ptr (plug t C), g) := by
  rw [getRoot, h.root]

lemma ne_root (h : Shows g t C p F) (hC : C ≠ []) : ptr t ≠ ptr (plug t C) := by
  by_cases ht : t = .leaf
  · intro he
    obtain ⟨f, D, rfl⟩ := List.exists_cons_of_ne_nil hC
    rw [ht, ptr, eq_comm, ptr_eq_sentinel] at he
    exact plug_ne_leaf (ColorTree.link_ne_leaf _ _ _ _ _) D he
  · intro he
    obtain ⟨k, hk⟩ := mem_treeCells (p := contextPtr C) ht
    obtain ⟨k', hk'⟩ := mem_contextCells (t := t) (ptr t) hC
    have hd : Describes g.links (treeCells (contextPtr C) t
        + (contextCells (ptr t) C + (cell .sentinel (sentinelLinks p) + F))) :=
      h.describes.congr (by ac_rfl)
    apply hd.disjoint hk (w := k')
    rw [he]
    exact Multiset.mem_add.mpr (Or.inl (he ▸ hk'))

lemma writeColor (h : Shows g t C p F) (c : Color) (hc : t = .leaf → c = .black) :
    Yields (setColor (ptr t) c) g fun _ g' => Shows g' (t.paint c) C p F := by
  cases t with
  | leaf =>
    obtain rfl := hc rfl
    refine Yields.of_eq (writeLinks_run h.sentinel_run) ⟨?_, h.root⟩
    exact h.describes.write rfl _
  | node d l a r =>
    refine Yields.of_eq (writeLinks_run (h.node_run (s := .left))) ⟨?_, ?_⟩
    · have hw := h.describes.write (a := .node a) (R := cell .sentinel (sentinelLinks p)
        + (treeCells (.node a) l + treeCells (.node a) r + contextCells (.node a) C + F))
        (by rw [treeCells, ptr]; ac_rfl) ⟨contextPtr C, ptr l, ptr r, c⟩
      apply hw.congr
      rw [ColorTree.paint, treeCells, ptr]
      ac_rfl
    · exact h.root.trans (ptr_plug_congr C fun _ => rfl)

lemma free_cells {q : Ptr} {k : Links} (h : Shows g t C p (cell q k + F)) :
    Describes g.links (cell q k + (cell .sentinel (sentinelLinks p)
      + (treeCells (contextPtr C) t + contextCells (ptr t) C + F))) :=
  h.describes.congr (by ac_rfl)

lemma read_free {q : Ptr} {k : Links} (h : Shows g t C p (cell q k + F)) :
    g.links q = some k := h.free_cells.read rfl

lemma write_free {q : Ptr} {k : Links} (h : Shows g t C p (cell q k + F)) (w : Links → Links) :
    Yields (writeLinks w q) g fun _ g' => Shows g' t C p (cell q (w k) + F) := by
  refine Yields.of_eq (writeLinks_run h.read_free) ⟨?_, h.root⟩
  exact (h.free_cells.write rfl (w k)).congr (by ac_rfl)

lemma setSentinelParent (h : Shows g t C p F) (q : Ptr) :
    Yields (setParent .sentinel q) g fun _ g' => Shows g' t C q F :=
  Yields.of_eq (writeLinks_run h.sentinel_run) ⟨h.describes.write rfl _, h.root⟩

end Shows

end Xty.RbTree
