import Xty.RbTree.Shape

/-! What rotations and transplants do to the tree that a structure shows. -/

namespace Xty.RbTree

open Xty.General.Programs Xty.General.RedBlack Xty.General.Heap ColorTree

variable {g : Graph} {C : Context ℕ} {p : Ptr} {F R : LinkCells}

/-- The sentinel's parent pointer after a subtree has been hung below `q`. -/
def sentinelParent : ColorTree ℕ → Ptr → Ptr → Ptr
  | .leaf, q, _ => q
  | .node .., _, p => p

lemma adopt_spec {t : ColorTree ℕ} {q : Ptr} (h : Describes g.links (treeCells q t + R))
    (r : Ptr) : Yields (adopt (ptr t) r) g fun _ g' =>
      Describes g'.links (treeCells r t + R) ∧ g'.root = g.root := by
  cases t with
  | leaf => exact Yields.of_eq rfl ⟨h, rfl⟩
  | node c l a u =>
    have he : treeCells q (node c l a u) + R = cell (.node a) ⟨q, ptr l, ptr u, c⟩
        + (treeCells (.node a) l + treeCells (.node a) u + R) := by
      rw [treeCells]
      ac_rfl
    refine Yields.of_eq (writeLinks_run (h.read he)) ⟨?_, rfl⟩
    apply (h.write he _).congr
    rw [treeCells]
    ac_rfl

lemma hang_spec {u : ColorTree ℕ} {q : Ptr}
    (h : Describes g.links (cell .sentinel (sentinelLinks p) + (treeCells q u + R))) (r : Ptr) :
    Yields (setParent (ptr u) r) g fun _ g' =>
      Describes g'.links (cell .sentinel (sentinelLinks (sentinelParent u r p))
        + (treeCells r u + R)) ∧ g'.root = g.root := by
  cases u with
  | leaf => exact Yields.of_eq (writeLinks_run (h.read rfl)) ⟨h.write rfl _, rfl⟩
  | node c l a v =>
    have he : cell .sentinel (sentinelLinks p) + (treeCells q (node c l a v) + R)
        = cell (.node a) ⟨q, ptr l, ptr v, c⟩ + (cell .sentinel (sentinelLinks p)
          + (treeCells (.node a) l + treeCells (.node a) v + R)) := by
      rw [treeCells]
      ac_rfl
    refine Yields.of_eq (writeLinks_run (h.read he)) ⟨?_, rfl⟩
    apply (h.write he _).congr
    rw [treeCells, sentinelParent]
    ac_rfl

lemma replaceChild_spec {old : Ptr} (s : Side) (new : Ptr)
    (h : Describes g.links (contextCells old C + R))
    (hne : ∀ f D, C = f :: D → ptr f.sibling ≠ old) :
    Yields (replaceChild s (contextPtr C) old new) g fun _ g' =>
      Describes g'.links (contextCells new C + R) ∧
        g'.root = if C = [] then new else g.root := by
  cases C with
  | nil => exact Yields.of_eq rfl ⟨h, rfl⟩
  | cons f D =>
    have hsib := hne f D rfl
    have he : contextCells old (f :: D) + R
        = cell (.node f.value) (Links.make f.side (contextPtr D) old (ptr f.sibling) f.color)
          + (treeCells (.node f.value) f.sibling + contextCells (.node f.value) D + R) := by
      rw [contextCells]
      ac_rfl
    have hr := h.read he
    have hcells : Describes (g.write (.node f.value)
        (Links.make f.side (contextPtr D) new (ptr f.sibling) f.color)).links
        (contextCells new (f :: D) + R) := by
      apply (h.write he _).congr
      rw [contextCells]
      ac_rfl
    rw [contextPtr, replaceChild, if_neg (by simp)]
    apply Yields.step (readLinks_run hr)
    by_cases hs : s = f.side
    · subst hs
      rw [Links.make_child, if_pos rfl]
      apply Yields.of_eq (writeLinks_run hr)
      rw [Links.make_setChild]
      exact ⟨hcells, by simp⟩
    · obtain rfl := Side.eq_other_of_ne hs
      rw [Links.make_child_other, if_neg hsib.symm, Side.other_other]
      apply Yields.of_eq (writeLinks_run hr)
      rw [Links.make_setChild]
      exact ⟨hcells, by simp⟩

lemma Shows.sibling_ne {t : ColorTree ℕ} (h : Shows g t C p F) (ht : t ≠ .leaf) :
    ∀ f D, C = f :: D → ptr f.sibling ≠ ptr t := by
  rintro f D rfl
  exact (h.ne_sibling (Or.inl ht)).symm

lemma root_replaced {t u : ColorTree ℕ} (h : g.root = ptr (plug t C)) :
    (if C = [] then ptr u else g.root) = ptr (plug u C) := by
  split_ifs with hC
  · rw [hC, plug]
  · rw [h]
    exact ptr_plug_congr C fun hn => absurd hn hC

lemma rotate_spec {s : Side} {c d : Color} {A B D : ColorTree ℕ} {x y : ℕ}
    (h : Shows g (link s c A x (link s d B y D)) C p F) :
    Yields (rotate s (.node x)) g fun _ g' =>
      Shows g' (link s d (link s c A x B) y D) C p F := by
  have hne := h.sibling_ne (link_ne_leaf _ _ _ _ _)
  rw [ptr_link] at hne
  have h0 := h.describes
  have hroot := h.root
  rw [ptr_link, treeCells_link, treeCells_link, ptr_link] at h0
  -- everything but the two nodes, the subtree between them and the link from above
  let rest := cell .sentinel (sentinelLinks p) + (treeCells (.node x) A + treeCells (.node y) D
    + F)
  have h0' : Describes g.links (cell (.node x) (Links.make s (contextPtr C) (ptr A) (.node y) c)
      + (cell (.node y) (Links.make s (.node x) (ptr B) (ptr D) d)
        + (treeCells (.node y) B + (contextCells (.node x) C + rest)))) := by
    apply h0.congr
    simp only [rest]
    ac_rfl
  have hx0 := h0'.read rfl
  have hy0 := h0'.read (a := .node y) (v := Links.make s (.node x) (ptr B) (ptr D) d)
    (R := cell (.node x) (Links.make s (contextPtr C) (ptr A) (.node y) c)
      + (treeCells (.node y) B + (contextCells (.node x) C + rest))) (by ac_rfl)
  rw [rotate]
  apply Yields.step (readLinks_run hx0)
  rw [Links.make_child_other]
  apply Yields.step (readLinks_run hy0)
  rw [Links.make_child]
  apply Yields.step (writeLinks_run hx0)
  rw [Links.make_setChild_other]
  -- pair 1: the inner subtree changes its parent
  have h1 := (h0'.write rfl (Links.make s (contextPtr C) (ptr A) (ptr B) c)).congr
    (N := treeCells (.node y) B + (cell (.node x) (Links.make s (contextPtr C) (ptr A) (ptr B) c)
      + (cell (.node y) (Links.make s (.node x) (ptr B) (ptr D) d)
        + (contextCells (.node x) C + rest)))) (by ac_rfl)
  apply (adopt_spec (g := g.write _ _) h1 (.node x)).bind
  rintro _ g2 ⟨h2, hroot2⟩
  have hx2 := h2.read (a := .node x) (v := Links.make s (contextPtr C) (ptr A) (ptr B) c)
    (R := treeCells (.node x) B + (cell (.node y) (Links.make s (.node x) (ptr B) (ptr D) d)
        + (contextCells (.node x) C + rest))) (by ac_rfl)
  have he2 : treeCells (.node x) B + (cell (.node x)
      (Links.make s (contextPtr C) (ptr A) (ptr B) c)
        + (cell (.node y) (Links.make s (.node x) (ptr B) (ptr D) d)
          + (contextCells (.node x) C + rest)))
      = cell (.node y) (Links.make s (.node x) (ptr B) (ptr D) d) + (treeCells (.node x) B
        + (cell (.node x) (Links.make s (contextPtr C) (ptr A) (ptr B) c)
          + (contextCells (.node x) C + rest))) := by ac_rfl
  apply Yields.step (readLinks_run hx2)
  rw [Links.make_parent]
  apply Yields.step (writeLinks_run (h2.read he2))
  rw [Links.make_setParent]
  -- pair 2: the link from above
  have h3 := (h2.write he2 (Links.make s (contextPtr C) (ptr B) (ptr D) d)).congr
    (N := contextCells (.node x) C + (cell (.node y) (Links.make s (contextPtr C) (ptr B) (ptr D) d)
      + (treeCells (.node x) B + (cell (.node x) (Links.make s (contextPtr C) (ptr A) (ptr B) c)
        + rest)))) (by ac_rfl)
  apply (replaceChild_spec (g := g2.write _ _) s (.node y) h3 hne).bind
  rintro _ g4 ⟨h4, hroot4⟩
  have he4 : contextCells (.node y) C
      + (cell (.node y) (Links.make s (contextPtr C) (ptr B) (ptr D) d) + (treeCells (.node x) B
        + (cell (.node x) (Links.make s (contextPtr C) (ptr A) (ptr B) c) + rest)))
      = cell (.node y) (Links.make s (contextPtr C) (ptr B) (ptr D) d)
        + (contextCells (.node y) C + (treeCells (.node x) B
          + (cell (.node x) (Links.make s (contextPtr C) (ptr A) (ptr B) c) + rest))) := by
    ac_rfl
  apply Yields.step (writeLinks_run (h4.read he4))
  rw [Links.make_setChild]
  -- pair 3: the two nodes
  have h5 := (h4.write he4 (Links.make s (contextPtr C) (.node x) (ptr D) d)).congr
    (N := cell (.node x) (Links.make s (contextPtr C) (ptr A) (ptr B) c)
      + (cell (.node y) (Links.make s (contextPtr C) (.node x) (ptr D) d)
        + (contextCells (.node y) C + (treeCells (.node x) B + rest)))) (by ac_rfl)
  have hx5 : (g4.write (.node y) (Links.make s (contextPtr C) (.node x) (ptr D) d)).links
      (.node x) = some (Links.make s (contextPtr C) (ptr A) (ptr B) c) := h5.read rfl
  refine Yields.of_eq (writeLinks_run hx5) ⟨?_, ?_⟩
  · rw [Links.make_setParent]
    apply (h5.write rfl (Links.make s (.node y) (ptr A) (ptr B) c)).congr
    rw [treeCells_link, treeCells_link, ptr_link, ptr_link]
    simp only [rest]
    ac_rfl
  · rw [Graph.write_root, Graph.write_root, hroot4, Graph.write_root, hroot2, Graph.write_root]
    have := root_replaced (u := link s d (link s c A x B) y D) hroot
    rwa [ptr_link] at this

lemma transPlant_spec {u : ColorTree ℕ} {old : ℕ} {k : Links} {q : Ptr}
    (h : Describes g.links (cell .sentinel (sentinelLinks p)
      + (treeCells q u + (contextCells (.node old) C + R))))
    (hold : g.links (.node old) = some k) (hk : k.parent = contextPtr C)
    (hne : ∀ f D, C = f :: D → ptr f.sibling ≠ .node old) :
    Yields (transPlant (.node old) (ptr u)) g fun _ g' =>
      Describes g'.links (cell .sentinel (sentinelLinks (sentinelParent u (contextPtr C) p))
        + (treeCells (contextPtr C) u + (contextCells (ptr u) C + R))) ∧
      g'.root = if C = [] then ptr u else g.root := by
  rw [transPlant]
  apply Yields.step (readLinks_run hold)
  rw [hk]
  refine (replaceChild_spec .left (ptr u) (h.congr (by ac_rfl) :
    Describes g.links (contextCells (.node old) C
      + (cell .sentinel (sentinelLinks p) + (treeCells q u + R)))) hne).bind ?_
  rintro _ g' ⟨h', hroot⟩
  refine (hang_spec (h'.congr (by ac_rfl) : Describes g'.links (cell .sentinel (sentinelLinks p)
    + (treeCells q u + (contextCells (ptr u) C + R)))) _).mono ?_
  rintro _ g'' ⟨h'', hroot'⟩
  exact ⟨h'', hroot'.trans hroot⟩

end Xty.RbTree
