import Xty.RbTree.DeleteFixUp

/-! How `xtyRbTree::Delete` takes a node out of the linked structure. -/

namespace Xty.RbTree

open Xty.General.Programs Xty.General.RedBlack Xty.General.Heap ColorTree

/-- The outermost node on a side; `LeftMost` and `RightMost` of the source. -/
def outermost (s : Side) : ℕ → Ptr → GraphProgram Ptr
  | 0, _ => fun _ => none
  | fuel + 1, p => do
    let next ← getChild s p
    if next ≠ .sentinel then outermost s fuel next else return p

def leftMost : ℕ → Ptr → GraphProgram Ptr := outermost .left
def rightMost : ℕ → Ptr → GraphProgram Ptr := outermost .right

structure Gap where
  position : Ptr
  color : Color

def replaceByChild (s : Side) (node : Ptr) : GraphProgram Gap := do
  let color ← getColor node
  let position ← getChild s node
  transPlant node position
  return ⟨position, color⟩

def detachSuccessor (node successor position : Ptr) : GraphProgram Unit := do
  if (← getParent successor) = node then
    setParent position successor
  else do
    transPlant successor (← getChild .right successor)
    setChild .right successor (← getChild .right node)
    setParent (← getChild .right successor) successor

def replaceNode (node successor : Ptr) : GraphProgram Unit := do
  transPlant node successor
  setChild .left successor (← getChild .left node)
  setParent (← getChild .left successor) successor
  setColor successor (← getColor node)

def replaceBySuccessor (fuel : ℕ) (node : Ptr) : GraphProgram Gap := do
  let successor ← leftMost fuel (← getChild .right node)
  let color ← getColor successor
  let position ← getChild .right successor
  detachSuccessor node successor position
  replaceNode node successor
  return ⟨position, color⟩

def unlink (fuel : ℕ) (node : Ptr) : GraphProgram Gap := do
  if (← getChild .left node) = .sentinel then replaceByChild .right node
  else if (← getChild .right node) = .sentinel then replaceByChild .left node
  else replaceBySuccessor fuel node

/-- The destructor: the node may no longer be read. -/
def destroy (node : Ptr) : GraphProgram Unit := fun g =>
  (g.links node).map fun _ => ((), { g with links := Function.update g.links node none })

def remove (fuel : ℕ) (node : Ptr) : GraphProgram Unit := do
  let gap ← unlink fuel node
  setChild .left node .null
  setChild .right node .null
  setParent node .null
  if gap.color = .black then deleteFixUp fuel gap.position
  destroy node

namespace Checked

def remove (fuel : ℕ) (node : Ptr) : GraphProgram Unit := do
  let gap ← unlink fuel node
  setChild .left node .null
  setChild .right node .null
  setParent node .null
  if gap.color = .black then deleteFixUp fuel gap.position
  destroy node

lemma erases_remove (fuel : ℕ) (q : Ptr) : Erases (remove fuel q) (RbTree.remove fuel q) := by
  refine Erases.rest fun gap => Erases.rest fun _ => ?_
  refine Erases.rest fun _ => Erases.rest fun _ => ?_
  exact Erases.ite ((erases_deleteFixUp _ fuel).first) (Erases.refl _)

end Checked

section Successor

lemma exists_outermost (s : Side) {t : ColorTree ℕ} (ht : t ≠ .leaf) :
    ∃ d b x, ∃ D : Context ℕ, t = plug (link s d .leaf b x) D ∧ ∀ f ∈ D, f.side = s := by
  induction t with
  | leaf => exact absurd rfl ht
  | node c l a r ihl ihr =>
    rw [← link_children s c l a r]
    have ih : ∀ u : ColorTree ℕ, u = (node c l a r).child s → u ≠ .leaf →
        ∃ d b x, ∃ D : Context ℕ, u = plug (link s d .leaf b x) D ∧ ∀ f ∈ D, f.side = s := by
      rintro u rfl hu
      cases s with
      | left => exact ihl hu
      | right => exact ihr hu
    by_cases hu : (node c l a r).child s = .leaf
    · exact ⟨c, a, _, [], by rw [hu]; rfl, by simp⟩
    · obtain ⟨d, b, x, D, he, hD⟩ := ih _ rfl hu
      refine ⟨d, b, x, D ++ [⟨s, c, a, (node c l a r).child s.other⟩], ?_, ?_⟩
      · rw [plug_append, ← he]
        rfl
      · intro f hf
        rcases List.mem_append.mp hf with hf | hf
        · exact hD f hf
        · rw [List.mem_singleton.mp hf]

lemma before_left {D : Context ℕ} (hD : ∀ f ∈ D, f.side = .left) : before D = [] := by
  induction D with
  | nil => rfl
  | cons f D ih =>
    rw [before, ih fun g hg => hD g (List.mem_cons_of_mem _ hg), Frame.before, hD f (by simp)]
    rfl

variable {g : Graph} {C D : Context ℕ} {p : Ptr} {F : LinkCells}

lemma outermost_run {s : Side} {d : Color} {b : ℕ} {x : ColorTree ℕ} {fuel : ℕ}
    (h : Shows g (link s d .leaf b x) (D ++ C) p F) (hD : ∀ f ∈ D, f.side = s)
    (hfuel : D.length < fuel) :
    outermost s fuel (ptr (plug (link s d .leaf b x) D)) g = some (.node b, g) := by
  induction D using List.reverseRecOn generalizing C fuel with
  | nil =>
    obtain ⟨n, rfl⟩ := Nat.exists_eq_add_of_lt hfuel
    have hb : Shows g .leaf (⟨s, d, b, x⟩ :: C) p F := h.refocus rfl
    rw [plug, ptr_link]
    apply Yields.run_eq
    rw [outermost]
    apply Yields.step hb.child_run
    rw [if_neg fun hne => hne rfl]
    exact Yields.pure ⟨rfl, rfl⟩
  | append_singleton D f ih =>
    obtain rfl := hD f (by simp)
    rw [List.append_assoc] at h
    have hlen : D.length < fuel - 1 := by
      rw [List.length_append, List.length_singleton] at hfuel
      omega
    have hi := ih h (fun f' hf => hD f' (by simp [hf])) hlen
    have hu : Shows g (plug (link f.side d .leaf b x) D) (f :: C) p F :=
      h.refocus (plug_append _ D (f :: C))
    obtain ⟨n, rfl⟩ := Nat.exists_eq_add_of_lt hfuel
    rw [plug_append, plug, plug, ptr_fill]
    apply Yields.run_eq
    rw [outermost]
    apply Yields.step hu.child_run
    rw [if_pos fun hl => ?_]
    · exact Yields.of_eq hi ⟨rfl, rfl⟩
    · exact plug_ne_leaf (link_ne_leaf _ _ _ _ _) D (ptr_eq_sentinel.mp hl)

end Successor

section Replacement

variable {g : Graph} {C : Context ℕ} {p : Ptr} {F : LinkCells} {l x : ColorTree ℕ} {a b : ℕ}
  {c d : Color}

lemma Shows.node_cells {s : Side} {t : ColorTree ℕ} (h : Shows g (link s c l a t) C p F) :
    Describes g.links (cell .sentinel (sentinelLinks p)
      + (cell (.node a) (Links.make s (contextPtr C) (ptr l) (ptr t) c)
        + (treeCells (.node a) l + (treeCells (.node a) t + (contextCells (.node a) C + F))))) := by
  apply h.describes.congr
  rw [treeCells_link, ptr_link]
  ac_rfl

lemma replaceByChild_spec {s : Side} (h : Shows g (link s c .leaf a x) C p F) :
    Yields (replaceByChild s.other (.node a)) g fun gap g' =>
      gap = ⟨ptr x, c⟩ ∧ ∃ k, Shows g' x C (sentinelParent x (contextPtr C) p)
        (cell (.node a) k + F) := by
  have hne := h.sibling_ne (link_ne_leaf _ _ _ _ _)
  rw [ptr_link] at hne
  have hcol := h.color_run
  rw [ptr_link, link_color] at hcol
  have hx : Shows g .leaf (⟨s, c, a, x⟩ :: C) p F := h.refocus rfl
  rw [replaceByChild]
  refine Yields.step hcol (Yields.step hx.sibling_run ?_)
  have hc := h.node_cells.congr (N := cell .sentinel (sentinelLinks p)
    + (treeCells (.node a) x + (contextCells (.node a) C
      + (cell (.node a) (Links.make s (contextPtr C) .sentinel (ptr x) c) + F))))
    (by rw [treeCells, zero_add]; simp only [ptr]; ac_rfl)
  apply (transPlant_spec hc h.node_run (Links.make_parent _ _ _ _ _) hne).bind
  rintro _ g' ⟨h', hroot⟩
  refine Yields.pure ⟨rfl, _, h'.congr (by ac_rfl), ?_⟩
  rw [hroot]
  exact root_replaced h.root

lemma sentinelParent_of_ne {t : ColorTree ℕ} (ht : t ≠ .leaf) (q : Ptr) :
    sentinelParent t q p = p := by
  cases t with
  | leaf => exact absurd rfl ht
  | node => rfl

/-- The structure between the two halves of case 3: the successor `b` stands apart, with the
right subtree `y` of the node below it. -/
structure Detached (g : Graph) (l y : ColorTree ℕ) (a b : ℕ) (c d : Color) (C : Context ℕ)
    (p : Ptr) (F : LinkCells) : Prop where
  describes : ∃ q k, Describes g.links (cell .sentinel (sentinelLinks p)
    + (cell (.node a) ⟨contextPtr C, ptr l, k, c⟩ + (treeCells (.node a) l
      + (treeCells q (node d .leaf b y) + (contextCells (.node a) C + F)))))
  root : g.root = ptr (plug (node c l a y) C)
  sibling_ne : ∀ f D, C = f :: D → ptr f.sibling ≠ .node a

lemma detachSuccessor_direct (h : Shows g (node c l a (node d .leaf b x)) C p F) :
    Yields (detachSuccessor (.node a) (.node b) (ptr x)) g fun _ g' =>
      Detached g' l x a b c d C (sentinelParent x (.node b) p) F := by
  have hs : Shows g (node d .leaf b x) (⟨.right, c, a, l⟩ :: C) p F := h.refocus rfl
  have hx : Describes g.links (cell .sentinel (sentinelLinks p) + (treeCells (.node b) x
      + (cell (.node a) ⟨contextPtr C, ptr l, .node b, c⟩ + (treeCells (.node a) l
        + (cell (.node b) ⟨.node a, .sentinel, ptr x, d⟩ + (contextCells (.node a) C + F)))))) := by
    apply (h.node_cells (s := .left)).congr
    simp only [treeCells, ptr, Links.make]
    ac_rfl
  rw [detachSuccessor]
  apply Yields.step (hs.parent_run fun hl => absurd hl (by simp))
  rw [contextPtr, if_pos rfl]
  apply (hang_spec hx (.node b)).mono
  rintro _ g' ⟨h', hroot⟩
  refine ⟨⟨.node a, .node b, h'.congr ?_⟩, ?_, h.sibling_ne (by simp)⟩
  · simp only [treeCells, ptr]
    ac_rfl
  · rw [hroot, h.root]
    exact ptr_plug_congr C fun _ => rfl

lemma detachSuccessor_below {D : Context ℕ} (hD : D ≠ [])
    (h : Shows g (node d .leaf b x) (D ++ ⟨.right, c, a, l⟩ :: C) p F) :
    Yields (detachSuccessor (.node a) (.node b) (ptr x)) g fun _ g' =>
      Detached g' l (plug x D) a b c d C
        (sentinelParent x (contextPtr (D ++ ⟨.right, c, a, l⟩ :: C)) p) F := by
  obtain ⟨f, E, rfl⟩ := List.exists_cons_of_ne_nil hD
  have hy : plug x (f :: E) ≠ .leaf := plug_ne_leaf (link_ne_leaf _ _ _ _ _) E
  have hne := h.sibling_ne (by simp)
  have hxb : Shows g x (⟨.right, d, b, .leaf⟩ :: (f :: E ++ ⟨.right, c, a, l⟩ :: C)) p F :=
    h.refocus rfl
  have hfa : Ptr.node f.value ≠ .node a := by
    have hn := h.nodup
    rw [plug_append, plug, inorder_plug, Frame.fill, link] at hn
    intro he
    have hf := value_mem_plug (node d .leaf b x) f E
    rw [Ptr.node.inj he] at hf
    simp only [inorder, List.nodup_append, List.nodup_cons] at hn
    exact hn.1.2.1.2.1.1 hf
  rw [detachSuccessor]
  apply Yields.step (h.parent_run fun hl => absurd hl (by simp))
  rw [List.cons_append, contextPtr, if_neg hfa]
  apply Yields.step hxb.child_run
  -- the right child of the successor takes its place
  have hc := (h.node_cells (s := .left)).congr (N := cell .sentinel (sentinelLinks p)
    + (treeCells (.node b) x + (contextCells (.node b) (f :: E ++ ⟨.right, c, a, l⟩ :: C)
      + (cell (.node b) ⟨.node f.value, .sentinel, ptr x, d⟩ + F)))) (by
    simp only [treeCells, ptr, Links.make, contextPtr, List.cons_append]
    ac_rfl)
  apply (transPlant_spec hc (h.node_run (s := .left)) rfl hne).bind
  rintro _ g1 ⟨h1, hroot1⟩
  have h1' : Shows g1 x (f :: E ++ ⟨.right, c, a, l⟩ :: C)
      (sentinelParent x (contextPtr (f :: E ++ ⟨.right, c, a, l⟩ :: C)) p)
      (cell (.node b) ⟨.node f.value, .sentinel, ptr x, d⟩ + F) := by
    refine ⟨h1.congr (by ac_rfl), ?_⟩
    rw [hroot1]
    exact root_replaced h.root
  have hup : Shows g1 (node c l a (plug x (f :: E))) C _ _ := h1'.refocus (plug_append _ _ _)
  have hright : Shows g1 (plug x (f :: E)) (⟨.right, c, a, l⟩ :: C) _ _ := hup.refocus rfl
  refine Yields.step hright.child_run ((hup.write_free _).bind ?_)
  intro _ g2 h2
  apply Yields.step (readLinks_run h2.read_free)
  -- the right subtree of the node changes its parent
  have hc2 := (h2.node_cells (s := .left)).congr (N := cell .sentinel (sentinelLinks _)
    + (treeCells (.node a) (plug x (f :: E)) + (cell (.node a)
      ⟨contextPtr C, ptr l, ptr (plug x (f :: E)), c⟩ + (treeCells (.node a) l
        + (cell (.node b) ⟨.node f.value, .sentinel, ptr (plug x (f :: E)), d⟩
          + (contextCells (.node a) C + F)))))) (by
    simp only [Links.make, Links.setChild]
    ac_rfl)
  apply (hang_spec hc2 (.node b)).mono
  rintro _ g' ⟨h', hroot'⟩
  rw [sentinelParent_of_ne hy] at h'
  refine ⟨⟨.node f.value, ptr (plug x (f :: E)), h'.congr ?_⟩, hroot'.trans h2.root, ?_⟩
  · simp only [treeCells, ptr]
    ac_rfl
  · exact h2.sibling_ne (by simp)

lemma replaceNode_spec {y : ColorTree ℕ} (h : Detached g l y a b c d C p F) (hl : l ≠ .leaf) :
    Yields (replaceNode (.node a) (.node b)) g fun _ g' =>
      ∃ k, Shows g' (node c l b y) C p (cell (.node a) k + F) := by
  obtain ⟨⟨q, k, hd⟩, hroot, hne⟩ := h
  have h0 := hd.congr (N := cell .sentinel (sentinelLinks p) + (treeCells q (node d .leaf b y)
    + (contextCells (.node a) C + (cell (.node a) ⟨contextPtr C, ptr l, k, c⟩
      + (treeCells (.node a) l + F))))) (by ac_rfl)
  have ha0 := h0.read (a := .node a) (v := ⟨contextPtr C, ptr l, k, c⟩)
    (R := cell .sentinel (sentinelLinks p) + (treeCells q (node d .leaf b y)
      + (contextCells (.node a) C + (treeCells (.node a) l + F)))) (by ac_rfl)
  rw [replaceNode]
  apply (transPlant_spec h0 ha0 rfl hne).bind
  rintro _ g1 ⟨h1, hroot1⟩
  -- the cell of the node, the cell of the successor, and everything else
  have h1' := h1.congr (N := cell (.node b) ⟨contextPtr C, .sentinel, ptr y, d⟩
    + (cell (.node a) ⟨contextPtr C, ptr l, k, c⟩ + (cell .sentinel (sentinelLinks p)
      + (treeCells (.node a) l + (treeCells (.node b) y + (contextCells (.node b) C + F)))))) (by
    simp only [treeCells, ptr, sentinelParent]
    ac_rfl)
  have ha1 := h1'.read (a := .node a) (v := ⟨contextPtr C, ptr l, k, c⟩)
    (R := cell (.node b) ⟨contextPtr C, .sentinel, ptr y, d⟩ + (cell .sentinel (sentinelLinks p)
      + (treeCells (.node a) l + (treeCells (.node b) y + (contextCells (.node b) C + F)))))
    (by ac_rfl)
  refine Yields.step (readLinks_run ha1) (Yields.step (writeLinks_run (h1'.read rfl)) ?_)
  have h2 := h1'.write rfl ⟨contextPtr C, ptr l, ptr y, d⟩
  apply Yields.step (readLinks_run (h2.read rfl))
  have h2' := h2.congr (N := cell .sentinel (sentinelLinks p) + (treeCells (.node a) l
    + (cell (.node b) ⟨contextPtr C, ptr l, ptr y, d⟩
      + (cell (.node a) ⟨contextPtr C, ptr l, k, c⟩ + (treeCells (.node b) y
        + (contextCells (.node b) C + F)))))) (by ac_rfl)
  apply (hang_spec (g := g1.write _ _) h2' (.node b)).bind
  rintro _ g3 ⟨h3, hroot3⟩
  rw [sentinelParent_of_ne hl] at h3
  have hb3 := h3.congr (N := cell (.node b) ⟨contextPtr C, ptr l, ptr y, d⟩
    + (cell .sentinel (sentinelLinks p) + (treeCells (.node b) l
      + (cell (.node a) ⟨contextPtr C, ptr l, k, c⟩ + (treeCells (.node b) y
        + (contextCells (.node b) C + F)))))) (by ac_rfl)
  have ha3 := hb3.read (a := .node a) (v := ⟨contextPtr C, ptr l, k, c⟩)
    (R := cell (.node b) ⟨contextPtr C, ptr l, ptr y, d⟩ + (cell .sentinel (sentinelLinks p)
      + (treeCells (.node b) l + (treeCells (.node b) y + (contextCells (.node b) C + F)))))
    (by ac_rfl)
  refine Yields.step (readLinks_run ha3) (Yields.of_eq (writeLinks_run (hb3.read rfl)) ?_)
  refine ⟨⟨contextPtr C, ptr l, k, c⟩,
    (hb3.write rfl ⟨contextPtr C, ptr l, ptr y, c⟩).congr ?_, ?_⟩
  · simp only [treeCells, ptr]
    ac_rfl
  · rw [Graph.write_root, hroot3, Graph.write_root, hroot1]
    exact root_replaced (u := node c l b y) hroot

end Replacement

section Removal

variable {g : Graph} {C : Context ℕ} {p : Ptr} {F : LinkCells} {l r : ColorTree ℕ} {a : ℕ}
  {c : Color}

/-- A node has been taken out of a tree. The subtree `x` at the gap has lost one black node above
it, or none. -/
structure Unlinked (g : Graph) (gap : Gap) (values : List ℕ) (x : ColorTree ℕ) (D : Context ℕ)
    (p : Ptr) (F : LinkCells) : Prop where
  shows : Shows g x D p F
  position : gap.position = ptr x
  sentinel : x = .leaf → p = contextPtr D
  inorder : (plug x D).inorder = values
  black : gap.color = .black → DeleteInv (x, D)
  red : gap.color = .red → IsRedBlack (plug x D)

lemma sentinelParent_leaf {x : ColorTree ℕ} {q : Ptr} (hx : x = .leaf) :
    sentinelParent x q p = q := by
  rw [hx, sentinelParent]

lemma replaceByChild_unlinked {s : Side} {x : ColorTree ℕ}
    (h : Shows g (link s c .leaf a x) C p F) (ht : IsRedBlack (plug (link s c .leaf a x) C)) :
    Yields (replaceByChild s.other (.node a)) g fun gap g' => gap.color = c ∧ ∃ x' D q k,
      Unlinked g' gap (before C ++ x.inorder ++ after C) x' D q (cell (.node a) k + F) ∧
        (gap.color = .red → x' = .leaf ∧ D ≠ []) := by
  apply (replaceByChild_spec h).mono
  rintro _ g' ⟨rfl, k, h'⟩
  refine ⟨rfl, x, C, _, k, ⟨h', rfl, sentinelParent_leaf, inorder_plug _ _, ?_, ?_⟩, ?_⟩
  · rintro rfl
    exact delete_init ht
  · rintro rfl
    exact delete_red ht
  · rintro rfl
    exact red_gap ht

lemma replaceBySuccessor_unlinked {fuel : ℕ} (h : Shows g (node c l a r) C p F)
    (ht : IsRedBlack (plug (node c l a r) C)) (hl : l ≠ .leaf) (hr : r ≠ .leaf)
    (hfuel : r.size ≤ fuel) :
    Yields (replaceBySuccessor fuel (.node a)) g fun gap g' => gap.color = leftmostColor r ∧
      ∃ x D q k, Unlinked g' gap (before C ++ (l.inorder ++ r.inorder) ++ after C) x D q
        (cell (.node a) k + F) ∧ (gap.color = .red → x = .leaf ∧ D ≠ []) := by
  obtain ⟨d, b, x, D, rfl, hD⟩ := exists_outermost .left hr
  have hs : Shows g (node d .leaf b x) (D ++ ⟨.right, c, a, l⟩ :: C) p F :=
    h.refocus (plug_append _ D (⟨.right, c, a, l⟩ :: C)).symm
  have hright : Shows g (plug (node d .leaf b x) D) (⟨.right, c, a, l⟩ :: C) p F := h.refocus rfl
  have hx : Shows g x (⟨.right, d, b, .leaf⟩ :: (D ++ ⟨.right, c, a, l⟩ :: C)) p F :=
    hs.refocus rfl
  have hlen : D.length < fuel := (length_lt_size (by simp [link]) D).trans_le hfuel
  have hcol := hs.color_run
  -- whichever of the two cases, the successor ends up apart, with the tree below it
  have hdet : Yields (detachSuccessor (.node a) (.node b) (ptr x)) g fun _ g' => ∃ q,
      (x = .leaf → q = contextPtr (D ++ ⟨.right, c, b, l⟩ :: C)) ∧
        Detached g' l (plug x D) a b c d C q F := by
    by_cases hn : D = []
    · subst hn
      exact (detachSuccessor_direct h).mono fun _ g' h' => ⟨_, sentinelParent_leaf, h'⟩
    · refine (detachSuccessor_below hn hs).mono fun _ g' h' => ⟨_, fun hl => ?_, h'⟩
      rw [sentinelParent_leaf hl]
      obtain ⟨f, E, rfl⟩ := List.exists_cons_of_ne_nil hn
      rfl
  rw [replaceBySuccessor]
  refine Yields.step hright.child_run (Yields.step (outermost_run hs hD hlen) ?_)
  refine Yields.step hcol (Yields.step hx.child_run (hdet.bind ?_))
  rintro _ g1 ⟨q, hq, h1⟩
  apply (replaceNode_spec h1 hl).bind
  rintro _ g2 ⟨k, h2⟩
  have h2' : Shows g2 x (D ++ ⟨.right, c, b, l⟩ :: C) q (cell (.node a) k + F) :=
    h2.refocus (plug_append _ D (⟨.right, c, b, l⟩ :: C)).symm
  have ht' : IsRedBlack (plug (link .left d .leaf b x) (D ++ ⟨.right, c, a, l⟩ :: C)) := by
    rw [plug_append]
    exact ht
  have hcolor : leftmostColor (plug (link .left d .leaf b x) D) = d :=
    leftmostColor_plug hD (link_ne_leaf _ _ _ _ _)
  refine Yields.pure ⟨hcolor.symm, x, _, q, k, ⟨h2', rfl, hq, ?_, ?_, ?_⟩, ?_⟩
  · rw [plug_append, plug, inorder_plug, inorder_plug]
    simp [Frame.fill, link, inorder, inorder_plug, before_left hD]
  · rintro rfl
    exact deleteInv_revalue b (delete_init ht')
  · rintro rfl
    exact isRedBlack_revalue b (delete_red ht')
  · rintro rfl
    exact ⟨(red_gap ht').1, by simp⟩

lemma unlink_spec {fuel : ℕ} (h : Shows g (node c l a r) C p F)
    (ht : IsRedBlack (plug (node c l a r) C)) (hfuel : r.size ≤ fuel) :
    Yields (unlink fuel (.node a)) g fun gap g' => gap.color = vacated (node c l a r) ∧
      ∃ x D q k, Unlinked g' gap (before C ++ (l.inorder ++ r.inorder) ++ after C) x D q
        (cell (.node a) k + F) ∧ (gap.color = .red → x = .leaf ∧ D ≠ []) := by
  have hleft : Shows g l (⟨.left, c, a, r⟩ :: C) p F := h.refocus rfl
  rw [unlink]
  apply Yields.step hleft.child_run
  by_cases hl : l = .leaf
  · subst hl
    rw [if_pos (ptr_eq_sentinel.mpr rfl)]
    have h' := replaceByChild_unlinked (s := .left) h ht
    rw [← vacated_one (s := .left) (c := c) (a := a) (x := r)] at h'
    exact h'
  rw [if_neg fun he => hl (ptr_eq_sentinel.mp he)]
  apply Yields.step hleft.sibling_run
  by_cases hr : r = .leaf
  · subst hr
    rw [if_pos (ptr_eq_sentinel.mpr rfl)]
    have h' := replaceByChild_unlinked (s := .right) h ht
    have hv : vacated (node c l a .leaf) = c := vacated_one (s := .right)
    simp only [inorder, List.append_nil, hv]
    exact h'
  · rw [if_neg fun he => hr (ptr_eq_sentinel.mp he), vacated_two hl hr]
    exact replaceBySuccessor_unlinked h ht hl hr hfuel

def Marks : Color → ColorTree ℕ → Ptr → Prop
  | .black, _, q => q = .sentinel
  | .red, t, q => ∃ b ∈ t.inorder, q = .node b

lemma destroy_run {q : Ptr} {k : Links} (h : g.links q = some k) :
    destroy q g = some ((), { g with links := Function.update g.links q none }) := by
  rw [destroy, h]
  rfl

lemma destroy_spec {t : ColorTree ℕ} {q : Ptr} {k : Links} (h : Shows g t C p (cell q k + F)) :
    Yields (destroy q) g fun _ g' => Shows g' t C p F :=
  Yields.of_eq (destroy_run h.read_free) ⟨h.free_cells.free rfl, h.root⟩

/-- The repair puts the sentinel back. Without one it is left below the place given up, to which
the transplant has pointed it. -/
lemma Checked.remove_spec {fuel : ℕ} (h : Shows g (node c l a r) C p F)
    (ht : IsRedBlack (plug (node c l a r) C)) (hfuel : (plug (node c l a r) C).size ≤ fuel) :
    Yields (remove fuel (.node a)) g fun _ g' => ∃ t' q, Shows g' t' [] q F ∧ IsRedBlack t' ∧
      t'.inorder = before C ++ (l.inorder ++ r.inorder) ++ after C ∧
        Marks (vacated (node c l a r)) t' q := by
  have hsize := length_inorder (plug (node c l a r) C)
  rw [inorder_plug, inorder, List.length_append, List.length_append, List.length_append,
    List.length_cons, length_inorder, length_inorder] at hsize
  rw [remove]
  apply (unlink_spec h ht (by omega)).bind
  rintro gap g1 ⟨hv, x, D, q, k, hx, hgap⟩
  refine (hx.shows.write_free _).bind fun _ g2 h2 => ?_
  refine (h2.write_free _).bind fun _ g3 h3 => ?_
  refine (h3.write_free _).bind fun _ g4 h4 => ?_
  have hD : (plug x D).size < fuel := by
    rw [← length_inorder, hx.inorder]
    simp only [List.length_append, length_inorder]
    omega
  rw [← hv]
  by_cases hc : gap.color = .black
  · rw [if_pos hc, hx.position, hc]
    apply (deleteFixUp_spec h4 (hx.black hc) hx.sentinel hD).bind
    rintro _ g5 ⟨t', h5, hb, hin⟩
    refine (destroy_spec h5).mono fun _ g' h' => ?_
    exact ⟨t', _, h', hb, hin.trans hx.inorder, rfl⟩
  · have hred : gap.color = .red := by
      by_contra hr
      exact hc (Color.eq_black_of_ne hr)
    obtain ⟨hleaf, hne⟩ := hgap hred
    obtain ⟨f, E, rfl⟩ := List.exists_cons_of_ne_nil hne
    rw [if_neg hc, hred]
    refine (destroy_spec h4).mono fun _ g' h' => ?_
    exact ⟨_, _, Shows.iff_plug.mp h', hx.red hred, hx.inorder, f.value, value_mem_plug x f E,
      hx.sentinel hleaf⟩

end Removal

section Clearing

def clearChild (clear : Ptr → GraphProgram Unit) (child : Ptr) : GraphProgram Unit :=
  if child ≠ .sentinel then clear child else return ()

def clearAux : ℕ → Ptr → GraphProgram Unit
  | 0, _ => fun _ => none
  | fuel + 1, p =>
    if p = .sentinel then return ()
    else do
      clearChild (clearAux fuel) (← getChild .left p)
      clearChild (clearAux fuel) (← getChild .right p)
      destroy p

variable {g : Graph} {R : LinkCells} {t : ColorTree ℕ} {q : Ptr}

lemma clearChild_spec {clear : Ptr → GraphProgram Unit} (h : Describes g.links (treeCells q t + R))
    (hc : t ≠ .leaf → Yields (clear (ptr t)) g fun _ g' => Describes g'.links R) :
    Yields (clearChild clear (ptr t)) g fun _ g' => Describes g'.links R := by
  rw [clearChild]
  by_cases ht : t = .leaf
  · rw [if_neg fun hne => hne (ptr_eq_sentinel.mpr ht)]
    refine Yields.pure (h.congr ?_)
    rw [ht, treeCells, zero_add]
  · rw [if_pos fun he => ht (ptr_eq_sentinel.mp he)]
    exact hc ht

lemma clearAux_spec {fuel : ℕ} (h : Describes g.links (treeCells q t + R))
    (hfuel : t.height < fuel) :
    Yields (clearAux fuel (ptr t)) g fun _ g' => Describes g'.links R := by
  induction t generalizing q fuel g R with
  | leaf =>
    obtain ⟨n, rfl⟩ := Nat.exists_eq_add_of_lt hfuel
    rw [clearAux, ptr, if_pos rfl]
    refine Yields.pure (h.congr ?_)
    rw [treeCells, zero_add]
  | node c l a r ihl ihr =>
    obtain _ | fuel := fuel
    · simp at hfuel
    rw [height] at hfuel
    have hd := h.congr (N := cell (.node a) ⟨q, ptr l, ptr r, c⟩ + (treeCells (.node a) l
      + (treeCells (.node a) r + R))) (by rw [treeCells]; ac_rfl)
    have hl : Describes g.links (treeCells (.node a) l + (cell (.node a) ⟨q, ptr l, ptr r, c⟩
      + (treeCells (.node a) r + R))) := hd.congr (by ac_rfl)
    rw [ptr, clearAux, if_neg (by simp)]
    apply Yields.step (readLinks_run (hd.read rfl))
    refine (clearChild_spec hl fun _ => ihl hl (by omega)).bind fun _ g1 h1 => ?_
    have hr : Describes g1.links (treeCells (.node a) r + (cell (.node a) ⟨q, ptr l, ptr r, c⟩
      + R)) := h1.congr (by ac_rfl)
    refine Yields.step (readLinks_run (h1.read rfl)) ?_
    refine (clearChild_spec hr fun _ => ihr hr (by omega)).bind fun _ g2 h2 => ?_
    exact Yields.of_eq (destroy_run (h2.read rfl)) (h2.free rfl)

end Clearing

end Xty.RbTree
