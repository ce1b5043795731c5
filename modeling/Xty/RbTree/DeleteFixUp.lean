import Xty.RbTree.Checked

/-! `xtyRbTree::DeleteFixUp` performs the deletion steps on the tree that it shows, on the side that
has lost a black node, and every sibling that it relies on is there. -/

namespace Xty.RbTree

open Xty.General.Programs Xty.General.RedBlack Xty.General.Heap ColorTree

def deleteCase1 (s : Side) (node sibling : Ptr) : GraphProgram Ptr := do
  if (← getColor sibling) = .red then do
    setColor sibling .black
    setColor (← getParent node) .red
    rotate s (← getParent node)
    getChild s.other (← getParent node)
  else return sibling

def childrenBlack (node : Ptr) : GraphProgram Bool := do
  if (← getColor (← getChild .left node)) = .black then
    return (← getColor (← getChild .right node)) = .black
  else return false

def deleteCase3 (s : Side) (node sibling : Ptr) : GraphProgram Ptr := do
  if (← getColor (← getChild s.other sibling)) = .black then do
    setColor (← getChild s sibling) .black
    setColor sibling .red
    rotate s.other sibling
    getChild s.other (← getParent node)
  else return sibling

def deleteCase4 (s : Side) (node sibling : Ptr) : GraphProgram Ptr := do
  setColor sibling (← getColor (← getParent node))
  setColor (← getParent node) .black
  setColor (← getChild s.other sibling) .black
  rotate s (← getParent node)
  -- the root as the node ends the loop
  getRoot

def deleteBlackSibling (s : Side) (node sibling : Ptr) : GraphProgram Ptr := do
  if ← childrenBlack sibling then do
    setColor sibling .red
    getParent node
  else do
    let sibling ← deleteCase3 s node sibling
    deleteCase4 s node sibling

def deleteFixUpRound (node : Ptr) : GraphProgram Ptr := do
  let parent ← getParent node
  let left ← getChild .left parent
  let s := if node = left then Side.left else Side.right
  let sibling ← getChild s.other parent
  let sibling ← deleteCase1 s node sibling
  deleteBlackSibling s node sibling

def lacksBlack (node : Ptr) : GraphProgram Bool := do
  if node ≠ (← getRoot) then return (← getColor node) = .black
  else return false

def deleteFixUp (fuel : ℕ) (node : Ptr) : GraphProgram Unit := do
  let node ← loop lacksBlack deleteFixUpRound fuel node
  setColor node .black
  setParent .sentinel .sentinel

namespace Checked

def deleteCase1 (s : Side) (node sibling : Ptr) : GraphProgram Ptr := do
  if (← getColor sibling) = .red then do
    setColor sibling .black
    setColor (← getParent node) .red
    rotate s (← getParent node)
    let sibling ← getChild s.other (← getParent node)
    require (Graph.isReal · sibling)
    return sibling
  else return sibling

def deleteCase3 (s : Side) (node sibling : Ptr) : GraphProgram Ptr := do
  if (← getColor (← getChild s.other sibling)) = .black then do
    setColor (← getChild s sibling) .black
    setColor sibling .red
    rotate s.other sibling
    let sibling ← getChild s.other (← getParent node)
    require (Graph.isReal · sibling)
    return sibling
  else return sibling

def deleteCase4 (s : Side) (node sibling : Ptr) : GraphProgram Ptr := do
  setColor sibling (← getColor (← getParent node))
  setColor (← getParent node) .black
  setColor (← getChild s.other sibling) .black
  rotate s (← getParent node)
  require (Graph.isReal · sibling)
  -- the root as the node ends the loop
  getRoot

def deleteBlackSibling (s : Side) (node sibling : Ptr) : GraphProgram Ptr := do
  if ← childrenBlack sibling then do
    setColor sibling .red
    getParent node
  else do
    let sibling ← deleteCase3 s node sibling
    deleteCase4 s node sibling

def deleteFixUpRound (bound : ℕ) (node : Ptr) : GraphProgram Ptr := do
  let parent ← getParent node
  let left ← getChild .left parent
  let s := if node = left then Side.left else Side.right
  require (Graph.lacksOn · bound s node parent)
  let sibling ← getChild s.other parent
  require (Graph.isReal · sibling)
  let sibling ← deleteCase1 s node sibling
  deleteBlackSibling s node sibling

def deleteFixUp (fuel : ℕ) (node : Ptr) : GraphProgram Unit := do
  let node ← loop lacksBlack (deleteFixUpRound fuel) fuel node
  setColor node .black
  setParent .sentinel .sentinel

section

variable (s : Side) (q r : Ptr)

lemma erases_deleteCase1 : Erases (deleteCase1 s q r) (RbTree.deleteCase1 s q r) := by
  refine Erases.rest fun c => Erases.ite ?_ (Erases.refl _)
  refine (erases_setColor _ _).bind fun _ => Erases.rest fun _ => ?_
  refine (erases_setColor _ _).bind fun _ => Erases.rest fun _ => ?_
  refine (erases_rotate _ _).bind fun _ => Erases.rest fun _ => ?_
  exact Erases.checked _ _

lemma erases_deleteCase3 : Erases (deleteCase3 s q r) (RbTree.deleteCase3 s q r) := by
  refine Erases.rest fun _ => Erases.rest fun c => ?_
  refine Erases.ite ?_ (Erases.refl _)
  refine Erases.rest fun _ => (erases_setColor _ _).bind fun _ => ?_
  refine (erases_setColor _ _).bind fun _ => (erases_rotate _ _).bind fun _ => ?_
  exact Erases.rest fun _ => Erases.checked _ _

lemma erases_deleteCase4 : Erases (deleteCase4 s q r) (RbTree.deleteCase4 s q r) := by
  refine Erases.rest fun _ => Erases.rest fun _ => ?_
  refine (erases_setColor _ _).bind fun _ => Erases.rest fun _ => ?_
  refine (erases_setColor _ _).bind fun _ => Erases.rest fun _ => ?_
  refine (erases_setColor _ _).bind fun _ => Erases.rest fun _ => ?_
  exact (erases_rotate _ _).bind fun _ => (Erases.refl _).require _

lemma erases_deleteBlackSibling :
    Erases (deleteBlackSibling s q r) (RbTree.deleteBlackSibling s q r) := by
  refine Erases.rest fun _ => Erases.ite ?_ ?_
  · exact (erases_setColor _ _).first
  · exact (erases_deleteCase3 s q r).bind (erases_deleteCase4 s q)

lemma erases_deleteFixUpRound (bound : ℕ) :
    Erases (deleteFixUpRound bound q) (RbTree.deleteFixUpRound q) := by
  refine Erases.rest fun _ => Erases.rest fun _ => Erases.require _ ?_
  refine Erases.rest fun _ => Erases.require _ ?_
  exact (erases_deleteCase1 _ _ _).bind fun _ => erases_deleteBlackSibling _ _ _

lemma erases_deleteFixUp (fuel : ℕ) :
    Erases (deleteFixUp fuel q) (RbTree.deleteFixUp fuel q) :=
  (Erases.loop (erases_deleteFixUpRound · fuel) fuel q).bind fun _ =>
    (erases_setColor _ _).first

end

section

variable {g : Graph} {x y z : ColorTree ℕ} {b v : ℕ} {c : Color} {s : Side} {C : Context ℕ}
  {p : Ptr} {F : LinkCells}

lemma deleteCase1_black (h : Shows g x (⟨s, c, b, y⟩ :: C) p F) (hy : y.color = .black) :
    deleteCase1 s (ptr x) (ptr y) g = some (ptr y, g) := by
  apply Yields.run_eq
  rw [deleteCase1]
  apply Yields.step h.across.color_run
  rw [if_neg (by rw [hy]; decide)]
  exact Yields.pure ⟨rfl, rfl⟩

lemma deleteCase1_red (h : Shows g x (⟨s, .black, b, link s .red y v z⟩ :: C) p F)
    (hy : y ≠ .leaf) (hp : x = .leaf → p = .node b) :
    Yields (deleteCase1 s (ptr x) (.node v)) g fun q g' =>
      q = ptr y ∧ Shows g' x (⟨s, .red, b, y⟩ :: ⟨s, .black, v, z⟩ :: C) p F := by
  have hcol := h.across.color_run
  rw [ptr_link, link_color] at hcol
  rw [deleteCase1]
  apply Yields.step hcol
  rw [if_pos rfl]
  apply (h.paint_sibling .black).bind
  intro _ g1 h1
  apply Yields.step (h1.parent_run hp)
  apply (h1.paint_parent .red).bind
  intro _ g2 h2
  refine Yields.step (h2.parent_run hp) ((rotate_spec h2.up).bind ?_)
  intro _ g3 h3
  have h3' : Shows g3 x (⟨s, .red, b, y⟩ :: ⟨s, .black, v, z⟩ :: C) p F := h3.refocus rfl
  apply Yields.step (h3'.parent_run hp)
  refine Yields.step h3'.sibling_run (Yields.require ?_ (Yields.pure ⟨rfl, h3'⟩))
  exact h3'.across.isReal_of_ne hy

lemma childrenBlack_run (h : Shows g (link s c y v z) C p F) :
    childrenBlack (.node v) g = some (decide (y.color = .black ∧ z.color = .black), g) := by
  have key : ∀ l r : ColorTree ℕ, Shows g (node c l v r) C p F →
      childrenBlack (.node v) g = some (decide (l.color = .black ∧ r.color = .black), g) := by
    intro l r h
    have hl : Shows g l (⟨.left, c, v, r⟩ :: C) p F := h.refocus rfl
    apply Yields.run_eq
    rw [childrenBlack]
    refine Yields.step hl.child_run (Yields.step hl.color_run ?_)
    by_cases hb : l.color = .black
    · rw [if_pos hb]
      refine Yields.step hl.sibling_run (Yields.step hl.across.color_run ?_)
      exact Yields.pure ⟨by simp [hb], rfl⟩
    · rw [if_neg hb]
      exact Yields.pure ⟨by simp [hb], rfl⟩
  cases s with
  | left => exact key y z h
  | right =>
    rw [key z y h]
    simp only [and_comm]

lemma deleteCase3_outer (h : Shows g (link s c y v z) C p F) (hz : z.color = .red) (q : Ptr) :
    deleteCase3 s q (.node v) g = some (.node v, g) := by
  have hz' : Shows g y (⟨s, c, v, z⟩ :: C) p F := h.refocus rfl
  apply Yields.run_eq
  rw [deleteCase3]
  refine Yields.step hz'.sibling_run (Yields.step hz'.across.color_run ?_)
  rw [if_neg (by rw [hz]; decide)]
  exact Yields.pure ⟨rfl, rfl⟩

lemma deleteCase3_inner {l r : ColorTree ℕ} {u : ℕ}
    (h : Shows g x (⟨s, c, b, link s .black (link s .red l u r) v z⟩ :: C) p F)
    (hz : z.color = .black) (hp : x = .leaf → p = .node b) :
    Yields (deleteCase3 s (ptr x) (.node v)) g fun q g' =>
      q = .node u ∧ Shows g' x (⟨s, c, b, link s .black l u (link s .red r v z)⟩ :: C) p F := by
  have hi : Shows g (link s .red l u r) (⟨s, .black, v, z⟩ :: ⟨s.other, c, b, x⟩ :: C) p F :=
    h.across.refocus rfl
  rw [deleteCase3]
  refine Yields.step hi.sibling_run (Yields.step hi.across.color_run ?_)
  rw [if_pos hz]
  have hc := hi.child_run
  rw [ptr_link] at hc
  refine Yields.step hc ((hi.paint_node .black).bind ?_)
  intro _ g1 h1
  apply (h1.paint_parent .red).bind
  intro _ g2 h2
  have hr := rotate_spec (s := s.other) (g := g2) (c := .red) (d := .black) (A := z) (B := r)
    (D := l) (x := v) (y := u) (p := p) (F := F)
    (by simpa only [Frame.fill, link_other] using h2.up)
  apply hr.bind
  intro _ g3 h3
  have h3' : Shows g3 x (⟨s, c, b, link s .black l u (link s .red r v z)⟩ :: C) p F := by
    simpa only [Side.other_other, link_other] using h3.across
  have hsib := h3'.sibling_run
  rw [ptr_link] at hsib
  apply Yields.step (h3'.parent_run hp)
  exact Yields.step hsib (Yields.require h3'.across.isReal (Yields.pure ⟨rfl, h3'⟩))

lemma deleteCase4_spec (h : Shows g x (⟨s, c, b, link s .black y v z⟩ :: C) p F)
    (hp : x = .leaf → p = .node b) :
    Yields (deleteCase4 s (ptr x) (.node v)) g fun q g' =>
      let t := plug (link s c (link s .black x b y) v (z.paint .black)) C
      q = ptr t ∧ Shows g' t [] p F := by
  rw [deleteCase4]
  refine Yields.step (h.parent_run hp) (Yields.step h.parentColor_run ?_)
  apply (h.paint_sibling c).bind
  intro _ g1 h1
  apply Yields.step (h1.parent_run hp)
  apply (h1.paint_parent .black).bind
  intro _ g2 h2
  have hz : Shows g2 z (⟨s.other, c, v, y⟩ :: ⟨s.other, .black, b, x⟩ :: C) p F := by
    apply h2.refocus
    simp only [plug, Frame.fill, link_other]
  refine Yields.step hz.child_run ((hz.paint .black fun _ => rfl).bind ?_)
  intro _ g3 h3
  have h3' : Shows g3 (link s .black x b (link s c y v (z.paint .black))) C p F := by
    apply h3.refocus
    simp only [plug, Frame.fill, link_other]
  have h3x : Shows g3 x (⟨s, .black, b, link s c y v (z.paint .black)⟩ :: C) p F :=
    h3'.refocus rfl
  refine Yields.step (h3x.parent_run hp) ((rotate_spec h3').bind ?_)
  intro _ g4 h4
  refine Yields.require h4.isReal (Yields.of_eq h4.root_run ⟨rfl, Shows.iff_plug.mp h4⟩)

lemma deleteBlackSibling_spec {f : Frame ℕ} {t : Zipper ℕ} (h : Shows g x (f :: C) p F)
    (hs : DeleteCase (x, f :: C) t) (hp : x = .leaf → p = .node f.value) :
    Yields (deleteBlackSibling f.side (ptr x) (ptr f.sibling)) g fun q g' =>
      q = ptr t.1 ∧ t.1 ≠ .leaf ∧ Shows g' t.1 t.2 p F := by
  cases hs with
  | recolor s c _ b y v z _ hy hz =>
    have hb := childrenBlack_run h.across
    rw [decide_eq_true ⟨hy, hz⟩] at hb
    rw [deleteBlackSibling, ptr_link]
    apply Yields.step hb
    rw [if_pos rfl]
    apply (h.paint_sibling .red).bind
    intro _ g1 h1
    refine Yields.of_eq (h1.parent_run hp) ⟨(ptr_link _ _ _ _ _).symm, ?_, h1.up⟩
    exact link_ne_leaf _ _ _ _ _
  | inner s c _ b l u r v z _ hz =>
    have hb := childrenBlack_run h.across
    rw [decide_eq_false (by simp)] at hb
    rw [deleteBlackSibling, ptr_link]
    apply Yields.step hb
    rw [if_neg (by simp)]
    apply (deleteCase3_inner h hz hp).bind
    rintro q g1 ⟨rfl, h1⟩
    have h4 := deleteCase4_spec h1 hp
    rw [paint_link] at h4
    apply h4.mono
    rintro q g2 ⟨rfl, h2⟩
    exact ⟨rfl, plug_ne_leaf (link_ne_leaf _ _ _ _ _) _, h2⟩
  | outer s c _ b y v z _ hz =>
    have hb := childrenBlack_run h.across
    rw [decide_eq_false (by simp [hz])] at hb
    rw [deleteBlackSibling, ptr_link]
    apply Yields.step hb
    rw [if_neg (by simp)]
    refine Yields.step (deleteCase3_outer h.across hz _) ((deleteCase4_spec h hp).mono ?_)
    rintro q g2 ⟨rfl, h2⟩
    exact ⟨rfl, plug_ne_leaf (link_ne_leaf _ _ _ _ _) _, h2⟩

lemma deleteFixUpRound_spec {t : Zipper ℕ} {bound : ℕ} (h : Shows g t.1 t.2 p F)
    (hi : DeleteInv t) (hC : t.2 ≠ []) (hp : t.1 = .leaf → p = contextPtr t.2)
    (hbound : t.tree.size < bound) :
    Yields (deleteFixUpRound bound (ptr t.1)) g fun q g' =>
      ∃ t', DeleteStep t t' ∧ q = ptr t'.1 ∧ t'.1 ≠ .leaf ∧ Shows g' t'.1 t'.2 p F := by
  obtain ⟨t', hs⟩ := delete_progress hi hC
  obtain ⟨x, _ | ⟨f, C⟩⟩ := t
  · exact absurd rfl hC
  -- a node that lacks a black node has a sibling
  obtain ⟨_, n, hn, hf⟩ := hi
  obtain ⟨_, hsn, _⟩ := hf hC
  have hsib : f.sibling ≠ .leaf := ne_leaf_of_blackHeight hsn
  obtain ⟨q, hq, hside⟩ := h.side_test (Or.inr hsib)
  rw [deleteFixUpRound]
  refine Yields.step (h.parent_run hp) (Yields.step hq ?_)
  rw [hside]
  refine Yields.require (h.lacksOn hn hsn hbound) (Yields.step h.sibling_run ?_)
  refine Yields.require (h.across.isReal_of_ne hsib) ?_
  cases hs with
  | black hs =>
    have hb : f.sibling.color = .black := by cases hs <;> exact link_color _ _ _ _ _
    refine Yields.step (deleteCase1_black h hb) ((deleteBlackSibling_spec h hs hp).mono ?_)
    exact fun q g' hg' => ⟨t', .black hs, hg'⟩
  | red s _ b y v z _ hs =>
    have hy : y ≠ .leaf := ne_leaf_of_blackHeight (blackHeight_red.mp hsn).1
    rw [ptr_link]
    apply (deleteCase1_red h hy hp).bind
    rintro q g1 ⟨rfl, h1⟩
    apply (deleteBlackSibling_spec h1 hs hp).mono
    exact fun q g' hg' => ⟨t', .red s x b y v z C hs, hg'⟩

lemma lacksBlack_run {t : ColorTree ℕ} (h : Shows g t C p F) :
    lacksBlack (ptr t) g = some (decide (C ≠ [] ∧ t.color = .black), g) := by
  apply Yields.run_eq
  rw [lacksBlack]
  apply Yields.step h.root_run
  by_cases hC : C = []
  · subst hC
    rw [plug, if_neg fun hne => hne rfl]
    exact Yields.pure ⟨by simp, rfl⟩
  · rw [if_pos (h.ne_root hC)]
    refine Yields.step h.color_run (Yields.pure ⟨by simp [hC], rfl⟩)

lemma deleteFixUp_spec {fuel : ℕ} (h : Shows g x C p F) (hi : DeleteInv (x, C))
    (hp : x = .leaf → p = contextPtr C) (hfuel : (plug x C).size < fuel) :
    Yields (deleteFixUp fuel (ptr x)) g fun _ g' =>
      ∃ t', Shows g' t' [] .sentinel F ∧ IsRedBlack t' ∧ t'.inorder = (plug x C).inorder := by
  -- the loop keeps the deletion invariant of some zipper with the same values in order
  have hm : deleteMeasure (x, C) ≤ C.length := by
    rw [deleteMeasure]
    split_ifs <;> simp
  have hlen := length_le_size x C
  have hloop : Yields (loop lacksBlack (deleteFixUpRound fuel) fuel (ptr x)) g fun q g' =>
      ∃ t : Zipper ℕ, q = ptr t.1 ∧ DeleteInv t ∧ (t.1.color = .red ∨ t.2 = []) ∧
        Shows g' t.1 t.2 p F ∧ t.tree.inorder = (plug x C).inorder := by
    refine loop_yields (I := fun n q g => ∃ t : Zipper ℕ, deleteMeasure t = n ∧ q = ptr t.1 ∧
      DeleteInv t ∧ (t.1 = .leaf → p = contextPtr t.2) ∧ Shows g t.1 t.2 p F ∧
      t.tree.inorder = (plug x C).inorder) ?_ (by omega)
      ⟨(x, C), rfl, rfl, hi, hp, h, rfl⟩
    rintro n q g ⟨t, rfl, rfl, ht, hl, hg, hin⟩
    apply Yields.of_eq (lacksBlack_run hg)
    by_cases hc : t.2 ≠ [] ∧ t.1.color = .black
    · rw [if_pos (decide_eq_true hc)]
      have hsize : t.tree.size < fuel := by
        rwa [← length_inorder, hin, length_inorder]
      apply (deleteFixUpRound_spec hg ht hc.1 hl hsize).mono
      rintro q g' ⟨t', hs, rfl, hne, hg'⟩
      exact ⟨_, delete_decreases hs hc.2 hc.1, t', rfl, rfl, delete_step hs ht hc.2,
        fun hl' => absurd hl' hne, hg', (delete_inorder hs).trans hin⟩
    · rw [if_neg (by simpa using hc)]
      refine ⟨t, rfl, ht, ?_, hg, hin⟩
      by_cases hn : t.2 = []
      · exact Or.inr hn
      · apply Or.inl
        by_contra hr
        exact hc ⟨hn, Color.eq_black_of_ne hr⟩
  rw [deleteFixUp]
  apply hloop.bind
  rintro _ g1 ⟨t, rfl, ht, hd, hg, hin⟩
  apply (hg.paint .black fun _ => rfl).bind
  intro _ g2 h2
  apply (h2.setSentinelParent .sentinel).mono
  intro _ g' h'
  refine ⟨_, Shows.iff_plug.mp h', delete_done ht hd, ?_⟩
  rw [← hin]
  exact inorder_plug_congr (inorder_paint _ _) _

end

end Checked

lemma deleteFixUp_spec {g : Graph} {x : ColorTree ℕ} {C : Context ℕ} {p : Ptr} {F : LinkCells}
    {fuel : ℕ} (h : Shows g x C p F) (hi : DeleteInv (x, C))
    (hp : x = .leaf → p = contextPtr C) (hfuel : (plug x C).size < fuel) :
    Yields (deleteFixUp fuel (ptr x)) g fun _ g' =>
      ∃ t', Shows g' t' [] .sentinel F ∧ IsRedBlack t' ∧ t'.inorder = (plug x C).inorder :=
  (Checked.deleteFixUp_spec h hi hp hfuel).erase (Checked.erases_deleteFixUp _ fuel)

end Xty.RbTree
