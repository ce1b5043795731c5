import Xty.RbTree.Checked

/-! `xtyRbTree::InsertFixUp` performs the insertion steps on the tree that it shows, and every
grandparent that it relies on is there. -/

namespace Xty.RbTree

open Xty.General.Programs Xty.General.RedBlack Xty.General.Heap ColorTree

def insertCase2 (s : Side) (node : Ptr) : GraphProgram Ptr := do
  let parent ← getParent node
  let inner ← getChild s.other parent
  if node = inner then do
    rotate s parent
    return parent
  else return node

def insertCase3 (s : Side) (node : Ptr) : GraphProgram Ptr := do
  let parent ← getParent node
  setColor parent .black
  let grand ← getParent parent
  setColor grand .red
  rotate s.other grand
  return node

def insertFixUpRound (node : Ptr) : GraphProgram Ptr := do
  let parent ← getParent node
  let grand ← getParent parent
  let left ← getChild .left grand
  let s := if parent = left then Side.left else Side.right
  let uncle ← getChild s.other grand
  if (← getColor uncle) = .red then do
    setColor parent .black
    setColor uncle .black
    setColor grand .red
    getParent (← getParent node)
  else do
    let node ← insertCase2 s node
    insertCase3 s node

def parentIsRed (node : Ptr) : GraphProgram Bool := do
  let parent ← getParent node
  let c ← getColor parent
  return c = .red

def insertFixUp (fuel : ℕ) (node : Ptr) : GraphProgram Unit := do
  let _ ← loop parentIsRed insertFixUpRound fuel node
  let root ← getRoot
  setColor root .black

namespace Checked

def insertCase2 (s : Side) (node : Ptr) : GraphProgram Ptr := do
  let parent ← getParent node
  let inner ← getChild s.other parent
  if node = inner then do
    rotate s parent
    return parent
  else return node

def insertCase3 (s : Side) (node : Ptr) : GraphProgram Ptr := do
  let parent ← getParent node
  setColor parent .black
  let grand ← getParent parent
  require (Graph.isReal · grand)
  setColor grand .red
  rotate s.other grand
  return node

def insertFixUpRound (node : Ptr) : GraphProgram Ptr := do
  let parent ← getParent node
  let grand ← getParent parent
  require (Graph.isReal · grand)
  let left ← getChild .left grand
  let s := if parent = left then Side.left else Side.right
  let uncle ← getChild s.other grand
  if (← getColor uncle) = .red then do
    setColor parent .black
    setColor uncle .black
    setColor grand .red
    getParent (← getParent node)
  else do
    let node ← insertCase2 s node
    insertCase3 s node

def insertFixUp (fuel : ℕ) (node : Ptr) : GraphProgram Unit := do
  let _ ← loop parentIsRed insertFixUpRound fuel node
  let root ← getRoot
  setColor root .black

section

lemma erases_insertCase2 (s : Side) (q : Ptr) :
    Erases (insertCase2 s q) (RbTree.insertCase2 s q) :=
  Erases.rest fun _ => Erases.rest fun _ =>
    ((erases_rotate s _).first).ite (Erases.refl _)

lemma erases_insertCase3 (s : Side) (q : Ptr) :
    Erases (insertCase3 s q) (RbTree.insertCase3 s q) :=
  Erases.rest fun _ => (erases_setColor _ _).bind fun _ => Erases.rest fun _ =>
    ((erases_setColor _ _).bind fun _ => (erases_rotate _ _).bind fun _ =>
      Erases.refl _).require _

lemma erases_insertFixUpRound (q : Ptr) :
    Erases (insertFixUpRound q) (RbTree.insertFixUpRound q) := by
  refine Erases.rest fun parent => Erases.rest fun grand => ?_
  refine Erases.require _ ?_
  refine Erases.rest fun left => Erases.rest fun uncle => ?_
  refine Erases.rest fun c => Erases.ite ?_ ?_
  · exact (erases_setColor _ _).bind fun _ => (erases_setColor _ _).bind fun _ =>
      (erases_setColor _ _).first
  · exact (erases_insertCase2 _ _).bind (erases_insertCase3 _)

lemma erases_insertFixUp (fuel : ℕ) (q : Ptr) :
    Erases (insertFixUp fuel q) (RbTree.insertFixUp fuel q) :=
  (Erases.loop erases_insertFixUpRound fuel q).bind fun _ => Erases.rest fun _ =>
    erases_setColor _ _

end

section

variable {g : Graph} {t u w : ColorTree ℕ} {C : Context ℕ} {p : Ptr} {F : LinkCells}

lemma parent_run_of_ne (h : Shows g t C p F) (ht : t ≠ .leaf) :
    getParent (ptr t) g = some (contextPtr C, g) := h.parent_run fun hl => absurd hl ht

lemma insertCase3_spec {s : Side} {b c : ℕ}
    (h : Shows g t (⟨s, .red, b, u⟩ :: ⟨s, .black, c, w⟩ :: C) p F) (ht : t ≠ .leaf) :
    Yields (insertCase3 s (ptr t)) g fun q g' =>
      q = ptr t ∧ Shows g' t (⟨s, .black, b, link s .red u c w⟩ :: C) p F := by
  rw [insertCase3]
  apply Yields.step (parent_run_of_ne h ht)
  apply (h.paint_parent .black).bind
  intro _ g1 h1
  have hp := parent_run_of_ne h1.up (link_ne_leaf _ _ _ _ _)
  rw [ptr_fill] at hp
  apply Yields.step hp
  refine Yields.require h1.up.up.isReal ?_
  apply (h1.up.paint_parent .red).bind
  intro _ g2 h2
  have hr := rotate_spec (s := s.other) (g := g2) (c := .red) (d := .black) (A := w) (B := u)
    (D := t) (x := c) (y := b) (C := C) (p := p) (F := F)
    (by simpa only [Frame.fill, link_other] using h2.up)
  apply hr.bind
  intro _ g3 h3
  refine Yields.pure ⟨rfl, h3.refocus ?_⟩
  simp only [plug, Frame.fill, link_other]

lemma insertCase2_outer {s : Side} {b : ℕ} {c : Color}
    (h : Shows g t (⟨s, c, b, u⟩ :: C) p F) (ht : t ≠ .leaf) :
    insertCase2 s (ptr t) g = some (ptr t, g) := by
  apply Yields.run_eq
  rw [insertCase2]
  refine Yields.step (parent_run_of_ne h ht) (Yields.step h.sibling_run ?_)
  rw [if_neg (h.ne_sibling (Or.inl ht))]
  exact Yields.pure ⟨rfl, rfl⟩

lemma insertCase2_inner {s : Side} {x y : ColorTree ℕ} {a b : ℕ}
    (h : Shows g (link s .red x a y) (⟨s.other, .red, b, u⟩ :: C) p F) :
    Yields (insertCase2 s (.node a)) g fun q g' =>
      q = .node b ∧ Shows g' (link s .red u b x) (⟨s, .red, a, y⟩ :: C) p F := by
  have hp := parent_run_of_ne h (link_ne_leaf _ _ _ _ _)
  have hc := h.child_run
  rw [ptr_link] at hp hc
  rw [insertCase2]
  refine Yields.step hp (Yields.step hc ?_)
  rw [if_pos rfl]
  have hu := h.up
  rw [Frame.fill, link_other] at hu
  apply (rotate_spec hu).bind
  intro _ g' h'
  exact Yields.pure ⟨rfl, h'.refocus rfl⟩

lemma insertCase1_spec {s s' : Side} {b c : ℕ}
    (h : Shows g t (⟨s', .red, b, u⟩ :: ⟨s, .black, c, w⟩ :: C) p F) (ht : t ≠ .leaf) :
    Yields (do
      setColor (.node b) .black
      setColor (ptr w) .black
      setColor (.node c) .red
      getParent (← getParent (ptr t)) : GraphProgram Ptr) g fun q g' =>
      q = .node c ∧
        Shows g' (link s .red (link s' .black t b u) c (w.paint .black)) C p F := by
  apply (h.paint_parent .black).bind
  intro _ g1 h1
  apply (h1.up.across.paint .black fun _ => rfl).bind
  intro _ g2 h2
  apply (h2.across.paint_parent .red).bind
  intro _ g3 h3
  rw [Side.other_other] at h3
  have h4 : Shows g3 t (⟨s', .black, b, u⟩ :: ⟨s, .red, c, w.paint .black⟩ :: C) p F :=
    h3.refocus rfl
  have hp := parent_run_of_ne h3 (link_ne_leaf _ _ _ _ _)
  rw [ptr_fill] at hp
  refine Yields.step (parent_run_of_ne h4 ht) (Yields.of_eq hp ⟨rfl, h3.up⟩)

lemma insertFixUpRound_cases {s s' : Side} {b c : ℕ} {t u w : ColorTree ℕ} {C : Context ℕ}
    (ht : t ≠ .leaf) (h : Shows g t (⟨s', .red, b, u⟩ :: ⟨s, .black, c, w⟩ :: C) p F)
    {Q : Ptr → Graph → Prop}
    (hq : Yields (do
      if w.color = .red then do
        setColor (.node b) .black
        setColor (ptr w) .black
        setColor (.node c) .red
        getParent (← getParent (ptr t))
      else do
        let node ← insertCase2 s (ptr t)
        insertCase3 s node) g Q) :
    Yields (insertFixUpRound (ptr t)) g Q := by
  have h' := h.up
  have hn : (⟨s', .red, b, u⟩ : Frame ℕ).fill t ≠ .leaf := link_ne_leaf _ _ _ _ _
  obtain ⟨q, hq', hs⟩ := h'.side_test (Or.inl hn)
  have hpp := parent_run_of_ne h' hn
  rw [ptr_fill] at hs hpp
  rw [insertFixUpRound]
  refine Yields.step (parent_run_of_ne h ht) (Yields.step hpp ?_)
  refine Yields.require h'.up.isReal (Yields.step hq' ?_)
  rw [contextPtr, contextPtr, hs]
  refine Yields.step h'.sibling_run (Yields.step h'.across.color_run ?_)
  exact hq

lemma insertFixUpRound_spec {z : Zipper ℕ} (h : Shows g z.1 z.2 p F) (hi : InsertInv z)
    (hp : parentColor z.2 = .red) :
    Yields (insertFixUpRound (ptr z.1)) g fun q g' =>
      ∃ z', InsertStep z z' ∧ q = ptr z'.1 ∧ Shows g' z'.1 z'.2 p F := by
  have hne : z.1 ≠ .leaf := ne_leaf_of_red hi.1
  obtain ⟨z', hz'⟩ := insert_progress hi hp
  cases hz' with
  | recolor s s' t b u c w C hw =>
    apply insertFixUpRound_cases hne h
    rw [if_pos hw]
    apply (insertCase1_spec h hne).mono
    rintro q g' ⟨rfl, h'⟩
    exact ⟨_, .recolor s s' t b u c w C hw, (ptr_link _ _ _ _ _).symm, h'⟩
  | outer s t b u c w C hw =>
    apply insertFixUpRound_cases hne h
    rw [if_neg (by rw [hw]; decide)]
    refine Yields.step (insertCase2_outer h hne) ((insertCase3_spec h hne).mono ?_)
    rintro q g' ⟨rfl, h'⟩
    exact ⟨_, .outer s t b u c w C hw, rfl, h'⟩
  | inner s x a y b u c w C hw =>
    apply insertFixUpRound_cases hne h
    rw [if_neg (by rw [hw]; decide)]
    have h2 := insertCase2_inner h
    rw [ptr_link]
    apply h2.bind
    rintro q g1 ⟨rfl, h1⟩
    have h3 := insertCase3_spec h1 (link_ne_leaf _ _ _ _ _)
    rw [ptr_link] at h3
    apply h3.mono
    rintro q g' ⟨rfl, h'⟩
    exact ⟨_, .inner s x a y b u c w C hw, (ptr_link _ _ _ _ _).symm, h'⟩

lemma parentIsRed_run (h : Shows g t C p F) (ht : t ≠ .leaf) :
    parentIsRed (ptr t) g = some (decide (parentColor C = .red), g) := by
  apply Yields.run_eq
  rw [parentIsRed]
  refine Yields.step (parent_run_of_ne h ht) (Yields.step h.parentColor_run ?_)
  exact Yields.pure ⟨rfl, rfl⟩

lemma insertFixUp_spec {fuel : ℕ} (h : Shows g t C p F) (hi : InsertInv (t, C))
    (hfuel : C.length < fuel) :
    Yields (insertFixUp fuel (ptr t)) g fun _ g' =>
      ∃ t', Shows g' t' [] p F ∧ IsRedBlack t' ∧ t'.inorder = (plug t C).inorder := by
  -- the loop keeps the insertion invariant of some zipper with the same values in order
  have hloop : Yields (loop parentIsRed insertFixUpRound fuel (ptr t)) g fun _ g' =>
      ∃ z : Zipper ℕ, InsertInv z ∧ parentColor z.2 ≠ .red ∧ Shows g' z.1 z.2 p F ∧
        z.tree.inorder = (plug t C).inorder := by
    refine loop_yields (I := fun n q g => ∃ z : Zipper ℕ, z.2.length = n ∧ q = ptr z.1 ∧
      InsertInv z ∧ Shows g z.1 z.2 p F ∧ z.tree.inorder = (plug t C).inorder) ?_ hfuel
      ⟨(t, C), rfl, rfl, hi, h, rfl⟩
    rintro n q g ⟨z, rfl, rfl, hz, hg, hin⟩
    apply Yields.of_eq (parentIsRed_run hg (ne_leaf_of_red hz.1))
    by_cases hred : parentColor z.2 = .red
    · rw [if_pos (decide_eq_true hred)]
      apply (insertFixUpRound_spec hg hz hred).mono
      rintro q g' ⟨z', hs, rfl, hg'⟩
      exact ⟨_, insert_decreases hs, z', rfl, rfl, insert_step hs hz, hg',
        (insert_inorder hs).trans hin⟩
    · rw [if_neg (by simpa using hred)]
      exact ⟨z, hz, hred, hg, hin⟩
  rw [insertFixUp]
  apply hloop.bind
  rintro _ g1 ⟨z, hz, hred, hg, hin⟩
  have hroot := Shows.iff_plug.mp hg
  apply Yields.step hg.root_run
  apply (hroot.paint .black fun _ => rfl).mono
  intro _ g' h'
  exact ⟨_, h', insert_done hz hred, by rw [inorder_paint]; exact hin⟩

end

end Checked

lemma insertFixUp_spec {g : Graph} {t : ColorTree ℕ} {C : Context ℕ} {p : Ptr} {F : LinkCells}
    {fuel : ℕ} (h : Shows g t C p F) (hi : InsertInv (t, C)) (hfuel : C.length < fuel) :
    Yields (insertFixUp fuel (ptr t)) g fun _ g' =>
      ∃ t', Shows g' t' [] p F ∧ IsRedBlack t' ∧ t'.inorder = (plug t C).inorder :=
  (Checked.insertFixUp_spec h hi hfuel).erase (Checked.erases_insertFixUp fuel _)

end Xty.RbTree
