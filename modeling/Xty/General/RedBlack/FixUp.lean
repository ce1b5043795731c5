import Xty.General.RedBlack.Balance

/-! The two repair loops of a red-black tree as steps on a zipper. Each step keeps the values in
order and an invariant that gives the red-black conditions back when the loop ends. -/

namespace Xty.General.RedBlack

open ColorTree

variable {α : Type}

abbrev Zipper (α : Type) := ColorTree α × Context α

def Zipper.tree (z : Zipper α) : ColorTree α := plug z.1 z.2

section Insertion

/-- One round of the loop after an insertion: the focus and its parent are red. -/
inductive InsertStep : Zipper α → Zipper α → Prop
  | recolor (s s' : Side) (t : ColorTree α) (b : α) (u : ColorTree α) (c : α) (w : ColorTree α)
      (C : Context α) : w.color = .red →
      InsertStep (t, ⟨s', .red, b, u⟩ :: ⟨s, .black, c, w⟩ :: C)
        (link s .red (link s' .black t b u) c (w.paint .black), C)
  | outer (s : Side) (t : ColorTree α) (b : α) (u : ColorTree α) (c : α) (w : ColorTree α)
      (C : Context α) : w.color = .black →
      InsertStep (t, ⟨s, .red, b, u⟩ :: ⟨s, .black, c, w⟩ :: C)
        (t, ⟨s, .black, b, link s .red u c w⟩ :: C)
  | inner (s : Side) (x : ColorTree α) (a : α) (y : ColorTree α) (b : α) (u : ColorTree α)
      (c : α) (w : ColorTree α) (C : Context α) : w.color = .black →
      InsertStep (link s .red x a y, ⟨s.other, .red, b, u⟩ :: ⟨s, .black, c, w⟩ :: C)
        (link s .red u b x, ⟨s, .black, a, link s .red y c w⟩ :: C)

def InsertInv (z : Zipper α) : Prop :=
  z.1.color = .red ∧ NoRedRed z.1 ∧ ∃ n, BlackHeight z.1 n ∧ Fits z.2 n

lemma insert_progress {z : Zipper α} (h : InsertInv z) (hp : parentColor z.2 = .red) :
    ∃ z', InsertStep z z' := by
  obtain ⟨t, _ | ⟨⟨s', c', b, u⟩, C⟩⟩ := z
  · cases hp
  obtain rfl : c' = .red := hp
  obtain ⟨ht, hr, n, hb, _, _, hc, _⟩ := h
  obtain ⟨hu, hC, hg⟩ := hc rfl
  obtain ⟨⟨s, c, a, w⟩, C, rfl⟩ := List.exists_cons_of_ne_nil hC
  obtain rfl : c = .black := hg
  by_cases hw : w.color = .red
  · exact ⟨_, .recolor s s' t b u a w C hw⟩
  have hw' := Color.eq_black_of_ne hw
  by_cases hs : s' = s
  · subst hs
    exact ⟨_, .outer s' t b u a w C hw'⟩
  · obtain rfl := Side.eq_other_of_ne hs
    have htc : t.color = .red := ht
    obtain ⟨x, v, y, hxy⟩ := exists_link s (ne_leaf_of_red htc)
    rw [htc] at hxy
    subst hxy
    exact ⟨_, .inner s x v y b u a w C hw'⟩

lemma insert_inorder {z z' : Zipper α} (h : InsertStep z z') :
    z'.tree.inorder = z.tree.inorder := by
  cases h with
  | recolor s s' t b u c w C hw =>
    refine inorder_plug_congr ?_ C
    refine inorder_recolor _ _ _ _ _ _ _ _ ?_ (inorder_paint _ _)
    exact inorder_recolor _ _ _ _ _ _ _ _ rfl rfl
  | outer s t b u c w C hw =>
    refine inorder_plug_congr ?_ C
    cases s <;> simp [Frame.fill, link, inorder]
  | inner s x a y b u c w C hw =>
    refine inorder_plug_congr ?_ C
    cases s <;> simp [Frame.fill, link, inorder, Side.other]

lemma insert_step {z z' : Zipper α} (hs : InsertStep z z') (h : InsertInv z) : InsertInv z' := by
  cases hs with
  | recolor s s' t b u c w C hw =>
    obtain ⟨_, hr, n, hb, hu, hub, hc, hw', hwb, _, hC⟩ := h
    obtain ⟨huc, _⟩ := hc rfl
    refine ⟨link_color _ _ _ _ _, ?_, n + 1, ?_, hC⟩
    · refine noRedRed_link.mpr ⟨fun _ => ⟨link_color _ _ _ _ _, color_paint_black w⟩, ?_,
        noRedRed_black hw'⟩
      exact noRedRed_link.mpr ⟨fun hcon => Color.noConfusion hcon, hr, hu⟩
    · exact blackHeight_red.mpr
        ⟨blackHeight_black.mpr ⟨hb, hub⟩, blackHeight_blacken hwb hw⟩
  | outer s t b u c w C hw =>
    obtain ⟨ht, hr, n, hb, hu, hub, hc, hw', hwb, _, hC⟩ := h
    obtain ⟨huc, _⟩ := hc rfl
    refine ⟨ht, hr, n, hb, ?_, blackHeight_red.mpr ⟨hub, hwb⟩,
      fun hcon => Color.noConfusion hcon, hC⟩
    exact noRedRed_link.mpr ⟨fun _ => ⟨huc, hw⟩, hu, hw'⟩
  | inner s x a y b u c w C hw =>
    obtain ⟨_, hr, n, hb, hu, hub, hc, hw', hwb, _, hC⟩ := h
    obtain ⟨huc, _⟩ := hc rfl
    obtain ⟨hxy, hx, hy⟩ := noRedRed_link.mp hr
    obtain ⟨hxb, hyb⟩ := blackHeight_red.mp hb
    refine ⟨link_color _ _ _ _ _, ?_, n, blackHeight_red.mpr ⟨hub, hxb⟩, ?_,
      blackHeight_red.mpr ⟨hyb, hwb⟩, fun hcon => Color.noConfusion hcon, hC⟩
    · exact noRedRed_link.mpr ⟨fun _ => ⟨huc, (hxy rfl).1⟩, hu, hx⟩
    · exact noRedRed_link.mpr ⟨fun _ => ⟨(hxy rfl).2, hw⟩, hy, hw'⟩

lemma insert_decreases {z z' : Zipper α} (h : InsertStep z z') : z'.2.length < z.2.length := by
  cases h <;> simp

lemma insert_done {z : Zipper α} (h : InsertInv z) (hp : parentColor z.2 ≠ .red) :
    IsRedBlack (z.tree.paint .black) := by
  obtain ⟨t, C⟩ := z
  obtain ⟨ht, hr, n, hb, hC⟩ := h
  cases C with
  | nil =>
    exact ⟨color_paint_black t, noRedRed_black hr, n + 1, blackHeight_blacken hb ht⟩
  | cons f C =>
    have hv : IsRedBlack (plug t (f :: C)) := valid_plug.mpr ⟨n, hr, hb, hC,
      fun _ => ⟨List.cons_ne_nil _ _, Color.eq_black_of_ne hp⟩⟩
    rw [Zipper.tree, paint_black_of_black hv.1]
    exact hv

lemma insert_init {C : Context α} (h : IsRedBlack (plug .leaf C)) (a : α) :
    InsertInv (node .red .leaf a .leaf, C) := by
  obtain ⟨n, _, hb, hC, _⟩ := valid_plug.mp h
  exact ⟨rfl, ⟨fun _ => ⟨rfl, rfl⟩, trivial, trivial⟩, n, ⟨n, rfl, hb, hb⟩, hC⟩

end Insertion

section Deletion

inductive DeleteCase : Zipper α → Zipper α → Prop
  | recolor (s : Side) (c : Color) (x : ColorTree α) (b : α) (y : ColorTree α) (v : α)
      (z : ColorTree α) (C : Context α) : y.color = .black → z.color = .black →
      DeleteCase (x, ⟨s, c, b, link s .black y v z⟩ :: C)
        (link s c x b (link s .red y v z), C)
  | inner (s : Side) (c : Color) (x : ColorTree α) (b : α) (p : ColorTree α) (u : α)
      (q : ColorTree α) (v : α) (z : ColorTree α) (C : Context α) : z.color = .black →
      DeleteCase (x, ⟨s, c, b, link s .black (link s .red p u q) v z⟩ :: C)
        (plug (link s c (link s .black x b p) u (link s .black q v z)) C, [])
  | outer (s : Side) (c : Color) (x : ColorTree α) (b : α) (y : ColorTree α) (v : α)
      (z : ColorTree α) (C : Context α) : z.color = .red →
      DeleteCase (x, ⟨s, c, b, link s .black y v z⟩ :: C)
        (plug (link s c (link s .black x b y) v (z.paint .black)) C, [])

/-- One round of the loop after a deletion. A red sibling is rotated away first. -/
inductive DeleteStep : Zipper α → Zipper α → Prop
  | black {z z' : Zipper α} : DeleteCase z z' → DeleteStep z z'
  | red (s : Side) (x : ColorTree α) (b : α) (y : ColorTree α) (v : α) (z : ColorTree α)
      (C : Context α) {z' : Zipper α} :
      DeleteCase (x, ⟨s, .red, b, y⟩ :: ⟨s, .black, v, z⟩ :: C) z' →
      DeleteStep (x, ⟨s, .black, b, link s .red y v z⟩ :: C) z'

/-- The focus is one black node short. A red focus may have a red child, for it ends the loop. -/
def DeleteInv (z : Zipper α) : Prop :=
  NoRedRed (z.1.paint .black) ∧ ∃ n, BlackHeight z.1 n ∧ (z.2 ≠ [] → Fits z.2 (n + 1))

def deleteMeasure (z : Zipper α) : ℕ := if z.1.color = .red then 0 else z.2.length

lemma deleteCase_progress {x : ColorTree α} {s : Side} {c : Color} {b : α} {w : ColorTree α}
    {C : Context α} {n : ℕ} (hw : w.color = .black) (hb : BlackHeight w (n + 1)) :
    ∃ z', DeleteCase (x, ⟨s, c, b, w⟩ :: C) z' := by
  obtain ⟨y, v, z, hyz⟩ := exists_link s (ne_leaf_of_blackHeight hb)
  rw [hw] at hyz
  subst hyz
  by_cases hz : z.color = .red
  · exact ⟨_, .outer s c x b y v z C hz⟩
  have hz' := Color.eq_black_of_ne hz
  by_cases hy : y.color = .red
  · obtain ⟨p, u, q, hpq⟩ := exists_link s (ne_leaf_of_red hy)
    rw [hy] at hpq
    subst hpq
    exact ⟨_, .inner s c x b p u q v z C hz'⟩
  · exact ⟨_, .recolor s c x b y v z C (Color.eq_black_of_ne hy) hz'⟩

lemma delete_progress {z : Zipper α} (h : DeleteInv z) (hC : z.2 ≠ []) :
    ∃ z', DeleteStep z z' := by
  obtain ⟨x, C⟩ := z
  obtain ⟨⟨s, c, b, w⟩, C, rfl⟩ := List.exists_cons_of_ne_nil hC
  obtain ⟨_, n, _, hf⟩ := h
  obtain ⟨hw, hwb, hc, _⟩ := hf hC
  by_cases hred : w.color = .red
  · obtain rfl : c = .black := by
      refine Color.eq_black_of_ne fun h => ?_
      exact absurd (hred.symm.trans (hc h).1) (by decide)
    obtain ⟨y, v, z, hyz⟩ := exists_link s (ne_leaf_of_red hred)
    rw [hred] at hyz
    subst hyz
    obtain ⟨hyc, _⟩ := noRedRed_link.mp hw
    obtain ⟨z', hz'⟩ := deleteCase_progress (x := x) (s := s) (c := .red) (b := b)
      (C := ⟨s, .black, v, z⟩ :: C) (hyc rfl).1 (blackHeight_red.mp hwb).1
    exact ⟨z', .red s x b y v z C hz'⟩
  · obtain ⟨z', hz'⟩ := deleteCase_progress (x := x) (s := s) (c := c) (b := b) (C := C)
      (Color.eq_black_of_ne hred) hwb
    exact ⟨z', .black hz'⟩

lemma deleteCase_inorder {z z' : Zipper α} (h : DeleteCase z z') :
    z'.tree.inorder = z.tree.inorder := by
  cases h with
  | recolor s c x b y v z C hy hz =>
    exact inorder_plug_congr (inorder_recolor _ _ _ _ _ _ _ _ rfl
      (inorder_recolor _ _ _ _ _ _ _ _ rfl rfl)) C
  | inner s c x b p u q v z C hz =>
    refine inorder_plug_congr ?_ C
    cases s <;> simp [Frame.fill, link, inorder]
  | outer s c x b y v z C hz =>
    refine inorder_plug_congr ?_ C
    cases s <;> simp [Frame.fill, link, inorder]

lemma delete_inorder {z z' : Zipper α} (h : DeleteStep z z') :
    z'.tree.inorder = z.tree.inorder := by
  cases h with
  | black h => exact deleteCase_inorder h
  | red s x b y v z C h =>
    rw [deleteCase_inorder h]
    exact inorder_plug_congr (inorder_rotate s _ _ _ _ _ _ _ _ _).symm C

lemma deleteInv_root {t : ColorTree α} (h : IsRedBlack t) : DeleteInv (t, []) := by
  obtain ⟨_, hr, n, hb⟩ := h
  exact ⟨noRedRed_black hr, n, hb, fun h => absurd rfl h⟩

lemma deleteCase_step {x : ColorTree α} {f : Frame α} {C : Context α} {n : ℕ} {z' : Zipper α}
    (hs : DeleteCase (x, f :: C) z') (hr : NoRedRed x)
    (hb : BlackHeight x n) (hf : Fits (f :: C) (n + 1)) : DeleteInv z' := by
  cases hs with
  | recolor s c _ b y v z _ hy hz =>
    obtain ⟨hw, hwb, hc, hC⟩ := hf
    obtain ⟨_, hyr, hzr⟩ := noRedRed_link.mp hw
    obtain ⟨hyb, hzb⟩ := blackHeight_black.mp hwb
    refine ⟨?_, n + c.weight, blackHeight_weight.mpr ⟨hb, blackHeight_red.mpr ⟨hyb, hzb⟩⟩, ?_⟩
    · rw [paint_link]
      refine noRedRed_link.mpr ⟨fun hcon => Color.noConfusion hcon, hr, ?_⟩
      exact noRedRed_link.mpr ⟨fun _ => ⟨hy, hz⟩, hyr, hzr⟩
    · intro _
      rw [Nat.add_right_comm]
      exact hC
  | inner s c _ b p u q v z _ hz =>
    obtain ⟨hw, hwb, hc, hC⟩ := hf
    obtain ⟨_, hyr, hzr⟩ := noRedRed_link.mp hw
    obtain ⟨_, hpr, hqr⟩ := noRedRed_link.mp hyr
    obtain ⟨hyb, hzb⟩ := blackHeight_black.mp hwb
    obtain ⟨hpb, hqb⟩ := blackHeight_red.mp hyb
    refine deleteInv_root (valid_plug.mpr ⟨n + 1 + c.weight, ?_, ?_, hC, ?_⟩)
    · refine noRedRed_link.mpr ⟨fun _ => ⟨link_color _ _ _ _ _, link_color _ _ _ _ _⟩, ?_, ?_⟩
      · exact noRedRed_link.mpr ⟨fun hcon => Color.noConfusion hcon, hr, hpr⟩
      · exact noRedRed_link.mpr ⟨fun hcon => Color.noConfusion hcon, hqr, hzr⟩
    · exact blackHeight_weight.mpr
        ⟨blackHeight_black.mpr ⟨hb, hpb⟩, blackHeight_black.mpr ⟨hqb, hzb⟩⟩
    · rw [link_color]
      exact fun h => (hc h).2
  | outer s c _ b y v z _ hz =>
    obtain ⟨hw, hwb, hc, hC⟩ := hf
    obtain ⟨_, hyr, hzr⟩ := noRedRed_link.mp hw
    obtain ⟨hyb, hzb⟩ := blackHeight_black.mp hwb
    refine deleteInv_root (valid_plug.mpr ⟨n + 1 + c.weight, ?_, ?_, hC, ?_⟩)
    · refine noRedRed_link.mpr ⟨fun _ => ⟨link_color _ _ _ _ _, color_paint_black z⟩, ?_,
        noRedRed_black hzr⟩
      exact noRedRed_link.mpr ⟨fun hcon => Color.noConfusion hcon, hr, hyr⟩
    · exact blackHeight_weight.mpr
        ⟨blackHeight_black.mpr ⟨hb, hyb⟩, blackHeight_blacken hzb hz⟩
    · rw [link_color]
      exact fun h => (hc h).2

lemma delete_step {z z' : Zipper α} (hs : DeleteStep z z') (h : DeleteInv z)
    (hx : z.1.color = .black) : DeleteInv z' := by
  obtain ⟨hr, n, hb, hf⟩ := h
  rw [paint_black_of_black hx] at hr
  cases hs with
  | @black z _ hs =>
    obtain ⟨x, _ | ⟨f, C⟩⟩ := z
    · cases hs
    · exact deleteCase_step hs hr hb (hf (List.cons_ne_nil _ _))
  | red s x b y v z C hs =>
    obtain ⟨hw, hwb, _, hC⟩ := hf (List.cons_ne_nil _ _)
    obtain ⟨hyz, hyr, hzr⟩ := noRedRed_link.mp hw
    obtain ⟨hyb, hzb⟩ := blackHeight_red.mp hwb
    refine deleteCase_step hs hr hb ⟨hyr, hyb, fun _ => ?_, ?_⟩
    · exact ⟨(hyz rfl).1, List.cons_ne_nil _ _, rfl⟩
    · exact ⟨hzr, hzb, fun hcon => Color.noConfusion hcon, hC⟩

lemma deleteCase_decreases {x : ColorTree α} {f : Frame α} {C : Context α} {z' : Zipper α}
    (h : DeleteCase (x, f :: C) z') :
    deleteMeasure z' ≤ if f.color = .red then 0 else C.length := by
  cases h with
  | recolor s c _ b y v z _ hy hz =>
    rw [deleteMeasure, link_color]
  | inner | outer => simp [deleteMeasure]

lemma delete_decreases {z z' : Zipper α} (h : DeleteStep z z') (hx : z.1.color = .black)
    (hC : z.2 ≠ []) : deleteMeasure z' < deleteMeasure z := by
  have hz : deleteMeasure z = z.2.length := by
    rw [deleteMeasure, hx]
    rfl
  rw [hz]
  cases h with
  | @black z _ h =>
    obtain ⟨x, _ | ⟨f, C⟩⟩ := z
    · exact absurd rfl hC
    · have := deleteCase_decreases h
      simp only [List.length_cons]
      split_ifs at this <;> omega
  | red s x b y v z C h =>
    have := deleteCase_decreases h
    simp only [if_true, List.length_cons] at this ⊢
    omega

lemma delete_done {z : Zipper α} (h : DeleteInv z) (hd : z.1.color = .red ∨ z.2 = []) :
    IsRedBlack (plug (z.1.paint .black) z.2) := by
  obtain ⟨x, C⟩ := z
  obtain ⟨hr, n, hb, hf⟩ := h
  cases C with
  | nil =>
    exact ⟨color_paint_black x, hr, exists_blackHeight_blacken hb⟩
  | cons f C =>
    have hx : x.color = .red := hd.resolve_right (List.cons_ne_nil _ _)
    refine valid_plug.mpr ⟨n + 1, hr, blackHeight_blacken hb hx, hf (List.cons_ne_nil _ _), ?_⟩
    exact fun h => absurd (h.symm.trans (color_paint_black x)) (by decide)

lemma delete_init {l x : ColorTree α} {a : α} {s : Side} {C : Context α}
    (h : IsRedBlack (plug (link s .black l a x) C)) : DeleteInv (x, C) := by
  obtain ⟨n, hr, hb, hC, _⟩ := valid_plug.mp h
  obtain ⟨_, _, hx⟩ := noRedRed_link.mp hr
  obtain ⟨m, rfl, _, hxb⟩ := blackHeight_link.mp hb
  exact ⟨noRedRed_black hx, m, hxb, fun _ => hC⟩

lemma delete_red {l x : ColorTree α} {a : α} {s : Side} {C : Context α}
    (h : IsRedBlack (plug (link s .red l a x) C)) : IsRedBlack (plug x C) := by
  obtain ⟨n, hr, hb, hC, _⟩ := valid_plug.mp h
  obtain ⟨hc, _, hx⟩ := noRedRed_link.mp hr
  refine valid_plug.mpr ⟨n, hx, (blackHeight_red.mp hb).2, hC, ?_⟩
  exact fun hcon => absurd (hcon.symm.trans (hc rfl).2) (by decide)

lemma deleteInv_revalue {x : ColorTree α} {f : Frame α} {C D : Context α} (a : α)
    (h : DeleteInv (x, D ++ f :: C)) : DeleteInv (x, D ++ { f with value := a } :: C) := by
  obtain ⟨hr, n, hb, hf⟩ := h
  exact ⟨hr, n, hb, fun _ => (fits_revalue a).mp (hf (by simp))⟩

lemma isRedBlack_revalue {x : ColorTree α} {f : Frame α} {C D : Context α} (a : α)
    (h : IsRedBlack (plug x (D ++ f :: C))) :
    IsRedBlack (plug x (D ++ { f with value := a } :: C)) := by
  obtain ⟨n, hr, hb, hf, hc⟩ := valid_plug.mp h
  refine valid_plug.mpr ⟨n, hr, hb, (fits_revalue a).mp hf, fun hx => ⟨by simp, ?_⟩⟩
  rw [← (hc hx).2]
  cases D <;> rfl

/-- Black heights leave no room for a second child of a red node with one. -/
lemma red_gap {x : ColorTree α} {a : α} {s : Side} {C : Context α}
    (h : IsRedBlack (plug (link s .red .leaf a x) C)) : x = .leaf ∧ C ≠ [] := by
  obtain ⟨n, hr, hb, _, hcon⟩ := valid_plug.mp h
  refine ⟨?_, (hcon (link_color _ _ _ _ _)).1⟩
  obtain ⟨hleaf, hx⟩ := blackHeight_red.mp hb
  obtain rfl : n = 0 := hleaf
  have hc : x.color = .black := ((noRedRed_link.mp hr).1 rfl).2
  cases x with
  | leaf => rfl
  | node d l b r =>
    obtain rfl : d = .black := hc
    obtain ⟨m, hm, _⟩ := hx
    cases hm

end Deletion

section Place

variable {α : Type}

def ColorTree.leftmostColor : ColorTree α → Color
  | leaf => .black
  | node c leaf _ _ => c
  | node _ (node d l b r) _ _ => leftmostColor (node d l b r)

/-- The colour of the place that is given up when the root is deleted: that of the root if it has
at most one child, else that of its successor. -/
def ColorTree.vacated : ColorTree α → Color
  | leaf => .black
  | node c leaf _ _ => c
  | node c (node _ _ _ _) _ leaf => c
  | node _ (node _ _ _ _) _ (node d l b r) => leftmostColor (node d l b r)

lemma leftmostColor_fill {f : Frame α} (hf : f.side = .left) {t : ColorTree α} (ht : t ≠ leaf) :
    leftmostColor (f.fill t) = leftmostColor t := by
  cases t with
  | leaf => exact absurd rfl ht
  | node d l b r =>
    rw [Frame.fill, hf, link, leftmostColor]

lemma leftmostColor_plug {D : Context α} (hD : ∀ f ∈ D, f.side = .left) {t : ColorTree α}
    (ht : t ≠ leaf) : leftmostColor (plug t D) = leftmostColor t := by
  induction D generalizing t with
  | nil => rfl
  | cons f D ih =>
    have hrest := ih (fun g hg => hD g (List.mem_cons_of_mem _ hg)) (link_ne_leaf f.side f.color t
      f.value f.sibling)
    exact hrest.trans (leftmostColor_fill (hD f (by simp)) ht)

lemma vacated_one {s : Side} {c : Color} {a : α} {x : ColorTree α} :
    vacated (link s c leaf a x) = c := by
  cases s
  · rfl
  · cases x <;> rfl

lemma vacated_two {c : Color} {l r : ColorTree α} {a : α} (hl : l ≠ leaf) (hr : r ≠ leaf) :
    vacated (node c l a r) = leftmostColor r := by
  cases l with
  | leaf => exact absurd rfl hl
  | node =>
    cases r with
    | leaf => exact absurd rfl hr
    | node => rfl

end Place

end Xty.General.RedBlack
