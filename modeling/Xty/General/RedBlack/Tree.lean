import Mathlib.Tactic

/-! Coloured binary trees with a zipper. A side and its mirror image are treated alike. -/

namespace Xty.General.RedBlack

inductive Color where
  | red
  | black
deriving DecidableEq, Repr

inductive Side where
  | left
  | right
deriving DecidableEq, Repr

def Side.other : Side → Side
  | left => right
  | right => left

@[simp] lemma Side.other_other (s : Side) : s.other.other = s := by cases s <;> rfl

lemma Side.eq_other_of_ne {s t : Side} (h : s ≠ t) : s = t.other := by
  cases s <;> cases t <;> first | rfl | exact absurd rfl h

inductive ColorTree (α : Type) where
  | leaf
  | node (color : Color) (left : ColorTree α) (value : α) (right : ColorTree α)
deriving Repr

namespace ColorTree

variable {α : Type}

def color : ColorTree α → Color
  | leaf => .black
  | node c _ _ _ => c

def inorder : ColorTree α → List α
  | leaf => []
  | node _ l a r => inorder l ++ a :: inorder r

def size : ColorTree α → ℕ
  | leaf => 0
  | node _ l _ r => size l + size r + 1

def height : ColorTree α → ℕ
  | leaf => 0
  | node _ l _ r => max (height l) (height r) + 1

def paint (c : Color) : ColorTree α → ColorTree α
  | leaf => leaf
  | node _ l a r => node c l a r

def child : Side → ColorTree α → ColorTree α
  | _, leaf => leaf
  | .left, node _ l _ _ => l
  | .right, node _ _ _ r => r

/-- The node whose child on side `s` is `near`. -/
def link (s : Side) (c : Color) (near : ColorTree α) (a : α) (far : ColorTree α) : ColorTree α :=
  match s with
  | .left => node c near a far
  | .right => node c far a near

lemma link_children (s : Side) (c : Color) (l : ColorTree α) (a : α) (r : ColorTree α) :
    link s c ((node c l a r).child s) a ((node c l a r).child s.other) = node c l a r := by
  cases s <;> rfl

lemma exists_link (s : Side) {t : ColorTree α} (ht : t ≠ leaf) :
    ∃ near a far, t = link s t.color near a far := by
  cases t with
  | leaf => exact absurd rfl ht
  | node c l a r => exact ⟨_, a, _, (link_children s c l a r).symm⟩

lemma link_other (s : Side) (c : Color) (near : ColorTree α) (a : α) (far : ColorTree α) :
    link s.other c near a far = link s c far a near := by
  cases s <;> rfl

@[simp] lemma link_color (s : Side) (c : Color) (near : ColorTree α) (a : α) (far : ColorTree α) :
    (link s c near a far).color = c := by
  cases s <;> rfl

@[simp] lemma paint_link (s : Side) (c d : Color) (near : ColorTree α) (a : α) (far : ColorTree α) :
    (link s c near a far).paint d = link s d near a far := by
  cases s <;> rfl

lemma link_ne_leaf (s : Side) (c : Color) (near : ColorTree α) (a : α) (far : ColorTree α) :
    link s c near a far ≠ leaf := by
  cases s <;> simp [link]

@[simp] lemma inorder_paint (c : Color) (t : ColorTree α) : (t.paint c).inorder = t.inorder := by
  cases t <;> rfl

lemma paint_color_self (t : ColorTree α) : t.paint t.color = t := by
  cases t <;> rfl

lemma length_inorder (t : ColorTree α) : t.inorder.length = t.size := by
  induction t with
  | leaf => rfl
  | node c l a r ihl ihr =>
    simp only [inorder, List.length_append, List.length_cons, ihl, ihr, size]
    omega

lemma height_le_size (t : ColorTree α) : t.height ≤ t.size := by
  induction t with
  | leaf => exact le_rfl
  | node c l a r ihl ihr =>
    rw [height, size]
    omega

lemma inorder_rotate (s : Side) (c d c' d' : Color) (x y z : ColorTree α) (a b : α) :
    (link s c x a (link s d y b z)).inorder
      = (link s c' (link s d' x a y) b z).inorder := by
  cases s <;> simp [link, inorder]

lemma inorder_recolor (s : Side) (c c' : Color) (x y x' y' : ColorTree α) (a : α)
    (hx : x.inorder = x'.inorder) (hy : y.inorder = y'.inorder) :
    (link s c x a y).inorder = (link s c' x' a y').inorder := by
  cases s <;> simp [link, inorder, hx, hy]

end ColorTree

structure Frame (α : Type) where
  side : Side
  color : Color
  value : α
  sibling : ColorTree α

abbrev Context (α : Type) := List (Frame α)

section Zipper

variable {α : Type}

def Frame.fill (f : Frame α) (t : ColorTree α) : ColorTree α :=
  ColorTree.link f.side f.color t f.value f.sibling

def plug : ColorTree α → Context α → ColorTree α
  | t, [] => t
  | t, f :: C => plug (f.fill t) C

def Frame.before (f : Frame α) : List α :=
  match f.side with
  | .left => []
  | .right => f.sibling.inorder ++ [f.value]

def Frame.after (f : Frame α) : List α :=
  match f.side with
  | .left => f.value :: f.sibling.inorder
  | .right => []

def before : Context α → List α
  | [] => []
  | f :: C => before C ++ f.before

def after : Context α → List α
  | [] => []
  | f :: C => f.after ++ after C

lemma Frame.inorder_fill (f : Frame α) (t : ColorTree α) :
    (f.fill t).inorder = f.before ++ t.inorder ++ f.after := by
  rcases f with ⟨s, c, a, u⟩
  cases s <;> simp [fill, before, after, ColorTree.link, ColorTree.inorder]

lemma inorder_plug (t : ColorTree α) (C : Context α) :
    (plug t C).inorder = before C ++ t.inorder ++ after C := by
  induction C generalizing t with
  | nil => simp [plug, before, after]
  | cons f C ih => simp [plug, before, after, ih, Frame.inorder_fill]

lemma plug_append (t : ColorTree α) (C D : Context α) : plug t (C ++ D) = plug (plug t C) D := by
  induction C generalizing t with
  | nil => rfl
  | cons f C ih => exact ih _

lemma value_mem_plug (t : ColorTree α) (f : Frame α) (C : Context α) :
    f.value ∈ (plug t (f :: C)).inorder := by
  rw [plug, inorder_plug, Frame.inorder_fill]
  rcases f with ⟨_ | _, _, v, u⟩ <;> simp [Frame.before, Frame.after]

lemma inorder_plug_congr {t u : ColorTree α} (h : t.inorder = u.inorder) (C : Context α) :
    (plug t C).inorder = (plug u C).inorder := by
  rw [inorder_plug, inorder_plug, h]

lemma plug_ne_leaf {t : ColorTree α} (ht : t ≠ .leaf) (C : Context α) : plug t C ≠ .leaf := by
  induction C generalizing t with
  | nil => exact ht
  | cons f C ih => exact ih (ColorTree.link_ne_leaf _ _ _ _ _)

lemma length_le_size (t : ColorTree α) (C : Context α) : C.length ≤ (plug t C).size := by
  induction C generalizing t with
  | nil => exact Nat.zero_le _
  | cons f C ih =>
    rw [← ColorTree.length_inorder, plug, inorder_plug, Frame.inorder_fill]
    have hf : 1 ≤ (f.before ++ f.after).length := by
      rcases f with ⟨s, c, a, u⟩
      cases s <;> simp [Frame.before, Frame.after]
    have hC : C.length ≤ (before C ++ after C).length := by
      have := ih ColorTree.leaf
      rw [← ColorTree.length_inorder, inorder_plug] at this
      simpa [ColorTree.inorder] using this
    simp only [List.length_append, List.length_cons] at hf hC ⊢
    omega

lemma size_plug (t : ColorTree α) (C : Context α) :
    (plug t C).size = t.size + (plug .leaf C).size := by
  simp only [← ColorTree.length_inorder, inorder_plug, ColorTree.inorder, List.length_append,
    List.length_nil]
  omega

lemma length_lt_size {t : ColorTree α} (ht : t ≠ .leaf) (C : Context α) :
    C.length < (plug t C).size := by
  have hlen := length_le_size .leaf C
  have hpos : 0 < t.size := by
    cases t with
    | leaf => exact absurd rfl ht
    | node c l a r => simp [ColorTree.size]
  rw [size_plug]
  omega

end Zipper

end Xty.General.RedBlack
