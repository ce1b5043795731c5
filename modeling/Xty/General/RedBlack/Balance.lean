import Xty.General.RedBlack.Tree

/-! The red-black conditions on a tree, and what they demand of a subtree and of its context. -/

namespace Xty.General.RedBlack

open ColorTree

variable {α : Type}

def Color.weight : Color → ℕ
  | red => 0
  | black => 1

def NoRedRed : ColorTree α → Prop
  | .leaf => True
  | .node c l _ r => (c = .red → l.color = .black ∧ r.color = .black) ∧ NoRedRed l ∧ NoRedRed r

def BlackHeight : ColorTree α → ℕ → Prop
  | .leaf, n => n = 0
  | .node c l _ r, n => ∃ m, n = m + c.weight ∧ BlackHeight l m ∧ BlackHeight r m

def IsRedBlack (t : ColorTree α) : Prop := t.color = .black ∧ NoRedRed t ∧ ∃ n, BlackHeight t n

lemma Color.eq_black_of_ne {c : Color} (h : c ≠ .red) : c = .black := by
  cases c
  · exact absurd rfl h
  · rfl

section Link

variable {s : Side} {c : Color} {t u : ColorTree α} {a : α} {n : ℕ}

lemma noRedRed_link : NoRedRed (link s c t a u) ↔
    (c = .red → t.color = .black ∧ u.color = .black) ∧ NoRedRed t ∧ NoRedRed u := by
  cases s
  · rfl
  · simp only [link, NoRedRed]
    tauto

lemma blackHeight_link : BlackHeight (link s c t a u) n ↔
    ∃ m, n = m + c.weight ∧ BlackHeight t m ∧ BlackHeight u m := by
  cases s
  · rfl
  · simp only [link, BlackHeight]
    exact exists_congr fun m => and_congr_right fun _ => and_comm

lemma blackHeight_black : BlackHeight (link s .black t a u) (n + 1) ↔
    BlackHeight t n ∧ BlackHeight u n := by
  rw [blackHeight_link]
  constructor
  · rintro ⟨m, hm, h⟩
    obtain rfl : n = m := by simpa [Color.weight] using hm
    exact h
  · exact fun h => ⟨n, rfl, h⟩

lemma blackHeight_red : BlackHeight (link s .red t a u) n ↔
    BlackHeight t n ∧ BlackHeight u n := by
  rw [blackHeight_link]
  constructor
  · rintro ⟨m, rfl, h⟩
    exact h
  · exact fun h => ⟨n, rfl, h⟩

lemma blackHeight_weight : BlackHeight (link s c t a u) (n + c.weight) ↔
    BlackHeight t n ∧ BlackHeight u n := by
  cases c
  · exact blackHeight_red
  · exact blackHeight_black

end Link

section Paint

variable {t : ColorTree α} {n : ℕ}

lemma noRedRed_black (h : NoRedRed t) : NoRedRed (t.paint .black) := by
  cases t with
  | leaf => exact h
  | node c l a r => exact ⟨fun hc => absurd hc (by decide), h.2⟩

lemma color_paint_black (t : ColorTree α) : (t.paint .black).color = .black := by
  cases t <;> rfl

lemma blackHeight_blacken (h : BlackHeight t n) (hc : t.color = .red) :
    BlackHeight (t.paint .black) (n + 1) := by
  cases t with
  | leaf => cases hc
  | node c l a r =>
    obtain rfl : c = .red := hc
    obtain ⟨m, hm, h⟩ := h
    exact ⟨m, congrArg (· + 1) hm, h⟩

lemma exists_blackHeight_blacken (h : BlackHeight t n) : ∃ m, BlackHeight (t.paint .black) m := by
  cases t with
  | leaf => exact ⟨n, h⟩
  | node c l a r =>
    obtain ⟨m, _, h⟩ := h
    exact ⟨_, m, rfl, h⟩

lemma paint_black_of_black (h : t.color = .black) : t.paint .black = t := by
  rw [← h, paint_color_self]

lemma ne_leaf_of_blackHeight (h : BlackHeight t (n + 1)) : t ≠ .leaf := by
  rintro rfl
  exact absurd h (by simp [BlackHeight])

lemma ne_leaf_of_red (h : t.color = .red) : t ≠ .leaf := by
  rintro rfl
  cases h

end Paint

def parentColor : Context α → Color
  | [] => .black
  | f :: _ => f.color

/-- A hole that expects a subtree of black height `n`. The root above it is black. -/
def Fits : Context α → ℕ → Prop
  | [], _ => True
  | f :: C, n => NoRedRed f.sibling ∧ BlackHeight f.sibling n ∧
      (f.color = .red → f.sibling.color = .black ∧ C ≠ [] ∧ parentColor C = .black) ∧
      Fits C (n + f.color.weight)

def Valid (t : ColorTree α) (C : Context α) : Prop :=
  ∃ n, NoRedRed t ∧ BlackHeight t n ∧ Fits C n ∧
    (t.color = .red → C ≠ [] ∧ parentColor C = .black)

lemma valid_nil {t : ColorTree α} : Valid t [] ↔ IsRedBlack t := by
  constructor
  · rintro ⟨n, hr, hb, _, hc⟩
    exact ⟨Color.eq_black_of_ne fun h => (hc h).1 rfl, hr, n, hb⟩
  · rintro ⟨hc, hr, n, hb⟩
    exact ⟨n, hr, hb, trivial, fun h => absurd (hc.symm.trans h) (by decide)⟩

lemma valid_fill {f : Frame α} {t : ColorTree α} {C : Context α} :
    Valid (f.fill t) C ↔ Valid t (f :: C) := by
  constructor
  · rintro ⟨n, hr, hb, hf, hc⟩
    obtain ⟨hcol, ht, hs⟩ := noRedRed_link.mp hr
    obtain ⟨m, rfl, htb, hsb⟩ := blackHeight_link.mp hb
    rw [Frame.fill, link_color] at hc
    refine ⟨m, ht, htb, ⟨hs, hsb, fun h => ⟨(hcol h).2, hc h⟩, hf⟩, ?_⟩
    intro h
    refine ⟨List.cons_ne_nil _ _, Color.eq_black_of_ne fun hr => ?_⟩
    exact absurd (h.symm.trans (hcol hr).1) (by decide)
  · rintro ⟨n, ht, htb, ⟨hs, hsb, hcol, hf⟩, hc⟩
    refine ⟨n + f.color.weight, noRedRed_link.mpr ⟨?_, ht, hs⟩,
      blackHeight_weight.mpr ⟨htb, hsb⟩, hf, ?_⟩
    · intro h
      refine ⟨Color.eq_black_of_ne fun hr => ?_, (hcol h).1⟩
      exact absurd (h.symm.trans (hc hr).2) (by decide)
    · rw [Frame.fill, link_color]
      exact fun h => (hcol h).2

lemma valid_plug {t : ColorTree α} {C : Context α} : IsRedBlack (plug t C) ↔ Valid t C := by
  induction C generalizing t with
  | nil => exact valid_nil.symm
  | cons f C ih => exact ih.trans valid_fill

lemma fits_revalue {f : Frame α} {C D : Context α} {n : ℕ} (a : α) :
    Fits (D ++ f :: C) n ↔ Fits (D ++ { f with value := a } :: C) n := by
  induction D generalizing n with
  | nil => rfl
  | cons g D ih =>
    have hp : parentColor (D ++ f :: C) = parentColor (D ++ { f with value := a } :: C) := by
      cases D <;> rfl
    simp only [List.cons_append, Fits, hp, ih]
    simp

section Height

lemma height_le {t : ColorTree α} {n : ℕ} (hr : NoRedRed t) (hb : BlackHeight t n) :
    t.height ≤ 2 * n + (1 - t.color.weight) := by
  induction t generalizing n with
  | leaf => exact Nat.zero_le _
  | node c l a r ihl ihr =>
    obtain ⟨hc, hl, hr⟩ := hr
    obtain ⟨m, rfl, hbl, hbr⟩ := hb
    have h₁ := ihl hl hbl
    have h₂ := ihr hr hbr
    cases c with
    | red =>
      rw [(hc rfl).1] at h₁
      rw [(hc rfl).2] at h₂
      simp only [height, color, Color.weight] at h₁ h₂ ⊢
      omega
    | black =>
      have hl : l.color.weight ≤ 1 := by cases l.color <;> decide
      have hr : r.color.weight ≤ 1 := by cases r.color <;> decide
      simp only [height, color, Color.weight]
      omega

lemma pow_le_size {t : ColorTree α} {n : ℕ} (hb : BlackHeight t n) : 2 ^ n ≤ t.size + 1 := by
  induction t generalizing n with
  | leaf =>
    obtain rfl : n = 0 := hb
    simp
  | node c l a r ihl ihr =>
    obtain ⟨m, rfl, hbl, hbr⟩ := hb
    have h₁ := ihl hbl
    have h₂ := ihr hbr
    cases c <;> simp only [Color.weight, size, pow_succ, Nat.add_zero] <;> omega

lemma IsRedBlack.height_le_log {t : ColorTree α} (h : IsRedBlack t) :
    t.height ≤ 2 * Nat.log 2 (t.size + 1) := by
  obtain ⟨hc, hr, n, hb⟩ := h
  have hh := height_le hr hb
  have hn : n ≤ Nat.log 2 (t.size + 1) := Nat.le_log_of_pow_le (by decide) (pow_le_size hb)
  rw [hc] at hh
  simp only [Color.weight] at hh
  omega

end Height

end Xty.General.RedBlack
