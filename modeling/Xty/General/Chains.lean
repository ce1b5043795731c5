import Mathlib.Tactic

/-! Singly linked chains: the places that a partial `next` leads through up to an end. -/

namespace Xty.General.Chains

variable {A : Type} {next next' : A → Option A} {p q r l : A} {as : List A}

/-- `next` leads from the first place of `as`, which is `p`, to `q`. -/
def Leads (next : A → Option A) (q : A) : A → List A → Prop
  | p, [] => p = q
  | p, a :: as => p = a ∧ ∃ r, next a = some r ∧ Leads next q r as

lemma Leads.frame (h : Leads next q p as) (hn : ∀ x ∈ as, next' x = next x) :
    Leads next' q p as := by
  induction as generalizing p with
  | nil => exact h
  | cons a as ih =>
    obtain ⟨rfl, r, hr, h⟩ := h
    refine ⟨rfl, r, (hn p List.mem_cons_self).trans hr, ?_⟩
    exact ih h fun x hx => hn x (List.mem_cons_of_mem p hx)

lemma Leads.extend (h : Leads next q p (as ++ [l])) (hn : ∀ x ∈ as, next' x = next x)
    (hl : next' l = some r) (hr : next' r = some q) : Leads next' q p (as ++ [l, r]) := by
  induction as generalizing p with
  | nil => exact ⟨h.1, r, hl, rfl, q, hr, rfl⟩
  | cons a as ih =>
    obtain ⟨rfl, s, hs, h⟩ := h
    refine ⟨rfl, s, (hn p List.mem_cons_self).trans hs, ?_⟩
    exact ih h fun x hx => hn x (List.mem_cons_of_mem p hx)

section Replacing

variable {α β : Type} {f : ℕ → Option α} {g : α → β} {q : ℕ} {x y : α}

lemma map_update (hx : f q = some x) (hg : g y = g x) (p : ℕ) :
    (Function.update f q (some y) p).map g = (f p).map g := by
  by_cases hp : p = q
  · rw [hp, Function.update_self, hx, Option.map_some, Option.map_some, hg]
  · rw [Function.update_of_ne hp]

lemma exists_update (hx : f q = some x) (hg : g y = g x) {p : ℕ} {b : β}
    (h : ∃ z, f p = some z ∧ g z = b) :
    ∃ z, Function.update f q (some y) p = some z ∧ g z = b := by
  rwa [← Option.map_eq_some_iff, map_update hx hg, Option.map_eq_some_iff]

end Replacing

end Xty.General.Chains
