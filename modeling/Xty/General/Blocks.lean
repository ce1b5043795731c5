import Mathlib.Tactic

/-! Ranges of addresses, and addresses rounded to a power of two. -/

namespace Xty.General.Blocks

/-- The addresses from `start` up to, but not including, `stop`. -/
structure Block where
  start : ℕ
  stop : ℕ
deriving DecidableEq, Repr

namespace Block

def Apart (a b : Block) : Prop := a.stop ≤ b.start ∨ b.stop ≤ a.start

def Within (a b : Block) : Prop := b.start ≤ a.start ∧ a.stop ≤ b.stop

variable {a b c d : Block}

instance : Decidable (a.Apart b) := inferInstanceAs (Decidable (_ ∨ _))

lemma Apart.symm (h : a.Apart b) : b.Apart a := Or.symm h

lemma Apart.mono (h : c.Apart d) (ha : a.Within c) (hb : b.Within d) : a.Apart b := by
  rcases h with h | h
  · exact Or.inl (ha.2.trans (h.trans hb.1))
  · exact Or.inr (hb.2.trans (h.trans ha.1))

lemma starts_nodup {L : List Block} (h : L.Pairwise Block.Apart)
    (hpos : ∀ b ∈ L, b.start < b.stop) : (L.map Block.start).Nodup := by
  rw [List.Nodup, List.pairwise_map]
  refine h.imp_of_mem fun {b c} hb hc hap he => ?_
  have hb := hpos b hb
  have hc := hpos c hc
  rcases hap with hap | hap <;> omega

end Block

section Rounding

variable {a m n : ℕ}

def roundUp (a n : ℕ) : ℕ := (n + (a - 1)) / a * a

lemma le_roundUp (ha : 0 < a) : n ≤ roundUp a n := by
  have h := Nat.lt_div_mul_add ha (a := n + (a - 1))
  rw [roundUp]
  omega

lemma dvd_roundUp : a ∣ roundUp a n := Dvd.intro_left _ rfl

lemma roundUp_le (ha : 0 < a) (hm : a ∣ m) (h : n ≤ m) : roundUp a n ≤ m := by
  obtain ⟨k, rfl⟩ := hm
  have hk : (n + (a - 1)) / a ≤ k := by
    rw [Nat.div_le_iff_le_mul_add_pred ha]
    omega
  rw [roundUp, Nat.mul_comm a k]
  exact Nat.mul_le_mul_right a hk

lemma and_mask {k w : ℕ} (hk : k ≤ w) (hn : n < 2 ^ w) :
    n &&& (2 ^ w - 2 ^ k) = n / 2 ^ k * 2 ^ k := by
  have hmask : 2 ^ w - 2 ^ k = 2 ^ k * (2 ^ (w - k) - 1) := by
    rw [Nat.mul_sub, ← pow_add, Nat.add_sub_cancel' hk, Nat.mul_one]
  refine Nat.eq_of_testBit_eq fun i => ?_
  rw [hmask, Nat.testBit_and, Nat.testBit_two_pow_mul, Nat.testBit_two_pow_sub_one, Nat.mul_comm,
    Nat.testBit_two_pow_mul, Nat.testBit_div_two_pow]
  by_cases hik : k ≤ i
  · rw [Nat.sub_add_cancel hik]
    by_cases hiw : i < w
    · simp [hik]
      omega
    · have hbit : n.testBit i = false :=
        Nat.testBit_lt_two_pow (hn.trans_le (Nat.pow_le_pow_right two_pos (not_lt.mp hiw)))
      simp [hbit]
  · simp [hik]

end Rounding

end Xty.General.Blocks
