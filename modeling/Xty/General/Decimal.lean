import Xty.General.LittleEndian

/-! Decimal numerals as strings of bytes. -/

namespace Xty.General.Decimal

open Xty.General.LittleEndian

def IsDigit (c : UInt8) : Prop := 48 ≤ c.toNat ∧ c.toNat ≤ 57

instance (c : UInt8) : Decidable (IsDigit c) := inferInstanceAs (Decidable (_ ∧ _))

def digit (d : ℕ) : UInt8 := UInt8.ofNat (d + 48)

def digitValue (c : UInt8) : ℕ := c.toNat - 48

def valueFrom (n : ℕ) (s : Bytes) : ℕ := s.foldl (fun n c => n * 10 + digitValue c) n

def value (s : Bytes) : ℕ := valueFrom 0 s

structure Denotes (s : Bytes) (n : ℕ) : Prop where
  nonempty : s ≠ []
  digits : ∀ c ∈ s, IsDigit c
  value : value s = n

/-- The numeral without leading zeros. -/
structure IsNumeral (s : Bytes) (n : ℕ) : Prop extends Denotes s n where
  leading : s.head? = some (digit 0) → s = [digit 0]

variable {s t : Bytes} {n d i : ℕ} {c : UInt8}

lemma digit_toNat (hd : d < 10) : (digit d).toNat = d + 48 := by
  rw [digit, UInt8.toNat_ofNat']
  omega

lemma isDigit_digit (hd : d < 10) : IsDigit (digit d) := by
  rw [IsDigit, digit_toNat hd]
  omega

lemma digitValue_digit (hd : d < 10) : digitValue (digit d) = d := by
  rw [digitValue, digit_toNat hd, Nat.add_sub_cancel]

lemma IsDigit.value_lt (h : IsDigit c) : digitValue c < 10 := by
  rw [digitValue]
  have := h.2
  omega

lemma value_append_singleton (s : Bytes) (c : UInt8) :
    value (s ++ [c]) = value s * 10 + digitValue c := by
  rw [value, valueFrom, List.foldl_append]
  rfl

lemma le_valueFrom (n : ℕ) (s : Bytes) : n ≤ valueFrom n s := by
  induction s generalizing n with
  | nil => exact le_rfl
  | cons c s ih =>
    calc n ≤ n * 10 + digitValue c := by omega
      _ ≤ valueFrom (n * 10 + digitValue c) s := ih _

lemma Denotes.unique {m : ℕ} (h : Denotes s n) (h' : Denotes s m) : n = m :=
  h.value.symm.trans h'.value

lemma isNumeral_digit (hd : d < 10) : IsNumeral [digit d] d where
  nonempty := List.cons_ne_nil _ _
  digits c hc := by
    rw [List.mem_singleton.mp hc]
    exact isDigit_digit hd
  value := by
    rw [← List.nil_append [digit d], value_append_singleton, digitValue_digit hd]
    exact Nat.zero_add d
  leading h := congrArg (· :: []) (Option.some.inj h)

lemma IsNumeral.append_digit (h : IsNumeral s n) (hn : n ≠ 0) (hd : d < 10) :
    IsNumeral (s ++ [digit d]) (n * 10 + d) where
  nonempty := by simp
  digits c hc := by
    rcases List.mem_append.mp hc with hc | hc
    · exact h.digits c hc
    · rw [List.mem_singleton.mp hc]
      exact isDigit_digit hd
  value := by rw [value_append_singleton, h.value, digitValue_digit hd]
  leading hz := by
    rw [List.head?_append_of_ne_nil _ h.nonempty] at hz
    have hval := h.value
    rw [h.leading hz] at hval
    exact absurd hval.symm hn

lemma not_mem_of_digits (h : ∀ c ∈ s, IsDigit c) (hc : ¬ IsDigit c) : c ∉ s :=
  fun hm => hc (h c hm)

end Xty.General.Decimal
