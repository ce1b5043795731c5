import Xty.General.Decimal

/-! The decimal strings of `xty_global_function.h`. -/

namespace Xty.Facility

open Xty.General.LittleEndian Xty.General.Decimal

def dot : UInt8 := 46

def uint16StrLen : ℕ := 8
def uint32StrLen : ℕ := 16

/-- The digits go into the buffer from its end, until nothing is left of the number. -/
def digitLoop : ℕ → ℕ → Bytes → Bytes
  | 0, _, str => str
  | i + 1, n, str =>
    let str := UInt8.ofNat (n % 10 + 48) :: str
    if n / 10 = 0 then str else digitLoop i (n / 10) str

def uint16ToString (n : UInt16) : Bytes := digitLoop (uint16StrLen - 1) n.toNat []
def uint32ToString (n : UInt32) : Bytes := digitLoop (uint32StrLen - 1) n.toNat []

example : uint16ToString 65535 = [54, 53, 53, 51, 53] := by decide

section Buffers

/-- The same loop over the buffer itself: the digits are written from the index below `i` down. It
yields nothing when it writes outside; without a `break` the start position stays 0. -/
def printLoop : ℕ → ℕ → Bytes → Option (Bytes × ℕ)
  | 0, _, str => some (str, 0)
  | i + 1, n, str =>
    if i < str.length then
      let str := str.set i (digit (n % 10))
      if n / 10 = 0 then some (str, i) else printLoop i (n / 10) str
    else none

/-- The characters up to the zero that ends the string, which has to be in the buffer. -/
def cString : Bytes → Option Bytes
  | [] => none
  | c :: cs => if c = 0 then some [] else (cString cs).map (c :: ·)

def printUint (len n : ℕ) : Option Bytes := do
  let (str, startPos) ← printLoop (len - 1) n (List.replicate len 0)
  cString (str.drop startPos)

def printUint16 (n : UInt16) : Option Bytes := printUint uint16StrLen n.toNat
def printUint32 (n : UInt32) : Option Bytes := printUint uint32StrLen n.toNat

-- A `char` above 127 is negative.
def charValue (c : UInt8) : ℤ := c.toInt8.toInt

/-- The accumulation in an unsigned type of `m` values. -/
def stringToUint (m : ℕ) (s : Bytes) : ℕ :=
  s.foldl (fun res c => (((res * 10 % m : ℕ) + (charValue c - 48)) % m).toNat) 0

def stringToUint16 (s : Bytes) : UInt16 := UInt16.ofNat (stringToUint (2 ^ 16) s)
def stringToUint32 (s : Bytes) : UInt32 := UInt32.ofNat (stringToUint (2 ^ 32) s)

end Buffers

section Printing

variable {i n : ℕ} {str : Bytes}

lemma div_lt_pow (hn : n < 10 ^ (i + 1)) (hq : n / 10 ≠ 0) : n / 10 < 10 ^ i ∧ 0 < i := by
  have hpow : n / 10 < 10 ^ i := by
    rw [pow_succ] at hn
    omega
  refine ⟨hpow, Nat.pos_of_ne_zero fun h => ?_⟩
  rw [h] at hpow
  omega

lemma digitLoop_spec (hi : 0 < i) (hn : n < 10 ^ i) :
    ∃ s, IsNumeral s n ∧ ∀ str, digitLoop i n str = s ++ str := by
  induction i generalizing n with
  | zero => exact absurd hi (lt_irrefl 0)
  | succ i ih =>
    have hd : n % 10 < 10 := Nat.mod_lt _ (by decide)
    by_cases hq : n / 10 = 0
    · have hs : n % 10 = n := by omega
      refine ⟨[digit n], isNumeral_digit (hs ▸ hd), fun str => ?_⟩
      rw [digitLoop, if_pos hq, hs]
      rfl
    · obtain ⟨hpow, hpos⟩ := div_lt_pow hn hq
      obtain ⟨s, hnum, hs⟩ := ih hpos hpow
      refine ⟨s ++ [digit (n % 10)], ?_, fun str => ?_⟩
      · have happ := hnum.append_digit hq hd
        rwa [Nat.div_add_mod' n 10] at happ
      · rw [digitLoop, if_neg hq, List.append_assoc, List.singleton_append]
        exact hs _

lemma printLoop_spec (str : Bytes) (hi : i ≤ str.length) (hn : n < 10 ^ i) (hpos : 0 < i) :
    ∃ str' startPos, printLoop i n str = some (str', startPos) ∧
      str'.drop startPos = digitLoop i n (str.drop i) := by
  induction i generalizing n str with
  | zero => exact absurd hpos (lt_irrefl 0)
  | succ i ih =>
    have hlt : i < str.length := hi
    have hdrop : (str.set i (digit (n % 10))).drop i = digit (n % 10) :: str.drop (i + 1) := by
      rw [List.drop_set, if_neg (lt_irrefl i), Nat.sub_self, List.drop_eq_getElem_cons hlt,
        List.set_cons_zero]
    rw [printLoop, digitLoop, if_pos hlt]
    by_cases hq : n / 10 = 0
    · rw [if_pos hq, if_pos hq]
      exact ⟨_, _, rfl, hdrop⟩
    · rw [if_neg hq, if_neg hq]
      obtain ⟨hpow, hpos⟩ := div_lt_pow hn hq
      obtain ⟨str', startPos, hrun, hs⟩ := ih (str.set i (digit (n % 10)))
        (by rw [List.length_set]; exact Nat.le_of_succ_le hi) hpow hpos
      rw [hdrop] at hs
      exact ⟨str', startPos, hrun, hs⟩

lemma cString_append {s : Bytes} (hz : 0 ∉ s) (t : Bytes) : cString (s ++ 0 :: t) = some s := by
  induction s with
  | nil => rfl
  | cons c s ih =>
    obtain ⟨hc, hz⟩ := List.ne_and_not_mem_of_not_mem_cons hz
    rw [List.cons_append, cString, if_neg (Ne.symm hc), ih hz]
    rfl

lemma printUint_spec {len : ℕ} (hlen : 1 < len) (hn : n < 10 ^ (len - 1)) :
    printUint len n = some (digitLoop (len - 1) n []) ∧
      IsNumeral (digitLoop (len - 1) n []) n := by
  have hpos : 0 < len - 1 := by omega
  obtain ⟨s, hnum, hs⟩ := digitLoop_spec hpos hn
  obtain ⟨str, startPos, hrun, hstr⟩ := printLoop_spec (List.replicate len 0)
    (by rw [List.length_replicate]; exact Nat.sub_le _ _) hn hpos
  -- one zero of the buffer is left behind the digits
  have hzero : (List.replicate len (0 : UInt8)).drop (len - 1) = [0] := by
    rw [List.drop_replicate, show len - (len - 1) = 1 by omega]
    rfl
  rw [hzero, hs] at hstr
  rw [hs, List.append_nil, printUint, hrun]
  refine ⟨?_, hnum⟩
  change cString (str.drop startPos) = some s
  rw [hstr, cString_append (not_mem_of_digits hnum.digits (by decide))]

end Printing

section Reading

variable {m n : ℕ} {s : Bytes} {c : UInt8}

lemma charValue_of_digit (hc : IsDigit c) : charValue c = c.toNat := by
  have hle : c.toNat ≤ 57 := hc.2
  exact BitVec.toInt_eq_toNat_of_lt (x := c.toBitVec) (by rw [UInt8.toNat_toBitVec]; omega)

lemma accumulate_eq (hs : ∀ c ∈ s, IsDigit c) (n : ℕ) :
    s.foldl (fun res c => (((res * 10 % m : ℕ) + (charValue c - 48)) % m).toNat) (n % m)
      = valueFrom n s % m := by
  induction s generalizing n with
  | nil => rfl
  | cons c s ih =>
    obtain ⟨hc, hs⟩ := List.forall_mem_cons.mp hs
    have hstep : (((n % m * 10 % m : ℕ) + (charValue c - 48)) % (m : ℤ)).toNat
        = (n * 10 + digitValue c) % m := by
      have hv : charValue c - 48 = (digitValue c : ℤ) := by
        rw [charValue_of_digit hc, digitValue, Nat.cast_sub hc.1]
        rfl
      rw [hv, ← Nat.cast_add, ← Int.natCast_mod, Int.toNat_natCast, Nat.mod_mul_mod,
        Nat.mod_add_mod]
    rw [List.foldl_cons, hstep, ih hs]
    rfl

lemma stringToUint_eq (hs : ∀ c ∈ s, IsDigit c) :
    stringToUint m s = value s % m := by
  have h := accumulate_eq (m := m) hs 0
  rwa [Nat.zero_mod] at h

end Reading

section Conversions

lemma printUint16_spec (n : UInt16) :
    printUint16 n = some (uint16ToString n) ∧ IsNumeral (uint16ToString n) n.toNat :=
  printUint_spec (by decide) (n.toNat_lt.trans (by decide))

lemma printUint32_spec (n : UInt32) :
    printUint32 n = some (uint32ToString n) ∧ IsNumeral (uint32ToString n) n.toNat :=
  printUint_spec (by decide) (n.toNat_lt.trans (by decide))

lemma stringToUint16_toNat {s : Bytes} (hs : ∀ c ∈ s, IsDigit c) :
    (stringToUint16 s).toNat = value s % 2 ^ 16 := by
  rw [stringToUint16, stringToUint_eq hs, UInt16.toNat_ofNat', Nat.mod_mod]

lemma stringToUint32_toNat {s : Bytes} (hs : ∀ c ∈ s, IsDigit c) :
    (stringToUint32 s).toNat = value s % 2 ^ 32 := by
  rw [stringToUint32, stringToUint_eq hs, UInt32.toNat_ofNat', Nat.mod_mod]

lemma stringToUint16_of_denotes {s : Bytes} {n : UInt16} (h : Denotes s n.toNat) :
    stringToUint16 s = n := by
  rw [← UInt16.toNat_inj, stringToUint16_toNat h.digits, h.value, Nat.mod_eq_of_lt n.toNat_lt]

lemma stringToUint32_of_denotes {s : Bytes} {n : UInt32} (h : Denotes s n.toNat) :
    stringToUint32 s = n := by
  rw [← UInt32.toNat_inj, stringToUint32_toNat h.digits, h.value, Nat.mod_eq_of_lt n.toNat_lt]

lemma uint16ToString_injective : Function.Injective uint16ToString := by
  intro n m h
  have hn := (printUint16_spec n).2.toDenotes
  rw [h] at hn
  exact UInt16.toNat_inj.mp (hn.unique (printUint16_spec m).2.toDenotes)

end Conversions

end Xty.Facility
