import Mathlib.Tactic

/-! Record locks on a file: the ranges that each process has, which no other process can get. -/

namespace Xty.General.RecordLocks

/-- The bytes from `start` up to `stop`, or all from `start` on. -/
structure Range where
  start : ℕ
  stop : Option ℕ
deriving DecidableEq, Repr

abbrev Locks (π : Type) := π → List Range

/-- There is a byte of the range at `n` or behind it. -/
def Range.reaches (r : Range) (n : ℕ) : Bool := r.stop.all fun b => n < b

/-- What is left of the range when everything from `m` on is taken away. -/
def Range.below (m : ℕ) (r : Range) : Option Range :=
  if r.start < m then some ⟨r.start, some (r.stop.elim m (min m))⟩ else none

def Range.Settled (r : Range) (m : ℕ) : Prop := ∃ b, r.stop = some b ∧ r.start < b ∧ b ≤ m

section Ranges

variable {r r' : Range} {m n : ℕ}

lemma Range.Settled.mono (h : r.Settled m) (hmn : m ≤ n) : r.Settled n := by
  obtain ⟨b, hb, hstart, hle⟩ := h
  exact ⟨b, hb, hstart, hle.trans hmn⟩

lemma Range.Settled.not_reaches (h : r.Settled m) : r.reaches m = false := by
  obtain ⟨b, hb, _, hle⟩ := h
  simp [reaches, hb, hle]

lemma Range.Settled.below (h : r.Settled m) : r.below m = some r := by
  obtain ⟨b, hb, hstart, hle⟩ := h
  cases r
  simp only at hb hstart
  simp [Range.below, hb, hstart.trans_le hle, hle]

lemma Range.below_settled (h : r.below m = some r') (hr : ∀ b ∈ r.stop, r.start < b) :
    r'.Settled m := by
  rw [Range.below] at h
  split_ifs at h with hm
  obtain rfl := Option.some.inj h
  refine ⟨_, rfl, ?_, ?_⟩
  · cases hs : r.stop with
    | none => exact hm
    | some b => exact lt_min hm (hr b hs)
  · cases hs : r.stop with
    | none => exact le_rfl
    | some b => exact min_le_left _ _

end Ranges

section Locks

variable {π : Type}

def Conflict (L : Locks π) (p : π) (n : ℕ) : Prop :=
  ∃ q, q ≠ p ∧ ∃ r ∈ L q, r.reaches n = true

instance [DecidableEq π] [Fintype π] (L : Locks π) (p : π) (n : ℕ) : Decidable (Conflict L p n) :=
  inferInstanceAs (Decidable (∃ _, _ ∧ ∃ r ∈ _, _))

variable [DecidableEq π]

def lockFrom (L : Locks π) (p : π) (n : ℕ) : Locks π :=
  Function.update L p (⟨n, none⟩ :: L p)

def unLockFrom (L : Locks π) (p : π) (m : ℕ) : Locks π :=
  Function.update L p ((L p).filterMap (Range.below m))

def release (L : Locks π) (p : π) : Locks π := Function.update L p []

end Locks

end Xty.General.RecordLocks
