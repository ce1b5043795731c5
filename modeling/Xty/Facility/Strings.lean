import Xty.Facility.Numerals
import Xty.General.Separators

/-! The checks on configured strings in `xty_global_function.h`, and the splitting of strings. -/

namespace Xty.Facility

open Xty.General.LittleEndian Xty.General.Decimal Xty.General.Separators

section Checks

def numericStringCheck (s : Bytes) : Bool := s.all fun c => IsDigit c

def ipStringLoop : Bytes → ℕ → ℕ → Bool
  | [], _, dotCount => dotCount = 3
  | c :: s, temp, dotCount =>
    if c ≠ dot ∧ ¬ IsDigit c then false
    else if c = dot then
      let dotCount := (dotCount + 1) % 2 ^ 32
      if 3 < dotCount then false else ipStringLoop s 0 dotCount
    else
      let temp := (temp * 10 + digitValue c) % 2 ^ 32
      if 255 < temp then false else ipStringLoop s temp dotCount

def ipStringCheck (s : Bytes) : Bool := ipStringLoop s 0 0

/-- Four groups of digits between three dots, each of which stands for a number of one byte. A group
without digits stands for zero. -/
def FourGroups (s : Bytes) : Prop :=
  (s.splitOn dot).length = 4 ∧ ∀ g ∈ s.splitOn dot, (∀ c ∈ g, IsDigit c) ∧ value g ≤ 255

def DottedQuad (s : Bytes) : Prop := FourGroups s ∧ ∀ g ∈ s.splitOn dot, g ≠ []

instance (s : Bytes) : Decidable (FourGroups s) := inferInstanceAs (Decidable (_ ∧ _))

instance (s : Bytes) : Decidable (DottedQuad s) := inferInstanceAs (Decidable (_ ∧ _))

variable {s g : Bytes} {temp dotCount : ℕ}

lemma numericStringCheck_iff : numericStringCheck s = true ↔ ∀ c ∈ s, IsDigit c := by
  simp [numericStringCheck]

def GroupsFit (temp dotCount : ℕ) : List Bytes → Prop
  | [] => False
  | g :: gs => gs.length + dotCount = 3 ∧ (∀ c ∈ g, IsDigit c) ∧ valueFrom temp g ≤ 255 ∧
      ∀ h ∈ gs, (∀ c ∈ h, IsDigit c) ∧ value h ≤ 255

lemma ipStringLoop_iff (ht : temp ≤ 255) (hd : dotCount ≤ 3) :
    ipStringLoop s temp dotCount = true ↔ GroupsFit temp dotCount (s.splitOn dot) := by
  induction s generalizing temp dotCount with
  | nil => simp [ipStringLoop, GroupsFit, valueFrom, ht]
  | cons c s ih =>
    obtain ⟨g, gs, hs⟩ := List.exists_cons_of_ne_nil (List.splitOn_ne_nil dot s)
    rw [hs] at ih
    rw [ipStringLoop, List.splitOn_cons_eq_if_modifyHead, hs]
    by_cases hdot : c = dot
    · have hmod : (dotCount + 1) % 2 ^ 32 = dotCount + 1 := Nat.mod_eq_of_lt (by omega)
      simp only [hdot, ne_eq, not_true_eq_false, false_and, if_false, if_true, hmod,
        beq_self_eq_true]
      by_cases hmany : 3 < dotCount + 1
      · rw [if_pos hmany]
        refine iff_of_false (by simp) ?_
        rintro ⟨hlen, _⟩
        rw [List.length_cons] at hlen
        omega
      · rw [if_neg hmany, ih (Nat.zero_le _) (not_lt.mp hmany)]
        simp only [GroupsFit, List.length_cons, List.forall_mem_cons, valueFrom, List.foldl_nil, ht,
          List.not_mem_nil, false_imp_iff, implies_true, true_and, and_assoc]
        rw [Nat.add_right_comm, Nat.add_assoc, value]
        rfl
    · have hbeq : (c == dot) = false := by simpa using hdot
      rw [hbeq, if_neg Bool.false_ne_true, List.modifyHead_cons]
      by_cases hc : IsDigit c
      · have hlt := hc.value_lt
        have hmod : (temp * 10 + digitValue c) % 2 ^ 32 = temp * 10 + digitValue c :=
          Nat.mod_eq_of_lt (by omega)
        have hstep : valueFrom temp (c :: g) = valueFrom (temp * 10 + digitValue c) g := rfl
        rw [if_neg fun h => h.2 hc, if_neg hdot, hmod]
        by_cases hbig : 255 < temp * 10 + digitValue c
        · rw [if_pos hbig]
          refine iff_of_false (by simp) ?_
          rintro ⟨_, _, hval, _⟩
          rw [hstep] at hval
          exact absurd ((le_valueFrom _ g).trans hval) (not_le.mpr hbig)
        · rw [if_neg hbig, ih (not_lt.mp hbig) hd]
          simp only [GroupsFit, hstep, List.forall_mem_cons, hc, true_and]
      · rw [if_pos ⟨hdot, hc⟩]
        refine iff_of_false (by simp) ?_
        rintro ⟨_, hdigits, _⟩
        exact hc (hdigits c List.mem_cons_self)

lemma ipStringCheck_iff : ipStringCheck s = true ↔ FourGroups s := by
  obtain ⟨g, gs, hs⟩ := List.exists_cons_of_ne_nil (List.splitOn_ne_nil dot s)
  rw [ipStringCheck, ipStringLoop_iff (Nat.zero_le _) (Nat.zero_le _), FourGroups, hs]
  simp only [GroupsFit, List.length_cons, Nat.add_zero, Nat.reduceEqDiff, List.forall_mem_cons,
    value, and_assoc]

theorem ip_string_check_iff (s : Bytes) :
    (ipStringCheck s = true ↔ DottedQuad s) ↔ ¬ (FourGroups s ∧ [] ∈ s.splitOn dot) := by
  have hgroups : (∀ g ∈ s.splitOn dot, g ≠ []) ↔ [] ∉ s.splitOn dot :=
    ⟨fun h he => h [] he rfl, fun h g hg he => h (he ▸ hg)⟩
  rw [ipStringCheck_iff, DottedQuad, hgroups]
  tauto

theorem bare_dots_accepted :
    ipStringCheck [dot, dot, dot] = true ∧ ¬ DottedQuad [dot, dot, dot] := by
  decide +kernel

end Checks

section Splitting

/-- The loop at the index `i`, with what is left of the string from there on. -/
def splitLoop (s : Bytes) (c : UInt8) : Bytes → ℕ → ℕ → List Bytes → List Bytes
  | [], _, _, res => res
  | x :: rest, i, pos1, res =>
    if x = c then splitLoop s c rest (i + 1) (i + 1) (res ++ [(s.drop pos1).take (i - pos1)])
    else splitLoop s c rest (i + 1) pos1 res

def splitStringByChar (s : Bytes) (c : UInt8) : List Bytes := splitLoop s c s 0 0 []

structure Lossless (s : Bytes) (c : UInt8) : Prop where
  joined : [c].intercalate (splitStringByChar s c) = s
  separated : ∀ g ∈ splitStringByChar s c, c ∉ g

variable {s : Bytes} {c : UInt8}

lemma splitLoop_eq {rest : Bytes} (done cur : Bytes) (res : List Bytes) (hcur : c ∉ cur)
    (hs : s = done ++ (cur ++ rest)) :
    splitLoop s c rest (done.length + cur.length) done.length res
      = res ++ ((cur ++ rest).splitOn c).dropLast := by
  induction rest generalizing done cur res with
  | nil => simp [splitLoop, List.splitOn_eq_singleton hcur]
  | cons x rest ih =>
    rw [splitLoop]
    by_cases hx : x = c
    · subst hx
      have hseg : (s.drop done.length).take (done.length + cur.length - done.length) = cur := by
        rw [hs, List.drop_left, Nat.add_sub_cancel_left, List.take_left]
      have hnext := ih (done ++ cur ++ [x]) [] (res ++ [cur]) (by simp)
        (by simp [hs])
      simp only [List.length_append, List.length_singleton, List.length_nil, Nat.add_zero,
        List.nil_append] at hnext
      rw [if_pos rfl, hseg, hnext, List.splitOn_append_cons_self_of_not_mem hcur,
        List.dropLast_cons_of_ne_nil (List.splitOn_ne_nil _ _), List.append_assoc,
        List.singleton_append]
    · have hnext := ih done (cur ++ [x]) res (by simp [hcur, Ne.symm hx])
        (by simp [hs])
      rw [List.length_append, List.length_singleton, ← Nat.add_assoc, List.append_assoc,
        List.singleton_append] at hnext
      rw [if_neg hx, hnext]

lemma splitStringByChar_eq (s : Bytes) (c : UInt8) :
    splitStringByChar s c = (s.splitOn c).dropLast :=
  splitLoop_eq [] [] [] (by simp) rfl

/-- The text behind the last separator is not returned, and neither is that of a string without
one. -/
theorem split_lossless_iff (s : Bytes) (c : UInt8) : Lossless s c ↔ s = [] := by
  constructor
  · intro h
    have hjoined := h.joined
    rw [splitStringByChar_eq] at hjoined
    exact intercalate_dropLast_eq_iff.mp hjoined
  · intro hs
    refine ⟨?_, fun g hg => ?_⟩
    · rw [splitStringByChar_eq]
      exact intercalate_dropLast_eq_iff.mpr hs
    · rw [splitStringByChar_eq] at hg
      exact (mem_splitOn (List.mem_of_mem_dropLast hg)).1

theorem unterminated_segment_lost : ¬ Lossless [97, 58, 98] 58 := by
  intro h
  exact absurd h.joined (by decide)

end Splitting

end Xty.Facility
