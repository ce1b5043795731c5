import Mathlib.Tactic

/-! How many threads are at a point of their program. -/

namespace Xty.General.Counting

lemma update_ne {ι π : Type} [DecidableEq ι] {pc : ι → π} {i : ι} {c b : π}
    (h : ∀ j, pc j ≠ c) (hb : b ≠ c) (j : ι) : Function.update pc i b j ≠ c := by
  by_cases hj : j = i
  · rwa [hj, Function.update_self]
  · rw [Function.update_of_ne hj]
    exact h j

lemma sum_update {ι π : Type} [Fintype ι] [DecidableEq ι] (w : π → ℕ) (pc : ι → π) (i : ι)
    (b : π) : ∑ j, w (Function.update pc i b j) + w (pc i) = ∑ j, w (pc j) + w b := by
  have hrest : ∑ j ∈ Finset.univ.erase i, w (Function.update pc i b j)
      = ∑ j ∈ Finset.univ.erase i, w (pc j) := by
    refine Finset.sum_congr rfl fun j hj => ?_
    rw [Function.update_of_ne (Finset.ne_of_mem_erase hj)]
  rw [← Finset.add_sum_erase _ _ (Finset.mem_univ i), hrest,
    ← Finset.add_sum_erase _ (fun j => w (pc j)) (Finset.mem_univ i), Function.update_self]
  omega

variable {ι π : Type} [Fintype ι] [DecidableEq π]

def count (c : π) (pc : ι → π) : ℕ := ∑ i, if pc i = c then 1 else 0

lemma count_pos {c : π} {pc : ι → π} {i : ι} (h : pc i = c) : 0 < count c pc := by
  refine Finset.sum_pos' (fun _ _ => Nat.zero_le _) ⟨i, Finset.mem_univ i, ?_⟩
  rw [if_pos h]
  exact Nat.one_pos

lemma count_eq_zero {c : π} {pc : ι → π} (h : ∀ i, pc i ≠ c) : count c pc = 0 :=
  Finset.sum_eq_zero fun i _ => if_neg (h i)

lemma exists_of_count_pos {c : π} {pc : ι → π} (h : 0 < count c pc) : ∃ i, pc i = c := by
  by_contra hn
  rw [count_eq_zero (not_exists.mp hn)] at h
  exact lt_irrefl 0 h

variable [DecidableEq ι]

lemma count_update (c b : π) (pc : ι → π) (i : ι) :
    count c (Function.update pc i b) + (if pc i = c then 1 else 0)
      = count c pc + if b = c then 1 else 0 :=
  sum_update (fun a => if a = c then 1 else 0) pc i b

section Moves

variable {pc : ι → π} {i : ι} {c a b : π}

lemma count_enter (ha : pc i ≠ c) : count c (Function.update pc i c) = count c pc + 1 := by
  have h := count_update c c pc i
  rwa [if_neg ha, if_pos rfl] at h

lemma count_leave (ha : pc i = c) (hb : b ≠ c) :
    count c (Function.update pc i b) + 1 = count c pc := by
  have h := count_update c b pc i
  rwa [if_pos ha, if_neg hb] at h

lemma count_elsewhere (ha : pc i ≠ c) (hb : b ≠ c) :
    count c (Function.update pc i b) = count c pc := by
  have h := count_update c b pc i
  rwa [if_neg ha, if_neg hb] at h

end Moves

end Xty.General.Counting
