import Mathlib.Tactic

/-! A heap described exactly by a multiset of cells, so that a change to one cell is a change to
one summand. -/

namespace Xty.General.Heap

variable {A V : Type}

abbrev Cells (A V : Type) := Multiset (A × V)

def cell (a : A) (v : V) : Cells A V := {(a, v)}

structure Describes (h : A → Option V) (M : Cells A V) : Prop where
  nodup : (M.map Prod.fst).Nodup
  holds : ∀ a v, h a = some v ↔ (a, v) ∈ M

namespace Describes

variable {h : A → Option V} {M R : Cells A V} {a : A} {v w : V}

lemma read (hM : Describes h M) (he : M = cell a v + R) : h a = some v := by
  rw [hM.holds, he]
  exact Multiset.mem_add.mpr (Or.inl (Multiset.mem_singleton_self _))

lemma keys_cell (hM : Describes h M) (he : M = cell a v + R) :
    a ∉ R.map Prod.fst ∧ (R.map Prod.fst).Nodup := by
  have hn := hM.nodup
  rw [he, cell, Multiset.singleton_add, Multiset.map_cons, Multiset.nodup_cons] at hn
  exact hn

lemma not_mem (hM : Describes h M) (he : M = cell a v + R) (w : V) : (a, w) ∉ R :=
  fun hmem => (hM.keys_cell he).1 (Multiset.mem_map_of_mem Prod.fst hmem)

variable [DecidableEq A]

lemma write (hM : Describes h M) (he : M = cell a v + R) (w : V) :
    Describes (Function.update h a (some w)) (cell a w + R) where
  nodup := by
    rw [cell, Multiset.singleton_add, Multiset.map_cons, Multiset.nodup_cons]
    exact hM.keys_cell he
  holds b u := by
    rw [cell, Multiset.singleton_add, Multiset.mem_cons, Function.update_apply]
    split_ifs with hb
    · subst hb
      rw [Option.some.injEq, Prod.mk.injEq, or_iff_left (hM.not_mem he u)]
      exact ⟨fun hu => ⟨rfl, hu.symm⟩, fun hu => hu.2.symm⟩
    · rw [hM.holds, he, cell, Multiset.singleton_add, Multiset.mem_cons, Prod.mk.injEq,
        Prod.mk.injEq]
      simp only [hb, false_and]

lemma allocate (hM : Describes h M) (ha : h a = none) (w : V) :
    Describes (Function.update h a (some w)) (cell a w + M) where
  nodup := by
    rw [cell, Multiset.singleton_add, Multiset.map_cons, Multiset.nodup_cons]
    refine ⟨fun hmem => ?_, hM.nodup⟩
    obtain ⟨⟨b, u⟩, hu, rfl⟩ := Multiset.mem_map.mp hmem
    rw [(hM.holds b u).mpr hu] at ha
    cases ha
  holds b u := by
    rw [cell, Multiset.singleton_add, Multiset.mem_cons, Function.update_apply]
    split_ifs with hb
    · subst hb
      rw [← hM.holds, ha, Option.some.injEq, Prod.mk.injEq]
      simp [eq_comm]
    · rw [hM.holds, Prod.mk.injEq]
      simp only [hb, false_and, false_or]

lemma free (hM : Describes h M) (he : M = cell a v + R) :
    Describes (Function.update h a none) R where
  nodup := (hM.keys_cell he).2
  holds b u := by
    rw [Function.update_apply]
    split_ifs with hb
    · subst hb
      exact iff_of_false (by simp) (hM.not_mem he u)
    · rw [hM.holds, he, cell, Multiset.singleton_add, Multiset.mem_cons, Prod.mk.injEq]
      simp only [hb, false_and, false_or]

end Describes

lemma Describes.congr {h : A → Option V} {M N : Cells A V} (hM : Describes h M) (he : M = N) :
    Describes h N := he ▸ hM

lemma Describes.disjoint {h : A → Option V} {M N : Cells A V} {a : A} {v w : V}
    (hM : Describes h (M + N)) (hv : (a, v) ∈ M) : (a, w) ∉ N := by
  intro hw
  have hn := hM.nodup
  rw [Multiset.map_add, Multiset.nodup_add] at hn
  have hm : a ∈ M.map Prod.fst := Multiset.mem_map_of_mem Prod.fst hv
  have hk : a ∈ N.map Prod.fst := Multiset.mem_map_of_mem Prod.fst hw
  exact Multiset.disjoint_left.mp hn.2.2 hm hk

end Xty.General.Heap
