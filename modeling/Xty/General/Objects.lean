import Mathlib.Data.List.GetD
import Xty.General.Programs

/-! Storage in which objects are constructed and destructed by hand, with a ledger of both. -/

namespace Xty.General.Objects

open Xty.General.Programs

structure Address where
  block : ℕ
  index : ℕ
deriving DecidableEq, Repr

/-- Objects are numbered in the order of their construction. -/
structure Object (T : Type) where
  value : T
  serial : ℕ

/-- Blocks are numbered in the order of their allocation, and `room` says how many objects fit into
each of them. -/
structure Storage (T : Type) where
  slots : Address → Option (Object T)
  room : List ℕ
  constructed : ℕ
  destructed : List ℕ

abbrev StorageProgram (T α : Type) := Program (Storage T) α

variable {T : Type}

section Primitives

def empty : Storage T := ⟨fun _ => none, [], 0, []⟩

def newBlock (n : ℕ) : StorageProgram T ℕ := fun S =>
  some (S.room.length, { S with room := S.room ++ [n] })

def load (a : Address) : StorageProgram T T := fun S => (S.slots a).map fun o => (o.value, S)

def store (a : Address) (v : T) : StorageProgram T Unit := fun S =>
  (S.slots a).map fun o => ((), { S with
    slots := Function.update S.slots a (some { o with value := v }) })

/-- No object is constructed outside of a block or over one that lives. -/
def construct (a : Address) (v : T) : StorageProgram T Unit := fun S =>
  if a.index < S.room.getD a.block 0 ∧ (S.slots a).isNone then
    some ((), { S with
      slots := Function.update S.slots a (some ⟨v, S.constructed⟩)
      constructed := S.constructed + 1 })
  else none

def destruct (a : Address) : StorageProgram T Unit := fun S =>
  (S.slots a).map fun o => ((), { S with
    slots := Function.update S.slots a none
    destructed := S.destructed ++ [o.serial] })

end Primitives

section Accounts

structure Ledger (S : Storage T) : Prop where
  inside : ∀ a o, S.slots a = some o → a.index < S.room.getD a.block 0
  accounted : ∀ n, n < S.constructed ↔
    n ∈ S.destructed ∨ ∃ a o, S.slots a = some o ∧ o.serial = n
  living : ∀ a o, S.slots a = some o → o.serial ∉ S.destructed
  distinct : ∀ a b o o', S.slots a = some o → S.slots b = some o' → o.serial = o'.serial → a = b
  nodup : S.destructed.Nodup

def Balanced (S : Storage T) : Prop := ∀ n < S.constructed, S.destructed.count n = 1

variable {S : Storage T} {α : Type}

lemma Ledger.balanced_iff (h : Ledger S) : Balanced S ↔ ∀ a, S.slots a = none := by
  constructor
  · intro hb a
    rw [Option.eq_none_iff_forall_ne_some]
    intro o ho
    have hcount := hb o.serial ((h.accounted _).mpr (Or.inr ⟨a, o, ho, rfl⟩))
    rw [List.count_eq_zero_of_not_mem (h.living a o ho)] at hcount
    cases hcount
  · intro hnone n hn
    obtain hd | ⟨a, o, ho, _⟩ := (h.accounted n).mp hn
    · exact List.count_eq_one_of_mem h.nodup hd
    · rw [hnone a] at ho
      cases ho

lemma ledger_empty : Ledger (empty : Storage T) :=
  ⟨fun _ _ h => (by cases h), fun n => by simp [empty], fun _ _ h => (by cases h),
    fun _ _ _ _ h => (by cases h), List.nodup_nil⟩

lemma Ledger.fresh (h : Ledger S) (i : ℕ) : S.slots ⟨S.room.length, i⟩ = none := by
  rw [Option.eq_none_iff_forall_ne_some]
  intro o ho
  have hi := h.inside _ o ho
  rw [List.getD_eq_default _ _ le_rfl] at hi
  exact Nat.not_lt_zero i hi

lemma preserves_newBlock (n : ℕ) : Preserves Ledger (newBlock n : StorageProgram T ℕ) := by
  rintro S _ h ⟨⟩
  refine ⟨fun a o ho => ?_, h.accounted, h.living, h.distinct, h.nodup⟩
  have hi := h.inside a o ho
  by_cases hb : a.block < S.room.length
  · rwa [List.getD_append _ _ _ _ hb]
  · rw [List.getD_eq_default _ _ (not_lt.mp hb)] at hi
    exact absurd hi (Nat.not_lt_zero _)

lemma preserves_load (a : Address) : Preserves Ledger (load a : StorageProgram T T) := by
  intro S r h hr
  obtain ⟨o, _, rfl⟩ := Option.map_eq_some_iff.mp hr
  exact h

lemma update_eq_some {a b : Address} {w : Option (Object T)} {o : Object T}
    (h : Function.update S.slots a w b = some o) :
    b = a ∧ w = some o ∨ b ≠ a ∧ S.slots b = some o := by
  rw [Function.update_apply] at h
  split_ifs at h with hb
  · exact Or.inl ⟨hb, h⟩
  · exact Or.inr ⟨hb, h⟩

lemma preserves_store (a : Address) (v : T) : Preserves Ledger (store a v) := by
  intro S r h hr
  obtain ⟨o, ho, rfl⟩ := Option.map_eq_some_iff.mp hr
  -- the object that is written to keeps its number
  have key : ∀ b u, Function.update S.slots a (some { o with value := v }) b = some u →
      ∃ u', S.slots b = some u' ∧ u'.serial = u.serial := by
    intro b u hu
    obtain ⟨rfl, hw⟩ | ⟨_, hb⟩ := update_eq_some hu
    · cases hw
      exact ⟨o, ho, rfl⟩
    · exact ⟨u, hb, rfl⟩
  refine ⟨fun b u hu => ?_, fun n => ?_, fun b u hu => ?_, fun b c u u' hu hu' he => ?_, h.nodup⟩
  · obtain ⟨u', hu', _⟩ := key b u hu
    exact h.inside b u' hu'
  · rw [h.accounted n]
    refine or_congr_right ⟨?_, ?_⟩
    · rintro ⟨b, u, hu, rfl⟩
      by_cases hb : b = a
      · subst hb
        obtain rfl := Option.some.inj (ho.symm.trans hu)
        exact ⟨b, _, Function.update_self _ _ _, rfl⟩
      · exact ⟨b, u, (Function.update_of_ne hb _ _).trans hu, rfl⟩
    · rintro ⟨b, u, hu, rfl⟩
      obtain ⟨u', hu', he⟩ := key b u hu
      exact ⟨b, u', hu', he⟩
  · obtain ⟨u', hu', he⟩ := key b u hu
    exact he ▸ h.living b u' hu'
  · obtain ⟨w, hw, hwe⟩ := key b u hu
    obtain ⟨w', hw', hwe'⟩ := key c u' hu'
    exact h.distinct b c w w' hw hw' (hwe.trans (he.trans hwe'.symm))

lemma preserves_construct (a : Address) (v : T) : Preserves Ledger (construct a v) := by
  intro S r h hr
  rw [construct] at hr
  split_ifs at hr with ha
  obtain ⟨hroom, hvacant⟩ := ha
  rw [Option.isNone_iff_eq_none] at hvacant
  cases hr
  have hold : ∀ b u, S.slots b = some u → u.serial < S.constructed := fun b u hu =>
    (h.accounted _).mpr (Or.inr ⟨b, u, hu, rfl⟩)
  refine ⟨fun b u hu => ?_, fun n => ?_, fun b u hu => ?_, fun b c u u' hu hu' he => ?_, h.nodup⟩
  · obtain ⟨rfl, _⟩ | ⟨_, hb⟩ := update_eq_some hu
    · exact hroom
    · exact h.inside b u hb
  · rw [Nat.lt_succ_iff_lt_or_eq, h.accounted n, or_assoc]
    refine or_congr_right ⟨?_, ?_⟩
    · rintro (⟨b, u, hu, rfl⟩ | rfl)
      · have hb : b ≠ a := by
          rintro rfl
          rw [hvacant] at hu
          cases hu
        exact ⟨b, u, (Function.update_of_ne hb _ _).trans hu, rfl⟩
      · exact ⟨a, _, Function.update_self _ _ _, rfl⟩
    · rintro ⟨b, u, hu, rfl⟩
      obtain ⟨rfl, hw⟩ | ⟨_, hb⟩ := update_eq_some hu
      · cases hw
        exact Or.inr rfl
      · exact Or.inl ⟨b, u, hb, rfl⟩
  · obtain ⟨rfl, hw⟩ | ⟨_, hb⟩ := update_eq_some hu
    · cases hw
      exact fun hd => lt_irrefl _ ((h.accounted _).mpr (Or.inl hd))
    · exact h.living b u hb
  · obtain ⟨rfl, hw⟩ | ⟨_, hb⟩ := update_eq_some hu <;>
      obtain ⟨rfl, hw'⟩ | ⟨_, hc⟩ := update_eq_some hu'
    · rfl
    · cases hw
      exact absurd he.symm (hold c u' hc).ne
    · cases hw'
      exact absurd he (hold b u hb).ne
    · exact h.distinct b c u u' hb hc he

lemma preserves_destruct (a : Address) : Preserves Ledger (destruct a : StorageProgram T Unit) := by
  intro S r h hr
  obtain ⟨o, ho, rfl⟩ := Option.map_eq_some_iff.mp hr
  have key : ∀ b u, Function.update S.slots a none b = some u → b ≠ a ∧ S.slots b = some u := by
    intro b u hu
    obtain ⟨_, hw⟩ | hb := update_eq_some hu
    · cases hw
    · exact hb
  refine ⟨fun b u hu => h.inside b u (key b u hu).2, fun n => ?_, fun b u hu => ?_,
    fun b c u u' hu hu' he => h.distinct b c u u' (key b u hu).2 (key c u' hu').2 he, ?_⟩
  · rw [h.accounted n, List.mem_append, List.mem_singleton, or_assoc]
    refine or_congr_right ⟨?_, ?_⟩
    · rintro ⟨b, u, hu, rfl⟩
      by_cases hb : b = a
      · subst hb
        exact Or.inl (by rw [Option.some.inj (ho.symm.trans hu)])
      · exact Or.inr ⟨b, u, (Function.update_of_ne hb _ _).trans hu, rfl⟩
    · rintro (rfl | ⟨b, u, hu, rfl⟩)
      · exact ⟨a, o, ho, rfl⟩
      · exact ⟨b, u, (key b u hu).2, rfl⟩
  · obtain ⟨hb, hu⟩ := key b u hu
    rw [List.mem_append, List.mem_singleton]
    rintro (hd | he)
    · exact h.living b u hu hd
    · exact hb (h.distinct b a u o hu ho he)
  · rw [← List.concat_eq_append]
    exact h.nodup.concat (h.living a o ho)

end Accounts

section Contents

/-- The objects at the start of the block have these values, and there are no others in it. -/
def Holds (S : Storage T) (b : ℕ) (vs : List T) : Prop :=
  ∀ i, (S.slots ⟨b, i⟩).map Object.value = vs[i]?

/-- Only inside the blocks `B` objects have come, gone or changed. No block has gone. -/
structure OnlyIn (B : Set ℕ) (S S' : Storage T) : Prop where
  room : ∀ (c n : ℕ), S.room[c]? = some n → S'.room[c]? = some n
  others : ∀ a, a.block ∉ B → S'.slots a = S.slots a

variable {S S' S'' : Storage T} {B : Set ℕ} {b : ℕ} {vs : List T} {v : T} {i : ℕ}

lemma OnlyIn.refl (B : Set ℕ) (S : Storage T) : OnlyIn B S S := ⟨fun _ _ h => h, fun _ _ => rfl⟩

lemma OnlyIn.trans (h : OnlyIn B S S') (h' : OnlyIn B S' S'') : OnlyIn B S S'' :=
  ⟨fun c n hc => h'.room c n (h.room c n hc), fun a ha => (h'.others a ha).trans (h.others a ha)⟩

lemma OnlyIn.mono {B' : Set ℕ} (h : OnlyIn B S S') (hB : B ⊆ B') : OnlyIn B' S S' :=
  ⟨h.room, fun a ha => h.others a fun hb => ha (hB hb)⟩

lemma OnlyIn.holds (h : OnlyIn B S S') (hb : b ∉ B) (hS : Holds S b vs) : Holds S' b vs := by
  intro i
  rw [h.others ⟨b, i⟩ hb]
  exact hS i

lemma onlyIn_newBlock (B : Set ℕ) (n : ℕ) : OnlyIn B S { S with room := S.room ++ [n] } := by
  refine ⟨fun c m hc => ?_, fun _ _ => rfl⟩
  rwa [List.getElem?_append_left (List.getElem?_eq_some_iff.mp hc).1]

lemma holds_nil : Holds S b [] ↔ ∀ i, S.slots ⟨b, i⟩ = none := by
  simp [Holds]

lemma Holds.occupied_iff (h : Holds S b vs) : (S.slots ⟨b, i⟩).isSome ↔ i < vs.length := by
  rw [← Option.isSome_map (f := Object.value), h i]
  simp

lemma onlyIn_update {w : Option (Object T)} {n : ℕ} {ds : List ℕ} :
    OnlyIn {b} S ⟨Function.update S.slots ⟨b, i⟩ w, S.room, n, ds⟩ :=
  ⟨fun _ _ h => h, fun c hc => Function.update_of_ne (fun he => hc (by rw [he]; rfl)) _ _⟩

lemma Ledger.holds_fresh (h : Ledger S) : Holds S S.room.length [] := holds_nil.mpr h.fresh

lemma holds_update {w : Option (Object T)} {room ds : List ℕ} {n : ℕ} :
    Holds ⟨Function.update S.slots ⟨b, i⟩ w, room, n, ds⟩ b vs ↔
      ∀ j, (if j = i then w else S.slots ⟨b, j⟩).map Object.value = vs[j]? := by
  simp only [Holds, Function.update_apply, Address.mk.injEq, true_and]

lemma Holds.load (h : Holds S b vs) (hv : vs[i]? = some v) :
    load ⟨b, i⟩ S = some (v, S) := by
  obtain ⟨o, ho, rfl⟩ := Option.map_eq_some_iff.mp ((h i).trans hv)
  rw [Objects.load, ho]
  rfl

lemma Holds.construct {n : ℕ} (h : Holds S b vs) (hroom : S.room[b]? = some n)
    (hn : vs.length < n) (v : T) :
    Yields (construct ⟨b, vs.length⟩ v) S fun _ S' => Holds S' b (vs ++ [v]) ∧ OnlyIn {b} S S' := by
  have hvacant : (S.slots ⟨b, vs.length⟩).isNone = true := by
    rw [Option.isNone_iff_eq_none, ← Option.map_eq_none_iff, h, List.getElem?_eq_none le_rfl]
  have hlt : vs.length < S.room.getD b 0 := by
    rwa [List.getD_eq_getElem?_getD, hroom]
  refine Yields.of_eq (if_pos ⟨hlt, hvacant⟩) ⟨holds_update.mpr fun i => ?_, onlyIn_update⟩
  rw [List.getElem?_append]
  split_ifs with hi hlt hlt
  · omega
  · rw [hi, Nat.sub_self]
    rfl
  · exact h i
  · rw [h i, List.getElem?_eq_none (not_lt.mp hlt), List.getElem?_eq_none]
    rw [List.length_singleton]
    omega

lemma destruct_spec (h : (S.slots ⟨b, i⟩).isSome) :
    Yields (destruct ⟨b, i⟩) S fun _ S' =>
      (∀ j, S'.slots ⟨b, j⟩ = if j = i then none else S.slots ⟨b, j⟩) ∧ OnlyIn {b} S S' := by
  obtain ⟨o, ho⟩ := Option.isSome_iff_exists.mp h
  refine Yields.of_eq (congrArg _ ho) ⟨fun j => ?_, onlyIn_update⟩
  simp only [Function.update_apply, Address.mk.injEq, true_and]

lemma Holds.destruct_last (h : Holds S b (vs ++ [v])) :
    Yields (destruct ⟨b, vs.length⟩) S fun _ S' => Holds S' b vs ∧ OnlyIn {b} S S' := by
  apply (destruct_spec (h.occupied_iff.mpr (by simp))).mono
  rintro _ S' ⟨hslots, ho⟩
  refine ⟨fun i => ?_, ho⟩
  rw [hslots]
  split_ifs with hi
  · rw [hi, List.getElem?_eq_none le_rfl]
    rfl
  · rw [h i, List.getElem?_append]
    split_ifs with hlt
    · rfl
    · rw [List.getElem?_eq_none (not_lt.mp hlt), List.getElem?_eq_none]
      rw [List.length_singleton]
      omega

lemma Holds.store (h : Holds S b vs) (hi : i < vs.length) (v : T) :
    Yields (store ⟨b, i⟩ v) S fun _ S' => Holds S' b (vs.set i v) ∧ OnlyIn {b} S S' := by
  obtain ⟨o, ho⟩ := Option.isSome_iff_exists.mp (h.occupied_iff.mpr hi)
  refine Yields.of_eq (congrArg _ ho) ⟨holds_update.mpr fun j => ?_, onlyIn_update⟩
  rw [List.getElem?_set]
  split_ifs with hj hij hij
  · rfl
  · exact absurd hj.symm hij
  · exact absurd hij.symm hj
  · exact h j

end Contents

end Xty.General.Objects
