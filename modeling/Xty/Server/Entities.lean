import Xty.Message.RoundTrip

/-! The entity array of `xtyMsgDeSerializer` and the message objects in memory. -/

namespace Xty.Server

open Xty.Message

def serverDeSerializeEntityNum : ℕ := 1024

/-- The serial number tells an object from a later one at the same address. -/
structure Cell where
  serial : ℕ
  object : MsgObject

abbrev Memory := ℕ → Option Cell

structure DeSerializeEntity where
  deSerializedMsg : Option ℕ
  isOccupied : Bool

abbrev EntityArray := List DeSerializeEntity

namespace EntityArray

def create : EntityArray := List.replicate serverDeSerializeEntityNum ⟨none, false⟩

def searchAvailableEntity (A : EntityArray) : Option ℕ := A.findIdx? fun E => E.isOccupied = false

def acquireEntity (A : EntityArray) : Option (ℕ × EntityArray) :=
  A.searchAvailableEntity.map fun i => (i, A.modify i fun E => { E with isOccupied := true })

def releaseEntity (A : EntityArray) (p : ℕ) : EntityArray :=
  match A.findIdx? fun E => E.deSerializedMsg = some p with
  | some i => A.modify i fun E => { E with isOccupied := false }
  | none => A

def hold (A : EntityArray) (i p : ℕ) : EntityArray :=
  A.modify i fun E => { E with deSerializedMsg := some p }

def owned (A : EntityArray) (i : ℕ) : Option ℕ := A[i]?.bind DeSerializeEntity.deSerializedMsg

def Occupies (A : EntityArray) (p : ℕ) : Prop := ∃ i : ℕ, A[i]? = some ⟨some p, true⟩

def Distinct (A : EntityArray) : Prop :=
  ∀ i j p, A.owned i = some p → A.owned j = some p → i = j

variable {A B : EntityArray} {i j p q : ℕ}

lemma owned_create : create.owned i = none := by
  rw [owned, create, List.getElem?_replicate]
  split_ifs <;> rfl

lemma owned_setOccupied (b : Bool) :
    owned (A.modify i fun E => { E with isOccupied := b }) j = A.owned j := by
  rw [owned, owned, List.getElem?_modify]
  cases A[j]? with
  | none => rfl
  | some E => by_cases hij : i = j <;> simp [hij]

lemma acquire_some (h : A.acquireEntity = some (i, B)) :
    B = A.modify i (fun E => { E with isOccupied := true }) ∧
      ∃ m, A[i]? = some ⟨m, false⟩ := by
  obtain ⟨k, hk, he⟩ := Option.map_eq_some_iff.mp h
  obtain ⟨rfl, rfl⟩ := Prod.mk.inj he
  obtain ⟨hlt, hp, _⟩ := List.findIdx?_eq_some_iff_getElem.mp hk
  refine ⟨rfl, A[k].deSerializedMsg, ?_⟩
  rw [List.getElem?_eq_getElem hlt]
  have : A[k].isOccupied = false := by simpa using hp
  rw [← this]

lemma acquire_length (h : A.acquireEntity = some (i, B)) : i < B.length ∧ B.length = A.length := by
  obtain ⟨rfl, m, hm⟩ := acquire_some h
  rw [List.length_modify]
  exact ⟨(List.getElem?_eq_some_iff.mp hm).1, rfl⟩

lemma acquire_getElem_ne (h : A.acquireEntity = some (i, B)) (hij : i ≠ j) : B[j]? = A[j]? := by
  obtain ⟨rfl, _⟩ := acquire_some h
  rw [List.getElem?_modify]
  simp [hij]

lemma acquire_owned (h : A.acquireEntity = some (i, B)) : B.owned j = A.owned j := by
  obtain ⟨rfl, _⟩ := acquire_some h
  exact owned_setOccupied true

lemma acquire_occupied (h : A.acquireEntity = some (i, B)) : ∃ m, B[i]? = some ⟨m, true⟩ := by
  obtain ⟨rfl, m, hm⟩ := acquire_some h
  exact ⟨m, by rw [List.getElem?_modify, hm]; simp⟩

lemma Occupies.acquire (hp : A.Occupies p) (h : A.acquireEntity = some (i, B)) :
    B.Occupies p := by
  obtain ⟨rfl, m, hm⟩ := acquire_some h
  obtain ⟨j, hj⟩ := hp
  refine ⟨j, ?_⟩
  rw [List.getElem?_modify, hj]
  by_cases hij : i = j <;> simp [hij]

lemma acquire_not_owned (hd : A.Distinct) (h : A.acquireEntity = some (i, B))
    (hp : A.Occupies p) : B.owned i ≠ some p := by
  intro hi
  obtain ⟨_, m, hm⟩ := acquire_some h
  obtain ⟨j, hj⟩ := hp
  rw [acquire_owned h] at hi
  obtain rfl : i = j := hd i j p hi (by rw [EntityArray.owned, hj]; rfl)
  rw [hm] at hj
  cases hj

lemma release_owned (A : EntityArray) (p : ℕ) : (A.releaseEntity p).owned j = A.owned j := by
  rw [releaseEntity]
  split
  · exact owned_setOccupied false
  · rfl

lemma release_getElem {m : Option ℕ} {b : Bool} (hi : A[i]? = some ⟨m, b⟩) (hne : m ≠ some p) :
    (A.releaseEntity p)[i]? = some ⟨m, b⟩ := by
  rw [releaseEntity]
  split
  · next j hj =>
    have hij : j ≠ i := by
      rintro rfl
      obtain ⟨hlt, hp, _⟩ := List.findIdx?_eq_some_iff_getElem.mp hj
      rw [List.getElem?_eq_getElem hlt] at hi
      rw [Option.some.inj hi] at hp
      exact hne (by simpa using hp)
    rw [List.getElem?_modify, hi]
    simp [hij]
  · exact hi

lemma release_length (A : EntityArray) (p : ℕ) : (A.releaseEntity p).length = A.length := by
  rw [releaseEntity]
  split
  · exact List.length_modify _ _ _
  · rfl

lemma release_occupied {m : Option ℕ} (hi : (A.releaseEntity p)[i]? = some ⟨m, true⟩) :
    A[i]? = some ⟨m, true⟩ := by
  rw [releaseEntity] at hi
  split at hi
  · next j _ =>
    rw [List.getElem?_modify] at hi
    by_cases hij : j = i
    · obtain ⟨E, _, he⟩ := Option.map_eq_some_iff.mp hi
      simp [hij] at he
    · simpa [hij] using hi
  · exact hi

lemma Occupies.release (hq : A.Occupies q) (hne : q ≠ p) : (A.releaseEntity p).Occupies q := by
  obtain ⟨j, hj⟩ := hq
  exact ⟨j, release_getElem hj fun h => hne (Option.some.inj h)⟩

lemma release_not_occupies (hd : A.Distinct) : ¬ (A.releaseEntity p).Occupies p := by
  rintro ⟨j, hj⟩
  have hown : A.owned j = some p := by
    rw [← release_owned A p, owned, hj]
    rfl
  rw [releaseEntity] at hj
  split at hj
  · next i hi =>
    obtain ⟨hlt, hp, _⟩ := List.findIdx?_eq_some_iff_getElem.mp hi
    have howi : A.owned i = some p := by
      rw [owned, List.getElem?_eq_getElem hlt]
      simpa using hp
    obtain rfl : i = j := hd i j p howi hown
    rw [List.getElem?_modify, List.getElem?_eq_getElem hlt] at hj
    simp at hj
  · next hn =>
    obtain ⟨E, hE, hm⟩ := Option.bind_eq_some_iff.mp hown
    have := List.findIdx?_eq_none_iff.mp hn E (List.mem_of_getElem? hE)
    simp [hm] at this

lemma hold_getElem_ne (hij : i ≠ j) : (A.hold i p)[j]? = A[j]? := by
  rw [hold, List.getElem?_modify]
  simp [hij]

lemma hold_owned_ne (hij : i ≠ j) : (A.hold i p).owned j = A.owned j := by
  rw [owned, owned, hold_getElem_ne hij]

lemma hold_getElem {E : DeSerializeEntity} (hi : A[i]? = some E) :
    (A.hold i p)[i]? = some ⟨some p, E.isOccupied⟩ := by
  rw [hold, List.getElem?_modify, hi]
  simp

lemma hold_owned {E : DeSerializeEntity} (hi : A[i]? = some E) : (A.hold i p).owned i = some p := by
  rw [owned, hold_getElem hi]
  rfl

lemma Occupies.hold (hq : A.Occupies q) (hi : A.owned i ≠ some q) (p : ℕ) :
    (A.hold i p).Occupies q := by
  obtain ⟨j, hj⟩ := hq
  have hij : i ≠ j := by
    rintro rfl
    exact hi (by rw [EntityArray.owned, hj]; rfl)
  exact ⟨j, by rw [hold_getElem_ne hij, hj]⟩

lemma Distinct.of_owned (h : A.Distinct) (he : ∀ i, B.owned i = A.owned i) : B.Distinct := by
  intro i j p hi hj
  rw [he] at hi hj
  exact h i j p hi hj

lemma Distinct.hold (h : A.Distinct) {E : DeSerializeEntity} (hi : A[i]? = some E)
    (hp : ∀ j, j ≠ i → A.owned j ≠ some p) : (A.hold i p).Distinct := by
  have howned : ∀ j q, (A.hold i p).owned j = some q →
      (j = i ∧ q = p) ∨ (j ≠ i ∧ A.owned j = some q) := by
    intro j q hj
    by_cases hij : j = i
    · subst hij
      rw [hold_owned hi] at hj
      exact Or.inl ⟨rfl, (Option.some.inj hj).symm⟩
    · rw [hold_owned_ne (Ne.symm hij)] at hj
      exact Or.inr ⟨hij, hj⟩
  intro j k q hj hk
  rcases howned j q hj with ⟨rfl, rfl⟩ | ⟨hji, hj⟩ <;>
    rcases howned k q hk with ⟨hki, hq⟩ | ⟨hki, hk⟩
  · exact hki.symm
  · exact absurd hk (hp k hki)
  · exact absurd (hq ▸ hj) (hp j hji)
  · exact h j k q hj hk

end EntityArray

end Xty.Server
