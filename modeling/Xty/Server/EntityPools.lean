import Xty.Message.WellFormed
import Xty.Server.Entities

/-! The entities that the two codecs keep occupied when their calls fail. -/

namespace Xty.Server

open Xty.General.LittleEndian Xty.General.Cursor
open Xty.Message

abbrev SerializeEntityArray := List SerializeEntity

namespace SerializeEntityArray

def searchAvailableEntity (A : SerializeEntityArray) : Option ℕ :=
  A.findIdx? fun E => E.isOccupied = false

def acquireEntity (A : SerializeEntityArray) : Option (ℕ × SerializeEntityArray) :=
  A.searchAvailableEntity.map fun i => (i, A.modify i fun E => { E with isOccupied := true })

/-- No result means that the call waits for an entity. -/
def serialize (A : SerializeEntityArray) (m : MsgObject) :
    Option (SerializeEntityArray × Except (Failure ExceptionCode) (Bytes × MsgObject)) := do
  let (i, B) ← A.acquireEntity
  let E ← B[i]?
  return (B, E.serialize m)

def occupied (A : SerializeEntityArray) : ℕ := A.countP SerializeEntity.isOccupied

end SerializeEntityArray

/-- A buffer with what can be read behind it, and the address of the next new message. -/
structure Chunk where
  window : Window
  buf : ℕ
  newMsg : ℕ

namespace EntityArray

-- The new message is created before its fields are read, so the entity holds it in any case.
def deSerialize (A : EntityArray) (c : Chunk) :
    Option (EntityArray × Except (Failure ExceptionCode) MsgObject) :=
  A.acquireEntity.map fun (i, B) =>
    (B.hold i c.newMsg, (DeSerializeEntity.deSerializeAt c.window c.buf).map Prod.fst)

def occupied (A : EntityArray) : ℕ := A.countP DeSerializeEntity.isOccupied

end EntityArray

/-- One call after the other, each of which leaves with an exception. -/
inductive Failing {π ρ α : Type}
    (call : π → ρ → Option (π × Except (Failure ExceptionCode) α)) : π → List ρ → π → Prop
  | nil (A : π) : Failing call A [] A
  | cons {A B C : π} {q : ρ} {qs : List ρ} {e : ExceptionCode}
      (hfail : call A q = some (B, .error (.raised e))) (hrest : Failing call B qs C) :
      Failing call A (q :: qs) C

/-- Every call that fails leaves one more entity occupied, and once there have been as many as
there were free entities, every further call waits. -/
structure Leaks {π ρ α : Type} (call : π → ρ → Option (π × Except (Failure ExceptionCode) α))
    (occupied size : π → ℕ) (A : π) : Prop where
  counts : ∀ qs B, Failing call A qs B → occupied B = occupied A + qs.length
  exhausts : ∀ qs B, Failing call A qs B → occupied A + qs.length = size A → ∀ q, call B q = none

section Counting

variable {ε : Type} {f : ε → Bool} {g : ε → ε} {A : List ε} {i : ℕ}

lemma countP_modify_of_same (hg : ∀ E, f (g E) = f E) : (A.modify i g).countP f = A.countP f := by
  induction A generalizing i with
  | nil => rw [List.modify_nil]
  | cons E A ih =>
    cases i with
    | zero => rw [List.modify_zero_cons, List.countP_cons, List.countP_cons, hg]
    | succ i => rw [List.modify_succ_cons, List.countP_cons, List.countP_cons, ih]

lemma countP_modify_of_first (hi : A.findIdx? (fun E => f E = false) = some i)
    (hg : ∀ E, f (g E) = true) : (A.modify i g).countP f = A.countP f + 1 := by
  induction A generalizing i with
  | nil => cases hi
  | cons E A ih =>
    rw [List.findIdx?_cons] at hi
    split_ifs at hi with hE
    · obtain rfl := Option.some.inj hi
      have hE : f E = false := by simpa using hE
      rw [List.modify_zero_cons, List.countP_cons, List.countP_cons, hg, hE]
      rfl
    · obtain ⟨j, hj, rfl⟩ := Option.map_eq_some_iff.mp hi
      rw [List.modify_succ_cons, List.countP_cons, List.countP_cons, ih hj]
      omega

lemma findIdx_none_of_count (h : A.countP f = A.length) :
    A.findIdx? (fun E => f E = false) = none := by
  rw [List.findIdx?_eq_none_iff]
  intro E hE
  simp [List.countP_eq_length.mp h E hE]

end Counting

lemma leaks_of_call {ε ρ α : Type}
    {call : List ε → ρ → Option (List ε × Except (Failure ExceptionCode) α)} {f : ε → Bool}
    (hcall : ∀ A q B x, call A q = some (B, x) → B.countP f = A.countP f + 1 ∧ B.length = A.length)
    (hfull : ∀ A : List ε, A.countP f = A.length → ∀ q, call A q = none) (A : List ε) :
    Leaks call (List.countP f) List.length A := by
  have hrun : ∀ A qs B, Failing call A qs B →
      B.countP f = A.countP f + qs.length ∧ B.length = A.length := by
    intro A qs B h
    induction h with
    | nil => exact ⟨rfl, rfl⟩
    | cons hfail _ ih =>
      obtain ⟨hc, hl⟩ := hcall _ _ _ _ hfail
      rw [List.length_cons]
      omega
  refine ⟨fun qs B h => (hrun A qs B h).1, fun qs B h hsize => hfull B ?_⟩
  obtain ⟨hc, hl⟩ := hrun A qs B h
  rw [hc, hl, hsize]

lemma EntityArray.deSerialize_some {A B : EntityArray} {c : Chunk}
    {x : Except (Failure ExceptionCode) MsgObject} (h : A.deSerialize c = some (B, x)) :
    B.occupied = A.occupied + 1 ∧ B.length = A.length := by
  obtain ⟨⟨i, A'⟩, hacq, he⟩ := Option.map_eq_some_iff.mp h
  obtain ⟨k, hk, hki⟩ := Option.map_eq_some_iff.mp hacq
  cases hki
  cases he
  refine ⟨?_, ?_⟩
  · have hhold : ∀ A' : EntityArray, (A'.hold i c.newMsg).occupied = A'.occupied := fun A' =>
      countP_modify_of_same fun _ => rfl
    rw [hhold]
    exact countP_modify_of_first hk fun _ => rfl
  · rw [hold, List.length_modify, List.length_modify]

lemma SerializeEntityArray.serialize_some {A B : SerializeEntityArray} {m : MsgObject}
    {x : Except (Failure ExceptionCode) (Bytes × MsgObject)} (h : A.serialize m = some (B, x)) :
    B.occupied = A.occupied + 1 ∧ B.length = A.length := by
  obtain ⟨⟨i, A'⟩, hacq, h⟩ := Option.bind_eq_some_iff.mp h
  obtain ⟨E, _, he⟩ := Option.bind_eq_some_iff.mp h
  obtain ⟨k, hk, hki⟩ := Option.map_eq_some_iff.mp hacq
  cases hki
  cases he
  exact ⟨countP_modify_of_first hk fun _ => rfl, List.length_modify _ _ _⟩

lemma EntityArray.leaks (A : EntityArray) :
    Leaks EntityArray.deSerialize EntityArray.occupied List.length A := by
  refine leaks_of_call (fun A c B x h => EntityArray.deSerialize_some h) (fun A hA c => ?_) A
  rw [EntityArray.deSerialize, EntityArray.acquireEntity, EntityArray.searchAvailableEntity,
    findIdx_none_of_count hA]
  rfl

lemma SerializeEntityArray.leaks (A : SerializeEntityArray) :
    Leaks SerializeEntityArray.serialize SerializeEntityArray.occupied List.length A := by
  refine leaks_of_call (fun A m B x h => SerializeEntityArray.serialize_some h) (fun A hA m => ?_) A
  rw [SerializeEntityArray.serialize, SerializeEntityArray.acquireEntity,
    SerializeEntityArray.searchAvailableEntity, findIdx_none_of_count hA]
  rfl

/-- The entity is marked before the codec runs, and neither call gives it back. -/
theorem failed_calls_leak (A : EntityArray) (A' : SerializeEntityArray) :
    Leaks EntityArray.deSerialize EntityArray.occupied List.length A ∧
      Leaks SerializeEntityArray.serialize SerializeEntityArray.occupied List.length A' :=
  ⟨A.leaks, A'.leaks⟩

/-- A session has one entity of each kind. A chunk that ends behind its type takes one, a message
that does not fit takes the other. -/
theorem failed_calls_block :
    (∃ (c : Chunk) (A B : EntityArray), A.occupied = 0 ∧
      A.deSerialize c = some (B, .error (.raised .outOfBufferRange)) ∧ B.occupied = 1 ∧
        ∀ d, B.deSerialize d = none) ∧
    ∃ (m : MsgObject) (A B : SerializeEntityArray), A.occupied = 0 ∧
      A.serialize m = some (B, .error (.raised .outOfBufferRange)) ∧ B.occupied = 1 ∧
        ∀ m', B.serialize m' = none := by
  constructor
  · let R : Region := ⟨8192, [0, 0, 0, 0], List.replicate 4092 0, by decide +kernel⟩
    have h : EntityArray.deSerialize [⟨none, false⟩] ⟨R.window, R.base, 0⟩
        = some ([⟨some 0, true⟩], .error (.raised .outOfBufferRange)) := by
      have hd : DeSerializeEntity.deSerializeAt R.window R.base
          = .error (.raised .outOfBufferRange) := by
        decide +kernel
      rw [EntityArray.deSerialize, hd]
      rfl
    exact ⟨_, _, _, rfl, h, rfl, (EntityArray.leaks _).exhausts _ _ (.cons h (.nil _)) rfl⟩
  · let E : SerializeEntity := ⟨8192, true, by decide⟩
    have h : SerializeEntityArray.serialize [{ E with isOccupied := false }]
        (.data ⟨⟨4, 0⟩, [], [], List.replicate 4061 0⟩)
          = some ([E], .error (.raised .outOfBufferRange)) := by
      have hd : E.serialize (.data ⟨⟨4, 0⟩, [], [], List.replicate 4061 0⟩)
          = .error (.raised .outOfBufferRange) := by
        decide +kernel
      rw [← hd]
      rfl
    exact ⟨_, _, _, rfl, h, rfl, (SerializeEntityArray.leaks _).exhausts _ _ (.cons h (.nil _)) rfl⟩

end Xty.Server
