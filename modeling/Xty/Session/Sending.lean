import Xty.Message.RoundTrip
import Xty.Server.Transitions

/-! `xtySession::Register`, `DeRegister` and `xtySessionSendJob`: one message through the only
entity of the serializer and into the socket. -/

namespace Xty.Session

open Xty.General.LittleEndian Xty.General.Cursor
open Xty.Message Xty.Server

structure SessionState where
  processName : Bytes
  processIP : Bytes
  processPort : Bytes
  serializer : SerializeEntity
  sendMsgQueue : List DataMsg
  /-- The arguments of the calls of `send` on the socket. -/
  sent : List Bytes

inductive SendResult where
  | serializationFailed
  | passedToSend
deriving DecidableEq, Repr

abbrev SendOutcome := Option (Except (Failure ExceptionCode) (SendResult × SessionState))

namespace SessionState

/-- `none` is a call that waits for the entity. Neither an exception nor the branch that reports a
failed serialization gives the entity back. -/
def transmit (s : SessionState) (m : MsgObject) : SendOutcome :=
  if s.serializer.isOccupied then none
  else match s.serializer.serialize m with
    | .error x => some (.error x)
    | .ok (data, m) =>
      if data.length ≠ m.head.msgLen.toNat then
        some (.ok (.serializationFailed,
          { s with serializer := { s.serializer with isOccupied := true } }))
      else some (.ok (.passedToSend, { s with sent := data :: s.sent }))

def register (s : SessionState) : SendOutcome :=
  s.transmit (.reg ⟨⟨MsgType.regMsg.code, 0⟩, s.processName, s.processIP, s.processPort⟩)

def deRegister (s : SessionState) : SendOutcome :=
  s.transmit (.deReg ⟨⟨MsgType.deRegMsg.code, 0⟩, s.processName, s.processIP, s.processPort⟩)

def runSendJob (s : SessionState) : SendOutcome :=
  match s.sendMsgQueue with
  | [] => none
  | m :: ms => { s with sendMsgQueue := ms }.transmit (.data m)

end SessionState

/-- Where `new` can put the buffer: the upper half of the address space is not the process's. -/
def InUserSpace (E : SerializeEntity) : Prop := E.serializeBuf + serializeBufLen ≤ 2 ^ 63

section Exactness

variable {E : SerializeEntity} {m : MsgObject}

lemma calculateSerializedMsgLen_eq (m : MsgObject) : m.calculateSerializedMsgLen = m.measured := by
  cases m <;> rfl

lemma serialize_eq (hE : InUserSpace E) (hm : m.encodedSize < 2 ^ 63) :
    E.serialize m = if m.encodedSize ≤ serializeBufLen then .ok (m.encoding, m.measured)
      else .error (.raised .outOfBufferRange) := by
  split_ifs with hfit
  · exact E.serialize_ok m hfit
  · rw [InUserSpace] at hE
    refine E.serialize_raised m (not_le.mp hfit) ?_
    rw [addressSpace]
    omega

lemma transmit_result {s t : SessionState} {r : SendResult} (h : s.transmit m = some (.ok (r, t))) :
    r = .passedToSend ∧ t.sent = m.encoding :: s.sent := by
  rw [SessionState.transmit] at h
  split_ifs at h
  split at h
  · cases h
  · next hser =>
    have hlen := serialized_length hser
    obtain ⟨rfl, rfl, _⟩ := SerializeEntity.serialize_inv hser
    rw [if_neg (not_not_intro hlen)] at h
    cases h
    exact ⟨rfl, rfl⟩

lemma runSendJob_result {s t : SessionState} {r : SendResult}
    (h : s.runSendJob = some (.ok (r, t))) :
    r = .passedToSend := by
  rw [SessionState.runSendJob] at h
  split at h
  · cases h
  · exact (transmit_result h).1

lemma sendTo_result {s t : State} {r : Reference} {toIP toName k : Bytes} {e : ClientEntity}
    {rest : List (Bytes × Option ClientEntity)} (h : sendTo s r toIP toName k e rest = some t) :
    t.send = .releasing r toIP toName rest := by
  obtain ⟨cell, _, h⟩ := Option.bind_eq_some_iff.mp h
  split_ifs at h
  split at h
  · cases h
  · next hser =>
    rw [if_neg (not_not_intro (serialized_length hser))] at h
    obtain rfl := Option.some.inj h
    rfl

/-- The measured length is the number of bytes written for every message, and the field by field
tests accept a message exactly if that number is at most the size of the buffer. The two are equal
on every success, so no caller takes the branch that reports a failed serialization. -/
theorem serialize_exact (E : SerializeEntity) (m : MsgObject) (hE : InUserSpace E)
    (hm : m.encodedSize < 2 ^ 63) :
    m.calculateSerializedMsgLen.head.msgLen.toNat = m.encoding.length ∧
      (∀ S : Sink, m.encoding.length ≤ S.capacity →
        m.serialize S [] = .ok (m.calculateSerializedMsgLen, m.encoding)) ∧
      (E.serialize m = if m.encoding.length ≤ serializeBufLen
        then .ok (m.encoding, m.calculateSerializedMsgLen)
        else .error (.raised .outOfBufferRange)) ∧
      (∀ (s t : SessionState) (r : SendResult), s.register = some (.ok (r, t)) ∨
        s.deRegister = some (.ok (r, t)) ∨ s.runSendJob = some (.ok (r, t)) →
          r ≠ .serializationFailed) ∧
      (∀ (s t : State) (r : Reference) (toIP toName k : Bytes) (e : ClientEntity)
        (rest : List (Bytes × Option ClientEntity)), sendTo s r toIP toName k e rest = some t →
          t.send ≠ .iterating r toIP toName rest) := by
  rw [calculateSerializedMsgLen_eq, m.encoding_length]
  refine ⟨MsgObject.measured_msgLen (hm.trans (by decide)), ?_, serialize_eq hE hm, ?_, ?_⟩
  · intro S hS
    exact m.serialize_ok hS
  · intro s t r h
    have hr : r = .passedToSend := by
      rcases h with h | h | h
      · exact (transmit_result h).1
      · exact (transmit_result h).1
      · exact runSendJob_result h
    simp [hr]
  · intro s t r toIP toName k e rest h
    simp [sendTo_result h]

def longData (n : ℕ) : MsgObject := .data ⟨⟨4, 0⟩, List.replicate n 7, [], List.replicate 4000 9⟩

lemma longData_size (n : ℕ) : (longData n).encodedSize = n + 4036 := by
  simp only [longData, MsgObject.encodedSize, MsgObject.strings, serializedSize, sizeofMsgType,
    sizeofSizeT, List.map_cons, List.map_nil, List.sum_cons, List.sum_nil, List.length_replicate,
    List.length_nil]
  omega

theorem serialize_exact_boundary :
    (⟨4096, false, by decide⟩ : SerializeEntity).serialize (longData 60)
        = .ok ((longData 60).encoding, (longData 60).calculateSerializedMsgLen) ∧
      (⟨4096, false, by decide⟩ : SerializeEntity).serialize (longData 61)
        = .error (.raised .outOfBufferRange) := by
  have hE : InUserSpace ⟨4096, false, by decide⟩ := by simp [InUserSpace, serializeBufLen]
  obtain ⟨_, _, hfits, _⟩ :=
    serialize_exact _ (longData 60) hE (by rw [longData_size]; decide)
  obtain ⟨_, _, hlong, _⟩ :=
    serialize_exact _ (longData 61) hE (by rw [longData_size]; decide)
  rw [MsgObject.encoding_length, longData_size, if_pos (by decide)] at hfits
  rw [MsgObject.encoding_length, longData_size, if_neg (by decide)] at hlong
  exact ⟨hfits, hlong⟩

end Exactness

end Xty.Session
