import Xty.Server.Chunks
import Xty.Session.RecvJob

/-! A Data message on its way from one session to another, through the server. -/

namespace Xty.Session

open Xty.General.LittleEndian Xty.General.Cursor
open Xty.Message Xty.Server

/-- The frame is the bytes that were consumed, with the length field set to its size. -/
structure Restamps (frame consumed : Bytes) : Prop where
  type : frame.take sizeofMsgType = consumed.take sizeofMsgType
  length : (frame.drop sizeofMsgType).take sizeofSizeT = encode sizeofSizeT frame.length
  strings : frame.drop (sizeofMsgType + sizeofSizeT) = consumed.drop (sizeofMsgType + sizeofSizeT)
  size : frame.length = consumed.length

section Forwarding

variable {m : MsgObject} {consumed : Bytes}

lemma restamps_encoding (hm : m.Tagged) (hs : m.encodedSize < 2 ^ 64)
    (h : consumed = encodeHead m.head ++ encodeStrings m.strings) :
    Restamps m.encoding consumed where
  type := by
    rw [h, MsgObject.encoding, encodeHead, encodeHead, MsgObject.measured_tagged hm, hm]
    simp only [List.append_assoc]
    rw [List.take_left' (encode_length _ _), List.take_left' (encode_length _ _)]
  length := by
    rw [m.encoding_length, MsgObject.encoding, encodeHead, MsgObject.measured_msgLen hs]
    simp only [List.append_assoc]
    rw [List.drop_left' (encode_length _ _), List.take_left' (encode_length _ _)]
  strings := by
    have hhead : sizeofMsgType + sizeofSizeT = 12 := rfl
    rw [h, MsgObject.encoding, hhead, List.drop_left' (encodeHead_length _),
      List.drop_left' (encodeHead_length _)]
  size := by
    rw [h, MsgObject.encoding, List.length_append, List.length_append, encodeHead_length,
      encodeHead_length]

lemma sendTo_decoded {s : State} {r : Reference} {cell : Cell} {toIP toName k : Bytes}
    {e : ClientEntity} {rest : List (Bytes × Option ClientEntity)}
    (hcell : s.memory r.ptr = some cell) (hs : cell.object.encodedSize ≤ serializeBufLen)
    (hfree : s.serializer.isOccupied = false) :
    ∃ t, sendTo s r toIP toName k e rest = some t ∧ t.send = .releasing r toIP toName rest ∧
      t.history = .wrote (k, e.clientFd) cell.object.measured :: s.history := by
  have hser := s.serializer.serialize_ok cell.object hs
  have hlen := serialized_length hser
  rw [sendTo, hcell]
  simp [hfree, hser, hlen]

/-- A chunk that the server decodes to a Data message is forwarded as the same frame with the
length corrected, and the session at the other end takes that frame and has the same strings. -/
theorem forwarded_data_accepted (b : RecvBuffer) (r : ReadBytes) (m : MsgObject) (a : ℕ)
    (ht : HasType (b.region r) .dataMsg)
    (hd : DeSerializeEntity.deSerialize (b.region r) = .ok (m, a)) :
    ∃ d : DataMsg, m = .data d ∧
      (∀ E : SerializeEntity, E.serialize m = .ok (m.encoding, m.measured)) ∧
      (∀ (s : State) (ref : Reference) (n : ℕ) (toIP toName k : Bytes) (e : ClientEntity)
        (rest : List (Bytes × Option ClientEntity)), s.memory ref.ptr = some ⟨n, m⟩ →
        s.serializer.isOccupied = false → ∃ t, sendTo s ref toIP toName k e rest = some t ∧
          t.send = .releasing ref toIP toName rest ∧
          t.history = .wrote (k, e.clientFd) m.measured :: s.history) ∧
      Restamps m.encoding (r.bytes.take (a - b.base)) ∧
      ∀ (buf : RecvBuf) (c : RecvData), c.bytes = m.encoding →
        check c = .passed (UInt64.ofNat c.bytes.length) ∧
        ∃ d' : DataMsg, runJobRoutine buf c = .pushed (.data d') ∧
          d'.toProcessIP = d.toProcessIP ∧ d'.toProcessName = d.toProcessName ∧
          d'.content = d.content := by
  have hm : m.Tagged := decoded_tagged hd
  have hs : m.encodedSize ≤ serializeBufLen := (decoded_fits hd).trans r.fits
  have htype : m.type = .dataMsg := deSerialize_type ht hd
  obtain ⟨d, rfl⟩ : ∃ d, m = .data d := by
    cases m with
    | data d => exact ⟨d, rfl⟩
    | dull | quit | reg | deReg => cases htype
  refine ⟨d, rfl, fun E => E.serialize_ok _ hs, ?_, ?_, ?_⟩
  · intro s ref n toIP toName k e rest hcell hfree
    exact sendTo_decoded hcell hs hfree
  · exact restamps_encoding hm (hs.trans_lt (by decide)) (deSerialize_consumed hd)
  · intro buf c hc
    refine ⟨?_, _, runJobRoutine_encoding hm hs hc, rfl, rfl, rfl⟩
    rw [check_encoding hs hc, hc, MsgObject.encoding_length]
    rfl

def mislabelledData : ReadBytes where
  bytes := encodeHead ⟨4, 7⟩ ++ encodeStrings [[49], [97], []] ++ [9]
  nonempty := by decide
  fits := by decide

theorem forwarded_data_accepted_mislabelled : ∃ d : DataMsg, d.msgLen = 7 ∧
    (MsgObject.data d).encoding.length = 38 ∧
      Restamps (MsgObject.data d).encoding (mislabelledData.bytes.take 38) := by
  have hd : DeSerializeEntity.deSerialize (buffer₀.region mislabelledData)
      = .ok (.data ⟨⟨4, 7⟩, [49], [97], []⟩, 8192 + 38) := by
    have hR : (buffer₀.region mislabelledData).bytes
        = encodeHead ⟨4, 7⟩ ++ encodeStrings [[49], [97], []] ++ [9] := rfl
    exact MsgObject.deSerialize_fields (t := .dataMsg) rfl rfl hR
  obtain ⟨d, hm, _, _, hr, _⟩ :=
    forwarded_data_accepted buffer₀ mislabelledData _ _ (by decide) hd
  cases hm
  exact ⟨_, rfl, by decide, hr⟩

end Forwarding

end Xty.Session
