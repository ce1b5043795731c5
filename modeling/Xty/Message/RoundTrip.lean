import Xty.Message.DeSerialize

/-! Decoding an encoding gives the message back, whatever bytes follow. -/

namespace Xty.Message

open Xty.General.LittleEndian Xty.General.Cursor

section Fields

variable {R : Region} {x z : Bytes}

lemma deSerializeMsgType_reads (t : UInt32)
    (hR : R.bytes = x ++ encode sizeofMsgType t.toNat ++ z) :
    Reads deSerializeMsgType R (R.base + x.length) t (R.base + x.length + sizeofMsgType) := by
  have h := (Reads.chunk (e := ExceptionCode.outOfBufferRange) hR).map
    (fun bs => UInt32.ofNat (decode bs))
  rw [decode_encode _ _ t.toNat_lt, UInt32.ofNat_toNat, encode_length] at h
  rw [deSerializeMsgType]
  simpa only [encode_length] using h

lemma deSerializeSizeT_reads (n : UInt64)
    (hR : R.bytes = x ++ encode sizeofSizeT n.toNat ++ z) :
    Reads deSerializeSizeT R (R.base + x.length) n (R.base + x.length + sizeofSizeT) := by
  have h := (Reads.chunk (e := ExceptionCode.outOfBufferRange) hR).map
    (fun bs => UInt64.ofNat (decode bs))
  rw [decode_encode _ _ n.toNat_lt, UInt64.ofNat_toNat, encode_length] at h
  rw [deSerializeSizeT]
  simpa only [encode_length] using h

lemma deSerializeHead_reads (m : Msg) (hR : R.bytes = x ++ encodeHead m ++ z) :
    Reads deSerializeHead R (R.base + x.length) m (R.base + x.length + 12) := by
  have ht := deSerializeMsgType_reads (R := R) (x := x) m.msgType
    (by rw [hR, encodeHead]; simp only [List.append_assoc]; rfl)
  have hn := deSerializeSizeT_reads (R := R) (x := x ++ encode sizeofMsgType m.msgType.toNat)
    (z := z) m.msgLen (by rw [hR, encodeHead]; simp only [List.append_assoc])
  rw [List.length_append, encode_length, ← Nat.add_assoc] at hn
  exact ht.bind (hn.bind (Reads.pure m))

lemma deSerializeString_reads (s : Bytes) (hs : s.length < 2 ^ 64)
    (hR : R.bytes = x ++ encodeString s ++ z) :
    Reads deSerializeString R (R.base + x.length) s
      (R.base + x.length + (encodeString s).length) := by
  have hl := Reads.chunk (e := ExceptionCode.outOfBufferRange) (R := R) (x := x)
    (y := encode sizeofSizeT s.length) (z := s ++ z)
    (by rw [hR, encodeString]; simp only [List.append_assoc])
  have hc := Reads.chunk (e := ExceptionCode.outOfBufferRange) (R := R)
    (x := x ++ encode sizeofSizeT s.length) (y := s) (z := z)
    (by rw [hR, encodeString]; simp only [List.append_assoc])
  rw [List.length_append, encode_length, ← Nat.add_assoc] at hc
  rw [encode_length] at hl
  have hd : decode (encode sizeofSizeT s.length) = s.length := decode_encode _ _ hs
  rw [encodeString_length, ← Nat.add_assoc]
  exact hl.bind (by rw [hd]; exact hc)

lemma deSerializeStrings_reads (ss : List Bytes) (hs : ∀ s ∈ ss, s.length < 2 ^ 64)
    (hR : R.bytes = x ++ encodeStrings ss ++ z) :
    Reads (deSerializeStrings ss.length) R (R.base + x.length) ss
      (R.base + x.length + (encodeStrings ss).length) := by
  induction ss generalizing x with
  | nil => exact Reads.pure []
  | cons s ss ih =>
    have he : encodeStrings (s :: ss) = encodeString s ++ encodeStrings ss := by
      simp [encodeStrings]
    have hf := deSerializeString_reads (R := R) (x := x) (z := encodeStrings ss ++ z) s
      (hs s (by simp)) (by rw [hR, he]; simp only [List.append_assoc])
    have hr := ih (x := x ++ encodeString s) (fun t ht => hs t (by simp [ht]))
      (by rw [hR, he]; simp only [List.append_assoc])
    rw [List.length_append, ← Nat.add_assoc] at hr
    rw [he, List.length_append, ← Nat.add_assoc]
    exact hf.bind (hr.bind (Reads.pure _))

end Fields

lemma length_le_serializedSize {ss : List Bytes} {s : Bytes} (hs : s ∈ ss) :
    s.length ≤ serializedSize ss := by
  have h := List.single_le_sum (l := ss.map fun s => sizeofSizeT + s.length) (by simp)
    _ (List.mem_map_of_mem hs)
  unfold serializedSize
  omega

namespace MsgObject

lemma measured_type (m : MsgObject) : m.measured.type = m.type := setHead_type _ _

lemma measured_strings (m : MsgObject) : m.measured.strings = m.strings := setHead_strings _ _

lemma measured_measured (m : MsgObject) : m.measured.measured = m.measured := by
  cases m <;> rfl

lemma encoding_measured (m : MsgObject) : m.measured.encoding = m.encoding := by
  rw [encoding, measured_measured, measured_strings]
  rfl

lemma measured_tagged {m : MsgObject} (hm : m.Tagged) :
    m.measured.head.msgType = m.type.code := by
  rw [measured, setHead_head]
  exact hm

lemma Tagged.measured {m : MsgObject} (hm : m.Tagged) : m.measured.Tagged := by
  rw [Tagged, measured_type]
  exact measured_tagged hm

lemma measured_msgLen {m : MsgObject} (hm : m.encodedSize < 2 ^ 64) :
    m.measured.head.msgLen.toNat = m.encodedSize := by
  rw [measured, setHead_head]
  exact Nat.mod_eq_of_lt hm

lemma deSerialize_fields {R : Region} {t : MsgType} {h : Msg} {ss : List Bytes} {rest : Bytes}
    (ht : h.msgType = t.code) (hl : ss.length = t.stringCount)
    (hR : R.bytes = encodeHead h ++ encodeStrings ss ++ rest) :
    DeSerializeEntity.deSerialize R = .ok (t.assemble h ss, R.base + serializedSize ss) := by
  have hbytes : R.bytes = encode sizeofMsgType t.code.toNat
      ++ (encode sizeofSizeT h.msgLen.toNat ++ encodeStrings ss ++ rest) := by
    rw [hR, encodeHead, ht]
    simp only [List.append_assoc]
  have hp : DeSerializeEntity.prepare R = .ok t.create := by
    refine DeSerializeEntity.prepare_ok t ?_ ?_
    · rw [hbytes, List.length_append, encode_length]
      omega
    · rw [hbytes, List.take_left' (encode_length _ _), decode_encode _ _ t.code.toNat_lt]
  have hsize : 12 + (encodeStrings ss).length = serializedSize ss := by
    rw [encodeStrings_length]
    rfl
  have hlt : ∀ s ∈ ss, s.length < 2 ^ 64 := by
    intro s hs
    have hle := length_le_serializedSize hs
    have hfits := R.fits
    rw [hR, List.length_append, List.length_append, encodeHead_length, addressSpace] at hfits
    omega
  have hh := deSerializeHead_reads (R := R) (x := []) h (by rw [hR, List.append_assoc]; rfl)
  have hs := deSerializeStrings_reads (R := R) (x := encodeHead h) (z := rest) ss hlt hR
  rw [hl, Nat.add_assoc, encodeHead_length, hsize] at hs
  have hr : Reads t.create.deSerialize R R.base (t.assemble h ss) (R.base + serializedSize ss) := by
    rw [deSerialize_eq, create_type]
    exact hh.bind (hs.bind (Reads.pure _))
  rw [DeSerializeEntity.deSerialize_of_prepare hp]
  exact hr

lemma deSerialize_encoding {m : MsgObject} (hm : m.Tagged) {R : Region} {t : Bytes}
    (hR : R.bytes = m.encoding ++ t) :
    DeSerializeEntity.deSerialize R = .ok (m.measured, R.base + m.encodedSize) := by
  have hd := deSerialize_fields (measured_tagged hm) m.strings_length hR
  rw [hd, assemble_strings]
  cases m <;> rfl

lemma measured_of_append {m n : MsgObject} (hm : m.Tagged) (hn : n.Tagged)
    (hms : m.encodedSize ≤ serializeBufLen) (hns : n.encodedSize ≤ serializeBufLen)
    {t u : Bytes} (h : m.encoding ++ t = n.encoding ++ u) : m.measured = n.measured := by
  wlog hle : m.encodedSize ≤ n.encodedSize generalizing m n t u with hw
  · exact (hw hn hm hns hms h.symm (by omega)).symm
  have hcut := congrArg (List.take n.encoding.length) h
  rw [List.take_left, List.take_append, List.take_of_length_le
    (by rw [encoding_length, encoding_length]; exact hle)] at hcut
  -- one region that starts with both encodings
  rw [serializeBufLen] at hns
  let R : Region := ⟨0, n.encoding, [], by
    rw [encoding_length, addressSpace]; simp; omega⟩
  have hdm := deSerialize_encoding hm (R := R) hcut.symm
  have hdn := deSerialize_encoding hn (R := R) (t := []) (by simp [R])
  rw [hdm] at hdn
  exact (Prod.mk.inj (Except.ok.inj hdn)).1

lemma encoding_append_inj {m n : MsgObject} (hm : m.Tagged) (hn : n.Tagged)
    (hms : m.encodedSize ≤ serializeBufLen) (hns : n.encodedSize ≤ serializeBufLen)
    {t u : Bytes} (h : m.encoding ++ t = n.encoding ++ u) :
    m.type = n.type ∧ m.strings = n.strings ∧ t = u := by
  have he := measured_of_append hm hn hms hns h
  have ht : m.type = n.type := by rw [← measured_type m, he, measured_type]
  have hs : m.strings = n.strings := by rw [← measured_strings m, he, measured_strings]
  refine ⟨ht, hs, ?_⟩
  have : m.encoding = n.encoding := by rw [encoding, encoding, he, hs]
  rw [this] at h
  exact List.append_cancel_left h

end MsgObject

/-- Every entity encodes a message that fits its buffer; decoding the encoding in front of any
bytes gives the message back and stops behind it, and no two messages share an encoding. -/
theorem serialize_round_trip (E : SerializeEntity) (m : MsgObject) (hm : m.Tagged)
    (hs : m.encodedSize ≤ serializeBufLen) :
    ∃ bytes sent, E.serialize m = .ok (bytes, sent) ∧ bytes.length = m.encodedSize ∧
      (∀ (t : Bytes) (R : Region), R.bytes = bytes ++ t →
        ∃ m', DeSerializeEntity.deSerialize R = .ok (m', R.base + bytes.length) ∧
          m'.type = m.type ∧ m'.head.msgType = m.head.msgType ∧ m'.strings = m.strings ∧
          m'.head.msgLen.toNat = m.encodedSize) ∧
      (∀ (E' : SerializeEntity) (n : MsgObject) (bytes' : Bytes) (sent' : MsgObject), n.Tagged →
        n.encodedSize ≤ serializeBufLen → E'.serialize n = .ok (bytes', sent') →
        ∀ t u : Bytes, bytes ++ t = bytes' ++ u →
          m.type = n.type ∧ m.strings = n.strings ∧ t = u) := by
  have hlt : m.encodedSize < 2 ^ 64 := by
    unfold serializeBufLen at hs
    omega
  refine ⟨m.encoding, m.measured, E.serialize_ok m hs, m.encoding_length, ?_, ?_⟩
  · intro t R hR
    refine ⟨m.measured, ?_, m.measured_type, ?_, m.measured_strings, m.measured_msgLen hlt⟩
    · rw [m.encoding_length]
      exact m.deSerialize_encoding hm hR
    · rw [MsgObject.measured_tagged hm, hm]
  · intro E' n bytes' sent' hn hns hE' t u h
    rw [E'.serialize_ok n hns] at hE'
    obtain ⟨rfl, rfl⟩ := Prod.mk.inj (Except.ok.inj hE')
    exact MsgObject.encoding_append_inj hm hn hs hns h

theorem serialize_round_trip_reg :
    ∃ bytes sent,
      (⟨0, false, by decide⟩ : SerializeEntity).serialize
        (.reg ⟨⟨2, 0⟩, [97, 0], [], [53]⟩) = .ok (bytes, sent) ∧ bytes.length = 39 :=
  have h := serialize_round_trip ⟨0, false, by decide⟩ (.reg ⟨⟨2, 0⟩, [97, 0], [], [53]⟩)
    (by decide) (by decide)
  let ⟨bytes, sent, he, hl, _⟩ := h
  ⟨bytes, sent, he, hl⟩

end Xty.Message
