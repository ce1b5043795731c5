import Xty.Message.Bounds
import Xty.Message.RoundTrip

/-! The byte strings that the decoder accepts, and what it makes of them. -/

namespace Xty.Message

open Xty.General.LittleEndian Xty.General.Cursor

/-- A type, a length field that may say anything, and the strings of the type in front of
whatever follows. -/
def WellFormed (bs : Bytes) : Prop :=
  ∃ (t : MsgType) (n : UInt64) (ss : List Bytes) (rest : Bytes),
    ss.length = t.stringCount ∧ bs = encodeHead ⟨t.code, n⟩ ++ encodeStrings ss ++ rest

section Inversion

variable {R : Region} {x y : Bytes} {b : ℕ}

lemma deSerializeMsgType_inv {t : UInt32} (hR : R.bytes = x ++ y)
    (h : deSerializeMsgType R (R.base + x.length) = .ok (t, b)) :
    ∃ z, y = encode sizeofMsgType t.toNat ++ z ∧
      b = R.base + (x ++ encode sizeofMsgType t.toNat).length := by
  rw [deSerializeMsgType, map_eq_pure_bind] at h
  obtain ⟨bs, c, hread, hret⟩ := read_bind_inv h
  cases hret
  obtain ⟨z, hy, hl, hb⟩ := chunk_inv hR (by decide) hread
  have hd := decode_lt bs
  rw [hl] at hd
  have hbs : encode sizeofMsgType (UInt32.ofNat (decode bs)).toNat = bs := by
    rw [UInt32.toNat_ofNat_of_lt' (by exact hd), ← hl, encode_decode]
  rw [hbs]
  exact ⟨z, hy, hb⟩

lemma deSerializeSizeT_inv {n : UInt64} (hR : R.bytes = x ++ y)
    (h : deSerializeSizeT R (R.base + x.length) = .ok (n, b)) :
    ∃ z, y = encode sizeofSizeT n.toNat ++ z ∧
      b = R.base + (x ++ encode sizeofSizeT n.toNat).length := by
  rw [deSerializeSizeT, map_eq_pure_bind] at h
  obtain ⟨bs, c, hread, hret⟩ := read_bind_inv h
  cases hret
  obtain ⟨z, hy, hl, hb⟩ := chunk_inv hR (by decide) hread
  have hd := decode_lt bs
  rw [hl] at hd
  have hbs : encode sizeofSizeT (UInt64.ofNat (decode bs)).toNat = bs := by
    rw [UInt64.toNat_ofNat_of_lt' (by exact hd), ← hl, encode_decode]
  rw [hbs]
  exact ⟨z, hy, hb⟩

lemma deSerializeHead_inv {m : Msg} (hR : R.bytes = x ++ y)
    (h : deSerializeHead R (R.base + x.length) = .ok (m, b)) :
    ∃ z, y = encodeHead m ++ z ∧ b = R.base + (x ++ encodeHead m).length := by
  obtain ⟨t, c, ht, h⟩ := read_bind_inv h
  obtain ⟨n, d, hn, h⟩ := read_bind_inv h
  cases h
  obtain ⟨z, rfl, rfl⟩ := deSerializeMsgType_inv hR ht
  obtain ⟨w, rfl, rfl⟩ := deSerializeSizeT_inv (by rw [hR, List.append_assoc]) hn
  refine ⟨w, ?_, ?_⟩
  · rw [encodeHead, List.append_assoc]
  · rw [encodeHead, List.append_assoc]

lemma deSerializeString_inv {s : Bytes} (hR : R.bytes = x ++ y)
    (h : deSerializeString R (R.base + x.length) = .ok (s, b)) :
    ∃ z, y = encodeString s ++ z ∧ b = R.base + (x ++ encodeString s).length := by
  obtain ⟨l, c, hl, h⟩ := read_bind_inv h
  obtain ⟨z, rfl, hlen, rfl⟩ := chunk_inv hR (by decide) hl
  have hd := decode_lt l
  rw [hlen] at hd
  obtain ⟨w, rfl, hs, rfl⟩ := chunk_inv (by rw [hR, List.append_assoc]) hd h
  have he : encode sizeofSizeT s.length = l := by rw [hs, ← hlen, encode_decode]
  refine ⟨w, ?_, ?_⟩
  · rw [encodeString, he, List.append_assoc]
  · rw [encodeString, he, List.append_assoc]

lemma deSerializeStrings_inv {n : ℕ} {ss : List Bytes} (hR : R.bytes = x ++ y)
    (h : deSerializeStrings n R (R.base + x.length) = .ok (ss, b)) :
    ss.length = n ∧ ∃ z, y = encodeStrings ss ++ z ∧
      b = R.base + (x ++ encodeStrings ss).length := by
  induction n generalizing x y ss with
  | zero =>
    cases h
    exact ⟨rfl, y, rfl, by simp [encodeStrings]⟩
  | succ n ih =>
    obtain ⟨s, c, hs, h⟩ := read_bind_inv h
    obtain ⟨ts, d, hts, h⟩ := read_bind_inv h
    cases h
    obtain ⟨z, rfl, rfl⟩ := deSerializeString_inv hR hs
    obtain ⟨hl, w, rfl, rfl⟩ := ih (by rw [hR, List.append_assoc]) hts
    refine ⟨by rw [List.length_cons, hl], w, ?_, ?_⟩
    · simp [encodeStrings, List.append_assoc]
    · simp [encodeStrings, List.append_assoc]

end Inversion

/-- The decoder takes the type from the first four bytes, whether or not the buffer has them. -/
def HeadType (R : Region) (t : MsgType) : Prop :=
  R.fetch R.base sizeofMsgType = some (encode sizeofMsgType t.code.toNat)

section Accepting

variable {R : Region} {m : MsgObject} {b : ℕ}

lemma createMsgFunArray_some {n : ℕ} (h : createMsgFunArray[n]? = some (some m)) :
    ∃ t : MsgType, n = t.code.toNat ∧ m = t.create := by
  match n, h with
  | 0, h => exact ⟨.dullMsg, rfl, (Option.some.inj (Option.some.inj h)).symm⟩
  | 1, h => exact ⟨.quitMsg, rfl, (Option.some.inj (Option.some.inj h)).symm⟩
  | 2, h => exact ⟨.regMsg, rfl, (Option.some.inj (Option.some.inj h)).symm⟩
  | 3, h => exact ⟨.deRegMsg, rfl, (Option.some.inj (Option.some.inj h)).symm⟩
  | 4, h => exact ⟨.dataMsg, rfl, (Option.some.inj (Option.some.inj h)).symm⟩
  | 5, h => cases Option.some.inj h
  | _ + 6, h => cases h

lemma Region.fetch_length {a n : ℕ} {bs : Bytes} (h : R.fetch a n = some bs) : bs.length = n := by
  rw [Region.fetch] at h
  split_ifs at h with hin
  obtain rfl := Option.some.inj h
  rw [List.length_take, List.length_drop, List.length_append]
  rw [Region.stop] at hin
  omega

lemma prepare_inv (h : DeSerializeEntity.prepare R = .ok m) :
    ∃ t : MsgType, HeadType R t ∧ m = t.create := by
  rw [DeSerializeEntity.prepare, DeSerializeEntity.prepareAt] at h
  split at h
  · cases h
  · next bs hbs =>
    split at h
    · next c hc =>
      obtain rfl := Except.ok.inj h
      obtain ⟨t, ht, rfl⟩ := createMsgFunArray_some hc
      have hl : bs.length = sizeofMsgType := Region.fetch_length hbs
      refine ⟨t, ?_, rfl⟩
      rw [HeadType, ← ht, ← hl, encode_decode, hl]
      exact hbs
    · cases h

lemma HeadType.prepare {t : MsgType} (h : HeadType R t) :
    DeSerializeEntity.prepare R = .ok t.create := by
  have hd : decode (encode sizeofMsgType t.code.toNat) = t.code.toNat :=
    decode_encode _ _ t.code.toNat_lt
  rw [HeadType] at h
  simp only [DeSerializeEntity.prepare, DeSerializeEntity.prepareAt, Region.window_fetch, h, hd,
    createMsgFunArray_code]

lemma deSerialize_undefined (h : ∀ t, ¬ HeadType R t) :
    DeSerializeEntity.deSerialize R = .error .undefined := by
  have hp : DeSerializeEntity.prepare R = .error .undefined := by
    cases hp : DeSerializeEntity.prepare R with
    | error x =>
      rw [DeSerializeEntity.prepare, DeSerializeEntity.prepareAt] at hp
      split at hp
      · exact hp.symm
      · split at hp
        · cases hp
        · exact hp.symm
    | ok c =>
      obtain ⟨t, ht, _⟩ := prepare_inv hp
      exact absurd ht (h t)
  rw [DeSerializeEntity.prepare] at hp
  rw [DeSerializeEntity.deSerialize, DeSerializeEntity.deSerializeAt, hp]

lemma fetch_head {head : Msg} {z : Bytes} (hz : R.bytes = encodeHead head ++ z) :
    R.fetch R.base sizeofMsgType = some (encode sizeofMsgType head.msgType.toNat) := by
  have hlen : sizeofMsgType ≤ R.bytes.length := by
    rw [hz, List.length_append, encodeHead_length, sizeofMsgType]
    omega
  rw [fetch_type hlen, hz, encodeHead]
  simp [List.append_assoc, List.take_left']

lemma deSerialize_inv (h : DeSerializeEntity.deSerialize R = .ok (m, b)) :
    m.Tagged ∧ b = R.base + m.encodedSize ∧
      ∃ rest, R.bytes = encodeHead m.head ++ encodeStrings m.strings ++ rest := by
  by_cases hp : ∃ t, HeadType R t
  · obtain ⟨t, ht⟩ := hp
    rw [DeSerializeEntity.deSerialize_of_prepare ht.prepare, MsgObject.deSerialize_eq,
      MsgObject.create_type] at h
    obtain ⟨head, c, hhead, h⟩ := read_bind_inv h
    obtain ⟨ss, d, hss, h⟩ := read_bind_inv h
    cases h
    obtain ⟨z, hz, rfl⟩ := deSerializeHead_inv (x := []) (List.nil_append _).symm hhead
    rw [List.nil_append] at hss
    obtain ⟨hl, rest, rfl, rfl⟩ := deSerializeStrings_inv hz hss
    obtain ⟨hmh, hms⟩ := MsgType.assemble_fields head t ss hl
    -- both reads of the type see the same four bytes
    rw [HeadType, fetch_head hz] at ht
    have hcode := congrArg decode (Option.some.inj ht)
    rw [decode_encode _ _ head.msgType.toNat_lt, decode_encode _ _ t.code.toNat_lt] at hcode
    refine ⟨?_, ?_, rest, ?_⟩
    · rw [MsgObject.Tagged, hmh, MsgType.assemble_type head t ss hl]
      exact UInt32.toNat_inj.mp hcode
    · rw [MsgObject.encodedSize, hms, List.length_append, encodeHead_length, encodeStrings_length]
      rfl
    · rw [hmh, hms, hz, List.append_assoc]
  · rw [deSerialize_undefined (not_exists.mp hp)] at h
    cases h

lemma deSerialize_headType (h : DeSerializeEntity.deSerialize R = .ok (m, b)) :
    HeadType R m.type := by
  obtain ⟨htag, _, rest, hbytes⟩ := deSerialize_inv h
  rw [HeadType, fetch_head (hbytes.trans (List.append_assoc _ _ _)), htag]

lemma deSerialize_type {t : MsgType} (ht : HasType R t)
    (h : DeSerializeEntity.deSerialize R = .ok (m, b)) : m.type = t := by
  obtain ⟨hm, _, rest, hbytes⟩ := deSerialize_inv h
  obtain ⟨_, hcode⟩ := ht
  rw [hbytes, encodeHead, hm] at hcode
  simp only [List.append_assoc] at hcode
  rw [List.take_left' (encode_length _ _), decode_encode _ _ m.type.code.toNat_lt] at hcode
  exact MsgType.code_injective (UInt32.toNat_inj.mp hcode)

lemma deSerialize_consumed (h : DeSerializeEntity.deSerialize R = .ok (m, b)) :
    R.bytes.take (b - R.base) = encodeHead m.head ++ encodeStrings m.strings := by
  obtain ⟨_, rfl, rest, hbytes⟩ := deSerialize_inv h
  rw [Nat.add_sub_cancel_left, hbytes, List.take_left']
  rw [List.length_append, encodeHead_length, encodeStrings_length]
  rfl

lemma accepted_iff :
    (∃ m b, DeSerializeEntity.deSerialize R = .ok (m, b)) ↔ WellFormed R.bytes := by
  constructor
  · rintro ⟨m, b, h⟩
    obtain ⟨hm, _, rest, hbytes⟩ := deSerialize_inv h
    refine ⟨m.type, m.head.msgLen, m.strings, rest, m.strings_length, ?_⟩
    rw [← hm]
    exact hbytes
  · rintro ⟨t, n, ss, rest, hl, hbytes⟩
    exact ⟨_, _, MsgObject.deSerialize_fields rfl hl hbytes⟩

lemma onlyRaises_strings (n : ℕ) : OnlyRaises .outOfBufferRange (deSerializeStrings n) := by
  induction n with
  | zero => exact OnlyRaises.pure _
  | succ n ih =>
    refine OnlyRaises.bind (OnlyRaises.bind (OnlyRaises.read _) fun l => OnlyRaises.read _) ?_
    exact fun s => ih.bind fun ss => OnlyRaises.pure _

lemma onlyRaises_head : OnlyRaises .outOfBufferRange deSerializeHead := by
  have hread : ∀ (α : Type) (n : ℕ) (f : Bytes → α),
      OnlyRaises ExceptionCode.outOfBufferRange (f <$> checkedRead .outOfBufferRange n) := by
    intro α n f
    rw [map_eq_pure_bind]
    exact (OnlyRaises.read n).bind fun bs => OnlyRaises.pure _
  exact (hread _ _ _).bind fun t => (hread _ _ _).bind fun n => OnlyRaises.pure _

lemma deSerialize_raises {x : ExceptionCode}
    (h : DeSerializeEntity.deSerialize R = .error (.raised x)) : x = .outOfBufferRange := by
  by_cases ht : ∃ t, HeadType R t
  · obtain ⟨t, ht⟩ := ht
    rw [DeSerializeEntity.deSerialize_of_prepare ht.prepare, MsgObject.deSerialize_eq] at h
    refine OnlyRaises.bind onlyRaises_head (fun m => ?_) _ _ _ h
    exact (onlyRaises_strings _).bind fun ss => OnlyRaises.pure _
  · rw [deSerialize_undefined (not_exists.mp ht)] at h
    cases h

lemma isSlice_of_append {x s z : Bytes} (hR : R.bytes = x ++ s ++ z) : IsSlice R s := by
  refine ⟨R.base + x.length, by omega, ?_, ?_⟩
  · rw [Region.stop, hR, List.length_append, List.length_append]
    omega
  · rw [Region.slice, hR]
    simp [List.append_assoc]

lemma isSlice_strings {ss : List Bytes} {x z : Bytes} (hR : R.bytes = x ++ encodeStrings ss ++ z) :
    ∀ s ∈ ss, IsSlice R s := by
  intro s hs
  obtain ⟨l, l', rfl⟩ := List.append_of_mem hs
  refine isSlice_of_append (x := x ++ encodeStrings l ++ encode sizeofSizeT s.length)
    (z := encodeStrings l' ++ z) ?_
  rw [hR]
  simp [encodeStrings, encodeString, List.append_assoc]

lemma staysInside_of_ok (h : DeSerializeEntity.deSerialize R = .ok (m, b)) : StaysInside R := by
  obtain ⟨_, rfl, rest, hbytes⟩ := deSerialize_inv h
  rw [StaysInside, h]
  refine ⟨by omega, ?_, isSlice_strings hbytes⟩
  rw [Region.stop, hbytes, List.length_append, List.length_append, encodeHead_length,
    encodeStrings_length, MsgObject.encodedSize, serializedSize, sizeofMsgType, sizeofSizeT]
  omega

end Accepting

/-- A chunk is decoded exactly if it begins with a well-formed encoding, any other raises an
exception, and the entry of the array that is called is one of the five creators. -/
structure DecodesExactly (R : Region) : Prop where
  accepted : (∃ m b, DeSerializeEntity.deSerialize R = .ok (m, b)) ↔ WellFormed R.bytes
  rejected : ¬ WellFormed R.bytes → ∃ e, DeSerializeEntity.deSerialize R = .error (.raised e)
  creator : ∃ t, HeadType R t

section Exactness

variable {R : Region} {t : MsgType}

lemma HeadType.hasType (h : HeadType R t) (hn : sizeofMsgType ≤ R.bytes.length) : HasType R t := by
  refine ⟨hn, ?_⟩
  rw [HeadType, fetch_type hn] at h
  rw [Option.some.inj h, decode_encode _ _ t.code.toNat_lt]

lemma HeadType.short (h : HeadType R t) (hn : R.bytes.length < sizeofMsgType)
    (hb : R.base + 12 < addressSpace) :
    DeSerializeEntity.deSerialize R = .error (.raised .outOfBufferRange) := by
  have hr : checkedRead ExceptionCode.outOfBufferRange sizeofMsgType R R.base
      = .error (.raised .outOfBufferRange) := by
    refine checkedRead_raised ?_ ?_
    · rw [Region.stop]
      omega
    · rw [sizeofMsgType]
      omega
  rw [DeSerializeEntity.deSerialize_of_prepare h.prepare, MsgObject.deSerialize_eq, bind_apply,
    deSerializeHead, bind_apply, deSerializeMsgType, map_apply, hr]

lemma decodesExactly_iff (hb : R.base + 12 < addressSpace) :
    DecodesExactly R ↔ ∃ t, HeadType R t ∧ DoesNotWrap R t := by
  constructor
  · intro h
    obtain ⟨t, ht⟩ := h.creator
    refine ⟨t, ht, ?_⟩
    by_cases hn : sizeofMsgType ≤ R.bytes.length
    · rw [← staysInside_iff (ht.hasType hn)]
      by_cases hw : WellFormed R.bytes
      · obtain ⟨m, b, hok⟩ := h.accepted.mpr hw
        exact staysInside_of_ok hok
      · obtain ⟨e, he⟩ := h.rejected hw
        obtain rfl := deSerialize_raises he
        rw [StaysInside, he]
    · have hs : R.stop < R.base + 12 := by
        rw [Region.stop]
        rw [sizeofMsgType] at hn
        omega
      exact ⟨hb, fun hin => absurd hin (by omega)⟩
  · rintro ⟨t, ht, hw⟩
    refine ⟨accepted_iff, fun hill => ⟨.outOfBufferRange, ?_⟩, t, ht⟩
    by_cases hn : sizeofMsgType ≤ R.bytes.length
    · have hin := (staysInside_iff (ht.hasType hn)).mpr hw
      rw [StaysInside] at hin
      cases hd : DeSerializeEntity.deSerialize R with
      | ok p => exact absurd (accepted_iff.mp ⟨p.1, p.2, hd⟩) hill
      | error x =>
        rw [hd] at hin
        rw [hin]
    · exact ht.short (by omega) hb

end Exactness

end Xty.Message
