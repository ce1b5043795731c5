import Xty.Session.RecvJob

/-! Which chunks a session delivers, and as which message. -/

namespace Xty.Session

open Xty.General.LittleEndian Xty.General.Cursor
open Xty.Message

/-- The chunk begins with the type, the length field and the strings of `m`, and the length field
counts the bytes of the chunk. -/
structure BeginsWith (d : RecvData) (m : MsgObject) : Prop where
  tagged : m.Tagged
  length : m.head.msgLen.toNat = d.bytes.length
  fields : ∃ rest, d.bytes = encodeHead m.head ++ encodeStrings m.strings ++ rest

section Delivering

variable {b : RecvBuf} {d : RecvData} {m : MsgObject}

lemma pushed_inv (hlen : d.lengthField.toNat < 2 ^ 32) (h : runJobRoutine b d = .pushed m) :
    BeginsWith d m := by
  rw [runJobRoutine] at h
  cases hc : check d with
  | incompleteHead => simp [hc] at h
  | incorrectLength => simp [hc] at h
  | passed len =>
    obtain ⟨_, hlow, rfl⟩ := check_passed.mp hc
    rw [Nat.mod_eq_of_lt hlen] at hlow
    simp only [hc, window_received hlow] at h
    split at h
    · next n a hd =>
      cases h
      obtain ⟨ht, _, rest, hbytes⟩ := deSerialize_inv (R := b.region d) hd
      refine ⟨ht, ?_, rest, hbytes⟩
      rw [← hlow, lengthField_head (z := encodeStrings m.strings ++ rest)]
      exact hbytes.trans (List.append_assoc _ _ _)
    · cases h
    · cases h

lemma BeginsWith.lengthField (h : BeginsWith d m) : d.lengthField = m.head.msgLen := by
  obtain ⟨rest, hbytes⟩ := h.fields
  exact lengthField_head (hbytes.trans (List.append_assoc _ _ _))

lemma BeginsWith.size_le (h : BeginsWith d m) : m.encodedSize ≤ d.bytes.length := by
  obtain ⟨rest, hbytes⟩ := h.fields
  rw [hbytes, List.length_append, List.length_append, encodeHead_length, encodeStrings_length,
    MsgObject.encodedSize, serializedSize, sizeofMsgType, sizeofSizeT]
  omega

lemma BeginsWith.pushed (h : BeginsWith d m) : runJobRoutine b d = .pushed m := by
  have hlow : d.lengthField.toNat = d.bytes.length := by rw [h.lengthField, h.length]
  have hhead : 12 ≤ d.bytes.length := by
    have hs := h.size_le
    rw [MsgObject.encodedSize, serializedSize, sizeofMsgType, sizeofSizeT] at hs
    omega
  have hpass : check d = .passed d.lengthField := by
    have hfits := d.fits
    rw [serializeBufLen] at hfits
    exact check_passed.mpr ⟨hhead, by rw [hlow, Nat.mod_eq_of_lt (by omega)], rfl⟩
  obtain ⟨rest, hbytes⟩ := h.fields
  have hd : DeSerializeEntity.deSerializeAt (b.region d).window b.base
      = .ok (m.type.assemble m.head m.strings, b.base + serializedSize m.strings) :=
    MsgObject.deSerialize_fields (R := b.region d) h.tagged m.strings_length hbytes
  have hm : m.type.assemble m.head m.strings = m := by
    rw [MsgObject.assemble_strings]
    cases m <;> rfl
  rw [runJobRoutine, hpass]
  simp only [window_received hlow, hd, hm]

lemma pushed_iff (hlen : d.lengthField.toNat < 2 ^ 32) :
    runJobRoutine b d = .pushed m ↔ BeginsWith d m :=
  ⟨pushed_inv hlen, BeginsWith.pushed⟩

lemma BeginsWith.encoding_iff (h : BeginsWith d m) :
    d.bytes = m.encoding ↔ d.bytes.length = m.encodedSize := by
  constructor
  · intro he
    rw [he, m.encoding_length]
  · intro hl
    obtain ⟨rest, hbytes⟩ := h.fields
    have hrest : rest = [] := by
      have hlen := congrArg List.length hbytes
      rw [hl, MsgObject.encodedSize, serializedSize, List.length_append, List.length_append,
        encodeHead_length, encodeStrings_length, sizeofMsgType, sizeofSizeT] at hlen
      exact List.eq_nil_of_length_eq_zero (by omega)
    have hmsgLen : UInt64.ofNat m.encodedSize = m.head.msgLen := by
      rw [← hl, ← h.length, UInt64.ofNat_toNat]
    have hhead : m.measured.head = m.head := by
      rw [MsgObject.measured, MsgObject.setHead_head, Msg.withLen]
      exact congrArg (Msg.mk _) hmsgLen
    rw [hbytes, hrest, List.append_nil, MsgObject.encoding, hhead]

/-- The length field of a chunk that stops short of the end of an encoding counts too many bytes. -/
lemma not_pushed_of_prefix {n : MsgObject} (hs : n.encodedSize < 2 ^ 64)
    (hlen : d.lengthField.toNat < 2 ^ 32) (hp : d.bytes <+: n.encoding)
    (hne : d.bytes ≠ n.encoding) :
    runJobRoutine b d ≠ .pushed m := by
  intro h
  have hm := pushed_inv hlen h
  have hhead : encodeHead n.measured.head <+: d.bytes := by
    refine List.prefix_of_prefix_length_le (List.prefix_append _ _) hp ?_
    have hle := hm.size_le
    rw [MsgObject.encodedSize, serializedSize, sizeofMsgType, sizeofSizeT] at hle
    rw [encodeHead_length]
    omega
  obtain ⟨z, hz⟩ := hhead
  have hl := hm.length
  rw [← hm.lengthField, lengthField_head hz.symm, MsgObject.measured_msgLen hs,
    ← n.encoding_length] at hl
  exact hne (hp.eq_of_length hl.symm)

lemma dropped_of_not_beginsWith {t : MsgType} (ht : HasType (b.region d) t)
    (hlen : d.lengthField.toNat < 2 ^ 32) (hw : DoesNotWrap (b.region d) t)
    (h : ∀ m, ¬ BeginsWith d m) :
    runJobRoutine b d = .incompleteHead ∨ runJobRoutine b d = .incorrectLength ∨
      runJobRoutine b d = .dumped .outOfBufferRange := by
  have hnot : ∀ m, runJobRoutine b d ≠ .pushed m := fun m hm => h m (pushed_inv hlen hm)
  rw [runJobRoutine] at hnot ⊢
  cases hc : check d with
  | incompleteHead => exact Or.inl rfl
  | incorrectLength => exact Or.inr (Or.inl rfl)
  | passed len =>
    obtain ⟨_, hlow, rfl⟩ := check_passed.mp hc
    rw [Nat.mod_eq_of_lt hlen] at hlow
    have hwin : DeSerializeEntity.deSerializeAt (b.window d d.lengthField) b.base
        = DeSerializeEntity.deSerialize (b.region d) := by
      rw [window_received hlow]
      rfl
    have hin := (staysInside_iff ht).mpr hw
    rw [StaysInside] at hin
    simp only [hc, hwin] at hnot ⊢
    cases hd : DeSerializeEntity.deSerialize (b.region d) with
    | ok p =>
      simp only [hd] at hnot
      exact absurd rfl (hnot p.1)
    | error x =>
      rw [hd] at hin
      simp only [hin, or_true]

/-- A chunk is pushed as the message it begins with. Bytes behind the decoded fields are not looked
at; they are what keeps such a chunk from being the encoding of the message. -/
theorem chunk_pushed_iff (b : RecvBuf) (d : RecvData) (t : MsgType) (ht : HasType (b.region d) t)
    (hlen : d.lengthField.toNat < 2 ^ 32) :
    (∀ m, runJobRoutine b d = .pushed m ↔ BeginsWith d m) ∧
      (∀ m, runJobRoutine b d = .pushed m →
        (d.bytes = m.encoding ↔ d.bytes.length = m.encodedSize)) ∧
      (∀ m : MsgObject, m.Tagged → d.bytes = m.encoding → runJobRoutine b d = .pushed m.measured) ∧
      (∀ n : MsgObject, n.encodedSize < 2 ^ 64 → d.bytes <+: n.encoding → d.bytes ≠ n.encoding →
        ∀ m, runJobRoutine b d ≠ .pushed m) ∧
      (d.lengthField.toNat ≠ d.bytes.length → ∀ m, runJobRoutine b d ≠ .pushed m) ∧
      (DoesNotWrap (b.region d) t → (∀ m, ¬ BeginsWith d m) →
        runJobRoutine b d = .incompleteHead ∨ runJobRoutine b d = .incorrectLength ∨
          runJobRoutine b d = .dumped .outOfBufferRange) := by
  refine ⟨fun m => pushed_iff hlen, ?_, ?_, ?_, ?_, ?_⟩
  · intro m h
    exact (pushed_inv hlen h).encoding_iff
  · intro m hm h
    refine runJobRoutine_encoding hm ?_ h
    rw [← m.encoding_length, ← h]
    exact d.fits
  · intro n hs hp hne m
    exact not_pushed_of_prefix hs hlen hp hne
  · intro hne m h
    have hm := pushed_inv hlen h
    exact hne (by rw [hm.lengthField, hm.length])
  · exact dropped_of_not_beginsWith ht hlen

def overfullReg : RecvData where
  bytes := encodeHead ⟨2, 37⟩ ++ encodeStrings [[], [], []] ++ [7]
  nonempty := by decide
  fits := by decide

lemma overfullReg_beginsWith : BeginsWith overfullReg (.reg ⟨⟨2, 37⟩, [], [], []⟩) :=
  ⟨rfl, rfl, [7], rfl⟩

theorem chunk_pushed_iff_overfull :
    overfullReg.lengthField.toNat < 2 ^ 32 ∧
      runJobRoutine ⟨8192, [], by decide⟩ overfullReg = .pushed (.reg ⟨⟨2, 37⟩, [], [], []⟩) := by
  have hlen : overfullReg.lengthField.toNat < 2 ^ 32 := by decide +kernel
  obtain ⟨hpushed, _⟩ := chunk_pushed_iff ⟨8192, [], by decide⟩ overfullReg .regMsg (by decide) hlen
  exact ⟨hlen, (hpushed _).mpr overfullReg_beginsWith⟩

theorem overfull_chunk_delivered : ∃ (b : RecvBuf) (n : MsgObject),
    HasType (b.region overfullReg) .regMsg ∧ runJobRoutine b overfullReg = .pushed n ∧
      ∀ m : MsgObject, m.Tagged → overfullReg.bytes ≠ m.encoding := by
  let b : RecvBuf := ⟨8192, [], by decide⟩
  have hpush : runJobRoutine b overfullReg = .pushed (.reg ⟨⟨2, 37⟩, [], [], []⟩) :=
    overfullReg_beginsWith.pushed
  refine ⟨b, _, by decide, hpush, ?_⟩
  intro m hm he
  have hsize : m.encodedSize = 37 := by
    rw [← m.encoding_length, ← he]
    rfl
  have hown : runJobRoutine b overfullReg = .pushed m.measured :=
    runJobRoutine_encoding hm (by rw [hsize]; decide) he
  rw [hpush] at hown
  have hstrings : m.strings = [[], [], []] := by
    rw [← m.measured_strings, ← RecvResult.pushed.inj hown]
    rfl
  rw [MsgObject.encodedSize, hstrings] at hsize
  exact absurd hsize (by decide)

end Delivering

end Xty.Session
