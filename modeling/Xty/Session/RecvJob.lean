import Xty.Message.WellFormed

/-! `xtySessionRecvJob`: the checks on a chunk that `recv` returns, and its decoding. -/

namespace Xty.Session

open Xty.General.LittleEndian Xty.General.Cursor
open Xty.Message

/-- The result of a `recv` that is neither an error nor the end of the stream. -/
structure RecvData where
  bytes : Bytes
  nonempty : 0 < bytes.length
  fits : bytes.length ≤ serializeBufLen

/-- The buffer on the stack, and what can be read behind it. -/
structure RecvBuf where
  base : ℕ
  beyond : Bytes
  fits : base + serializeBufLen + beyond.length < addressSpace

/-- The buffer is cleared before every `recv`. -/
def RecvData.contents (d : RecvData) : Bytes :=
  d.bytes ++ List.replicate (serializeBufLen - d.bytes.length) 0

/-- The conversion of a `size_t` to an `int` keeps the low 32 bits. -/
def intOfSizeT (n : UInt64) : ℤ := (n.toNat : ℤ).bmod (2 ^ 32)

def RecvData.lengthField (d : RecvData) : UInt64 :=
  UInt64.ofNat (decode ((d.contents.drop sizeofMsgType).take sizeofSizeT))

inductive Check where
  | incompleteHead
  | incorrectLength
  | passed (deSerializeDataLen : UInt64)
deriving DecidableEq, Repr

def check (d : RecvData) : Check :=
  if d.bytes.length < sizeofMsgType + sizeofSizeT then .incompleteHead
  else if (d.bytes.length : ℤ) ≠ intOfSizeT d.lengthField then .incorrectLength
  else .passed d.lengthField

/-- What the decoder is given: the end is computed from the length that the caller passes. -/
def RecvBuf.window (b : RecvBuf) (d : RecvData) (deSerializeDataLen : UInt64) : Window where
  stop := wrap (b.base + deSerializeDataLen.toNat)
  fetch a n :=
    let memory := d.contents ++ b.beyond
    if b.base ≤ a ∧ a + n ≤ b.base + memory.length then some ((memory.drop (a - b.base)).take n)
    else none

inductive RecvResult where
  | incompleteHead
  | incorrectLength
  | pushed (m : MsgObject)
  | dumped (e : ExceptionCode)
  | undefined
deriving DecidableEq, Repr

def runJobRoutine (b : RecvBuf) (d : RecvData) : RecvResult :=
  match check d with
  | .incompleteHead => .incompleteHead
  | .incorrectLength => .incorrectLength
  | .passed len =>
    match DeSerializeEntity.deSerializeAt (b.window d len) b.base with
    | .ok (m, _) => .pushed m
    | .error (.raised e) => .dumped e
    | .error .undefined => .undefined

def RecvBuf.region (b : RecvBuf) (d : RecvData) : Region where
  base := b.base
  bytes := d.bytes
  spare := List.replicate (serializeBufLen - d.bytes.length) 0 ++ b.beyond
  fits := by
    have hb := b.fits
    have hd := d.fits
    rw [List.length_append, List.length_replicate]
    omega

/-- If the checks let the chunk through, the decoder is given the bytes received and no more. -/
def DecodesReceived (b : RecvBuf) (d : RecvData) : Prop :=
  ∀ len, check d = .passed len →
    len.toNat = d.bytes.length ∧ b.window d len = (b.region d).window

section Receiving

variable {b : RecvBuf} {d : RecvData}

lemma intOfSizeT_eq {n : UInt64} {k : ℕ} (hk : k ≤ serializeBufLen) :
    (k : ℤ) = intOfSizeT n ↔ n.toNat % 2 ^ 32 = k := by
  unfold intOfSizeT
  unfold serializeBufLen at hk
  generalize n.toNat = n
  rw [Int.bmod_def]
  push_cast
  split_ifs <;> omega

lemma check_passed {len : UInt64} : check d = .passed len ↔
    12 ≤ d.bytes.length ∧ d.lengthField.toNat % 2 ^ 32 = d.bytes.length ∧ len = d.lengthField := by
  rw [check, ← intOfSizeT_eq d.fits, sizeofMsgType, sizeofSizeT]
  split_ifs with hhead hlen
  · simp only [false_iff]
    omega
  · simp only [false_iff]
    exact fun h => hlen h.2.1
  · rw [Check.passed.injEq]
    exact ⟨fun h => ⟨by omega, not_not.mp hlen, h.symm⟩, fun h => h.2.2.symm⟩

lemma window_received {len : UInt64} (h : len.toNat = d.bytes.length) :
    b.window d len = (b.region d).window := by
  have hb := b.fits
  have hd := d.fits
  have hstop : wrap (b.base + len.toNat) = (b.region d).stop := by
    rw [h, wrap_of_lt (by omega)]
    rfl
  have hmem : d.contents ++ b.beyond = (b.region d).bytes ++ (b.region d).spare :=
    List.append_assoc _ _ _
  have hlen : b.base + ((b.region d).bytes ++ (b.region d).spare).length
      = (b.region d).stop + (b.region d).spare.length := by
    rw [List.length_append, Region.stop]
    exact (Nat.add_assoc _ _ _).symm
  rw [RecvBuf.window, hstop, Region.window]
  congr 1
  funext a n
  rw [Region.fetch]
  simp only [hmem]
  rw [hlen]
  rfl

/-- The comparison narrows the length field to an `int`, the decoder is given the field itself. -/
theorem decodes_received_iff (b : RecvBuf) (d : RecvData) : DecodesReceived b d ↔
    d.bytes.length < 12 ∨ d.lengthField.toNat < 2 ^ 32 ∨
      d.lengthField.toNat % 2 ^ 32 ≠ d.bytes.length := by
  constructor
  · intro h
    by_contra hne
    simp only [not_or, not_lt, not_not] at hne
    obtain ⟨hhead, hbig, hlow⟩ := hne
    obtain ⟨hlen, _⟩ := h d.lengthField (check_passed.mpr ⟨hhead, hlow, rfl⟩)
    have hfits := d.fits
    rw [serializeBufLen] at hfits
    omega
  · intro h len hpass
    obtain ⟨hhead, hlow, rfl⟩ := check_passed.mp hpass
    have hlen : d.lengthField.toNat = d.bytes.length := by
      rcases h with h | h | h
      · omega
      · rw [← hlow, Nat.mod_eq_of_lt h]
      · exact absurd hlow h
    exact ⟨hlen, window_received hlen⟩

lemma lengthField_head {h : Msg} {z : Bytes} (hd : d.bytes = encodeHead h ++ z) :
    d.lengthField = h.msgLen := by
  rw [RecvData.lengthField, RecvData.contents, hd, encodeHead]
  simp only [List.append_assoc]
  rw [List.drop_left' (encode_length _ _), List.take_left' (encode_length _ _),
    decode_encode _ _ (UInt64.toNat_lt _), UInt64.ofNat_toNat]

lemma lengthField_encoding {m : MsgObject} (h : d.bytes = m.encoding) :
    d.lengthField = m.measured.head.msgLen := lengthField_head h

lemma check_encoding {m : MsgObject} (hs : m.encodedSize ≤ serializeBufLen)
    (h : d.bytes = m.encoding) : check d = .passed m.measured.head.msgLen := by
  have hlen : m.measured.head.msgLen.toNat = m.encodedSize :=
    MsgObject.measured_msgLen (hs.trans_lt (by decide))
  rw [check_passed, lengthField_encoding h, hlen, h, m.encoding_length]
  rw [serializeBufLen] at hs
  refine ⟨?_, Nat.mod_eq_of_lt (by omega), rfl⟩
  rw [MsgObject.encodedSize, serializedSize, sizeofMsgType, sizeofSizeT]
  omega

lemma runJobRoutine_encoding {m : MsgObject} (hm : m.Tagged) (hs : m.encodedSize ≤ serializeBufLen)
    (h : d.bytes = m.encoding) : runJobRoutine b d = .pushed m.measured := by
  have hlen : m.measured.head.msgLen.toNat = d.bytes.length := by
    rw [h, m.encoding_length]
    exact MsgObject.measured_msgLen (hs.trans_lt (by decide))
  have hdec : DeSerializeEntity.deSerializeAt (b.region d).window b.base
      = .ok (m.measured, b.base + m.encodedSize) :=
    MsgObject.deSerialize_encoding (R := b.region d) hm (h.trans (List.append_nil _).symm)
  rw [runJobRoutine, check_encoding hs h]
  simp only [window_received hlen, hdec]

/-- A Reg message of 20 bytes, whose length field has a bit above the low 32 and whose first
string has 8 bytes that were not received. -/
def overlongReg : RecvData where
  bytes := [2, 0, 0, 0] ++ [20, 0, 0, 0, 1, 0, 0, 0] ++ [8, 0, 0, 0, 0, 0, 0, 0]
  nonempty := by decide
  fits := by decide

theorem overlong_length_passes : ∃ (b : RecvBuf) (m : RegMsg),
    overlongReg.bytes.length = 20 ∧ check overlongReg = .passed (UInt64.ofNat (2 ^ 32 + 20)) ∧
      runJobRoutine b overlongReg = .pushed (.reg m) ∧ m.processName = List.replicate 8 0 ∧
      ¬ DecodesReceived b overlongReg := by
  have hpass : check overlongReg = .passed (UInt64.ofNat (2 ^ 32 + 20)) := by decide +kernel
  have hpush : runJobRoutine ⟨8192, [], by decide⟩ overlongReg
      = .pushed (.reg ⟨⟨2, UInt64.ofNat (2 ^ 32 + 20)⟩, List.replicate 8 0, [], []⟩) := by
    decide +kernel
  refine ⟨_, _, rfl, hpass, hpush, rfl, fun h => ?_⟩
  exact absurd (h _ hpass).1 (by decide)

end Receiving

end Xty.Session
