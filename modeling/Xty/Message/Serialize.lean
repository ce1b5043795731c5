import Xty.General.Cursor
import Xty.Message.Classes

/-! `__Serialize`, the five `Serialize` methods and `xtySerializeEntity`. -/

namespace Xty.Message

open Xty.General.LittleEndian Xty.General.Cursor

abbrev MsgWriter := BufferWriter ExceptionCode

def sizeofMsgType : ℕ := 4
def sizeofSizeT : ℕ := 8
def serializeBufLen : ℕ := 4096

def serializeMsgType (t : UInt32) : MsgWriter Unit :=
  checkedWrite .outOfBufferRange (encode sizeofMsgType t.toNat)

def serializeSizeT (n : UInt64) : MsgWriter Unit :=
  checkedWrite .outOfBufferRange (encode sizeofSizeT n.toNat)

/-- One bounds test covers the length prefix and the characters. -/
def serializeString (s : Bytes) : MsgWriter Unit :=
  checkedWrite .outOfBufferRange (encode sizeofSizeT s.length ++ s)

/-- The sum that every `CalculateSerializedMsgLen` computes over its string members. -/
def serializedSize (strings : List Bytes) : ℕ :=
  sizeofMsgType + sizeofSizeT + (strings.map fun s => sizeofSizeT + s.length).sum

def Msg.withLen (m : Msg) (strings : List Bytes) : Msg :=
  { m with msgLen := UInt64.ofNat (serializedSize strings) }

def serializeStrings : List Bytes → MsgWriter Unit
  | [] => pure ()
  | s :: ss => do
    serializeString s
    serializeStrings ss

def serializeFields (m : Msg) (strings : List Bytes) : MsgWriter Unit := do
  serializeMsgType m.msgType
  serializeSizeT m.msgLen
  serializeStrings strings

def DullMsg.calculateSerializedMsgLen (m : DullMsg) : DullMsg := ⟨m.withLen []⟩

def DullMsg.serialize (m : DullMsg) : MsgWriter DullMsg := do
  let m := m.calculateSerializedMsgLen
  serializeFields m.toMsg []
  return m

def QuitMsg.calculateSerializedMsgLen (m : QuitMsg) : QuitMsg := ⟨m.withLen []⟩

def QuitMsg.serialize (m : QuitMsg) : MsgWriter QuitMsg := do
  let m := m.calculateSerializedMsgLen
  serializeFields m.toMsg []
  return m

def RegMsg.calculateSerializedMsgLen (m : RegMsg) : RegMsg :=
  { m with toMsg := m.withLen [m.processName, m.processIP, m.processPort] }

def RegMsg.serialize (m : RegMsg) : MsgWriter RegMsg := do
  let m := m.calculateSerializedMsgLen
  serializeFields m.toMsg [m.processName, m.processIP, m.processPort]
  return m

def DeRegMsg.calculateSerializedMsgLen (m : DeRegMsg) : DeRegMsg :=
  { m with toMsg := m.withLen [m.processName, m.processIP, m.processPort] }

def DeRegMsg.serialize (m : DeRegMsg) : MsgWriter DeRegMsg := do
  let m := m.calculateSerializedMsgLen
  serializeFields m.toMsg [m.processName, m.processIP, m.processPort]
  return m

def DataMsg.calculateSerializedMsgLen (m : DataMsg) : DataMsg :=
  { m with toMsg := m.withLen [m.toProcessIP, m.toProcessName, m.content] }

def DataMsg.serialize (m : DataMsg) : MsgWriter DataMsg := do
  let m := m.calculateSerializedMsgLen
  serializeFields m.toMsg [m.toProcessIP, m.toProcessName, m.content]
  return m

namespace MsgObject

def serialize : MsgObject → MsgWriter MsgObject
  | dull m => dull <$> m.serialize
  | quit m => quit <$> m.serialize
  | reg m => reg <$> m.serialize
  | deReg m => deReg <$> m.serialize
  | data m => data <$> m.serialize

def calculateSerializedMsgLen : MsgObject → MsgObject
  | dull m => dull m.calculateSerializedMsgLen
  | quit m => quit m.calculateSerializedMsgLen
  | reg m => reg m.calculateSerializedMsgLen
  | deReg m => deReg m.calculateSerializedMsgLen
  | data m => data m.calculateSerializedMsgLen

def measured (m : MsgObject) : MsgObject := m.setHead (m.head.withLen m.strings)

def encodedSize (m : MsgObject) : ℕ := serializedSize m.strings

end MsgObject

structure SerializeEntity where
  serializeBuf : ℕ
  isOccupied : Bool
  fits : serializeBuf + serializeBufLen < addressSpace

def SerializeEntity.serialize (E : SerializeEntity) (m : MsgObject) :
    Except (Failure ExceptionCode) (Bytes × MsgObject) :=
  match m.serialize ⟨E.serializeBuf, serializeBufLen, E.fits⟩ [] with
  | .error x => .error x
  | .ok (m', w) => .ok (w, m')

def encodeString (s : Bytes) : Bytes := encode sizeofSizeT s.length ++ s

def encodeStrings (strings : List Bytes) : Bytes := strings.flatMap encodeString

def encodeHead (m : Msg) : Bytes :=
  encode sizeofMsgType m.msgType.toNat ++ encode sizeofSizeT m.msgLen.toNat

def MsgObject.encoding (m : MsgObject) : Bytes :=
  encodeHead m.measured.head ++ encodeStrings m.strings

@[simp] lemma encodeString_length (s : Bytes) :
    (encodeString s).length = sizeofSizeT + s.length := by
  simp [encodeString]

lemma encodeStrings_length (strings : List Bytes) :
    (encodeStrings strings).length = (strings.map fun s => sizeofSizeT + s.length).sum := by
  simp [encodeStrings, List.length_flatMap]

@[simp] lemma encodeHead_length (m : Msg) : (encodeHead m).length = 12 := by
  simp [encodeHead, sizeofMsgType, sizeofSizeT]

lemma MsgObject.encoding_length (m : MsgObject) : m.encoding.length = m.encodedSize := by
  simp [encoding, encodedSize, serializedSize, encodeStrings_length, sizeofMsgType, sizeofSizeT]

lemma MsgObject.encoding_pos (m : MsgObject) : 0 < m.encoding.length := by
  rw [m.encoding_length, encodedSize, serializedSize, sizeofMsgType]
  omega

section Writing

variable {S : Sink} {w : Bytes}

lemma serializeStrings_ok (strings : List Bytes)
    (h : w.length + (encodeStrings strings).length ≤ S.capacity) :
    serializeStrings strings S w = .ok ((), w ++ encodeStrings strings) := by
  induction strings generalizing w with
  | nil =>
    rw [encodeStrings, List.flatMap_nil, List.append_nil]
    rfl
  | cons s ss ih =>
    have hl : (encodeStrings (s :: ss)).length
        = (encodeString s).length + (encodeStrings ss).length := by
      simp [encodeStrings]
    rw [hl] at h
    have hs : serializeString s S w = .ok ((), w ++ encodeString s) :=
      checkedWrite_ok (by rw [← encodeString]; omega)
    rw [serializeStrings, write_bind_apply, hs]
    simp only
    rw [ih (by rw [List.length_append]; omega)]
    simp [encodeStrings, List.append_assoc]

lemma serializeFields_ok (m : Msg) (strings : List Bytes)
    (h : 12 + (encodeStrings strings).length ≤ S.capacity) :
    serializeFields m strings S [] = .ok ((), encodeHead m ++ encodeStrings strings) := by
  have ht : serializeMsgType m.msgType S [] =
      .ok ((), [] ++ encode sizeofMsgType m.msgType.toNat) :=
    checkedWrite_ok (by simp [sizeofMsgType]; omega)
  have hn : serializeSizeT m.msgLen S (encode sizeofMsgType m.msgType.toNat)
      = .ok ((), encodeHead m) :=
    checkedWrite_ok (by simp [sizeofMsgType, sizeofSizeT]; omega)
  rw [serializeFields, write_bind_apply, ht]
  simp only [List.nil_append]
  rw [write_bind_apply, hn]
  exact serializeStrings_ok strings (by simpa using h)

lemma serializeStrings_raised (strings : List Bytes) (hw : w.length ≤ S.capacity)
    (h : S.capacity < w.length + (encodeStrings strings).length)
    (hs : S.base + w.length + (encodeStrings strings).length < addressSpace) :
    serializeStrings strings S w = .error (.raised .outOfBufferRange) := by
  induction strings generalizing w with
  | nil =>
    rw [encodeStrings, List.flatMap_nil, List.length_nil] at h
    omega
  | cons s ss ih =>
    have hl : (encodeStrings (s :: ss)).length
        = (encodeString s).length + (encodeStrings ss).length := by
      simp [encodeStrings]
    rw [hl] at h hs
    rw [serializeStrings, write_bind_apply]
    by_cases hfit : w.length + (encodeString s).length ≤ S.capacity
    · have hwrite : serializeString s S w = .ok ((), w ++ encodeString s) := checkedWrite_ok hfit
      rw [hwrite]
      simp only
      rw [← List.length_append] at hfit
      refine ih hfit ?_ ?_
      · rw [List.length_append]
        omega
      · rw [List.length_append]
        omega
    · have hraise : serializeString s S w = .error (.raised .outOfBufferRange) :=
        checkedWrite_raised (not_le.mp hfit) (by rw [← encodeString]; omega)
      rw [hraise]

lemma serializeFields_raised (m : Msg) (strings : List Bytes) (hhead : 12 ≤ S.capacity)
    (h : S.capacity < 12 + (encodeStrings strings).length)
    (hs : S.base + 12 + (encodeStrings strings).length < addressSpace) :
    serializeFields m strings S [] = .error (.raised .outOfBufferRange) := by
  have ht : serializeMsgType m.msgType S [] =
      .ok ((), [] ++ encode sizeofMsgType m.msgType.toNat) :=
    checkedWrite_ok (by simp [sizeofMsgType]; omega)
  have hn : serializeSizeT m.msgLen S (encode sizeofMsgType m.msgType.toNat)
      = .ok ((), encodeHead m) :=
    checkedWrite_ok (by simp [sizeofMsgType, sizeofSizeT]; omega)
  rw [serializeFields, write_bind_apply, ht]
  simp only [List.nil_append]
  rw [write_bind_apply, hn]
  simp only
  refine serializeStrings_raised strings ?_ ?_ ?_ <;> rwa [encodeHead_length]

lemma serializeStrings_inv {strings : List Bytes} {u : Unit} {w' : Bytes}
    (h : serializeStrings strings S w = .ok (u, w')) (hw : w.length ≤ S.capacity) :
    w' = w ++ encodeStrings strings ∧ w'.length ≤ S.capacity := by
  induction strings generalizing w with
  | nil =>
    cases h
    exact ⟨(List.append_nil _).symm, hw⟩
  | cons s ss ih =>
    obtain ⟨_, w₁, hs, hss⟩ := write_bind_inv h
    obtain ⟨rfl, hl⟩ := checkedWrite_inv hs
    rw [← List.length_append] at hl
    obtain ⟨rfl, hl'⟩ := ih hss hl
    refine ⟨?_, hl'⟩
    simp only [encodeStrings, List.flatMap_cons, encodeString, List.append_assoc]

lemma serializeFields_inv {m : Msg} {strings : List Bytes} {u : Unit}
    (h : serializeFields m strings S [] = .ok (u, w)) :
    w = encodeHead m ++ encodeStrings strings ∧ w.length ≤ S.capacity := by
  obtain ⟨_, w₁, ht, h⟩ := write_bind_inv h
  obtain ⟨rfl, _⟩ := checkedWrite_inv ht
  obtain ⟨_, w₂, hn, h⟩ := write_bind_inv h
  obtain ⟨rfl, hl⟩ := checkedWrite_inv hn
  rw [← List.length_append] at hl
  exact serializeStrings_inv h hl

end Writing

lemma MsgObject.serialize_inv {m m' : MsgObject} {S : Sink} {w : Bytes}
    (h : m.serialize S [] = .ok (m', w)) :
    m' = m.measured ∧ w = m.encoding ∧ m.encodedSize ≤ S.capacity := by
  have hf : serializeFields m.measured.head m.strings S [] = .ok ((), w) ∧ m' = m.measured := by
    cases m <;>
    · simp only [serialize, DullMsg.serialize, QuitMsg.serialize, RegMsg.serialize,
        DeRegMsg.serialize, DataMsg.serialize, map_eq_pure_bind] at h
      obtain ⟨_, _, h, hp⟩ := write_bind_inv h
      obtain ⟨_, _, hf, hr⟩ := write_bind_inv h
      cases hp
      cases hr
      exact ⟨hf, rfl⟩
  obtain ⟨hw, hl⟩ := serializeFields_inv hf.1
  refine ⟨hf.2, hw, ?_⟩
  rw [← encoding_length, encoding, ← hw]
  exact hl

lemma MsgObject.serialize_ok (m : MsgObject) {S : Sink} (h : m.encodedSize ≤ S.capacity) :
    m.serialize S [] = .ok (m.measured, m.encoding) := by
  have hl : 12 + (encodeStrings m.strings).length ≤ S.capacity := by
    rw [← MsgObject.encoding_length] at h
    simpa [encoding] using h
  have hf := serializeFields_ok (S := S) m.measured.head m.strings hl
  cases m <;>
  · simp only [serialize, DullMsg.serialize, QuitMsg.serialize, RegMsg.serialize,
      DeRegMsg.serialize, DataMsg.serialize, map_eq_pure_bind, write_bind_apply]
    simp only [measured, setHead, head, strings] at hf ⊢
    simp only [DullMsg.calculateSerializedMsgLen, QuitMsg.calculateSerializedMsgLen,
      RegMsg.calculateSerializedMsgLen, DeRegMsg.calculateSerializedMsgLen,
      DataMsg.calculateSerializedMsgLen, hf]
    rfl

lemma MsgObject.serialize_raised (m : MsgObject) {S : Sink} (hhead : 12 ≤ S.capacity)
    (h : S.capacity < m.encodedSize) (hs : S.base + m.encodedSize < addressSpace) :
    m.serialize S [] = .error (.raised .outOfBufferRange) := by
  have hl : 12 + (encodeStrings m.strings).length = m.encodedSize := by
    rw [← m.encoding_length, encoding, List.length_append, encodeHead_length]
  have hf := serializeFields_raised (S := S) m.measured.head m.strings hhead (by omega) (by omega)
  cases m <;>
  · simp only [serialize, DullMsg.serialize, QuitMsg.serialize, RegMsg.serialize,
      DeRegMsg.serialize, DataMsg.serialize, map_eq_pure_bind, write_bind_apply]
    simp only [measured, setHead, head, strings] at hf ⊢
    simp only [DullMsg.calculateSerializedMsgLen, QuitMsg.calculateSerializedMsgLen,
      RegMsg.calculateSerializedMsgLen, DeRegMsg.calculateSerializedMsgLen,
      DataMsg.calculateSerializedMsgLen, hf]

lemma SerializeEntity.serialize_raised (E : SerializeEntity) (m : MsgObject)
    (h : serializeBufLen < m.encodedSize) (hs : E.serializeBuf + m.encodedSize < addressSpace) :
    E.serialize m = .error (.raised .outOfBufferRange) := by
  have hhead : 12 ≤ serializeBufLen := by decide
  rw [SerializeEntity.serialize, m.serialize_raised hhead h hs]

lemma SerializeEntity.serialize_ok (E : SerializeEntity) (m : MsgObject)
    (h : m.encodedSize ≤ serializeBufLen) :
    E.serialize m = .ok (m.encoding, m.measured) := by
  rw [SerializeEntity.serialize, MsgObject.serialize_ok m h]

lemma SerializeEntity.serialize_inv {E : SerializeEntity} {m m' : MsgObject} {data : Bytes}
    (h : E.serialize m = .ok (data, m')) :
    m' = m.measured ∧ data = m.encoding ∧ m.encodedSize ≤ serializeBufLen := by
  rw [SerializeEntity.serialize] at h
  split at h
  · cases h
  · next hm =>
    cases h
    exact MsgObject.serialize_inv hm

end Xty.Message
