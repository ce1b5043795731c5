import Xty.Message.Serialize

/-! `__DeSerialize`, the five `DeSerialize` methods and `xtyDeSerializeEntity`. -/

namespace Xty.Message

open Xty.General.LittleEndian Xty.General.Cursor

abbrev MsgReader := BufferReader ExceptionCode

def deSerializeMsgType : MsgReader UInt32 :=
  (fun bs => UInt32.ofNat (decode bs)) <$> checkedRead .outOfBufferRange sizeofMsgType

def deSerializeSizeT : MsgReader UInt64 :=
  (fun bs => UInt64.ofNat (decode bs)) <$> checkedRead .outOfBufferRange sizeofSizeT

def deSerializeString : MsgReader Bytes := do
  let length ← checkedRead .outOfBufferRange sizeofSizeT
  checkedRead .outOfBufferRange (decode length)

def deSerializeHead : MsgReader Msg := do
  let msgType ← deSerializeMsgType
  let msgLen ← deSerializeSizeT
  return ⟨msgType, msgLen⟩

def deSerializeStrings : ℕ → MsgReader (List Bytes)
  | 0 => pure []
  | n + 1 => do
    let s ← deSerializeString
    let ss ← deSerializeStrings n
    return s :: ss

def DullMsg.deSerialize (_ : DullMsg) : MsgReader DullMsg := do
  let h ← deSerializeHead
  return ⟨h⟩

def QuitMsg.deSerialize (_ : QuitMsg) : MsgReader QuitMsg := do
  let h ← deSerializeHead
  return ⟨h⟩

def RegMsg.deSerialize (_ : RegMsg) : MsgReader RegMsg := do
  let h ← deSerializeHead
  let processName ← deSerializeString
  let processIP ← deSerializeString
  let processPort ← deSerializeString
  return { toMsg := h, processName, processIP, processPort }

def DeRegMsg.deSerialize (_ : DeRegMsg) : MsgReader DeRegMsg := do
  let h ← deSerializeHead
  let processName ← deSerializeString
  let processIP ← deSerializeString
  let processPort ← deSerializeString
  return { toMsg := h, processName, processIP, processPort }

def DataMsg.deSerialize (_ : DataMsg) : MsgReader DataMsg := do
  let h ← deSerializeHead
  let toProcessIP ← deSerializeString
  let toProcessName ← deSerializeString
  let content ← deSerializeString
  return { toMsg := h, toProcessIP, toProcessName, content }

def MsgObject.deSerialize : MsgObject → MsgReader MsgObject
  | dull m => dull <$> m.deSerialize
  | quit m => quit <$> m.deSerialize
  | reg m => reg <$> m.deSerialize
  | deReg m => deReg <$> m.deSerialize
  | data m => data <$> m.deSerialize

def createDullMsg : MsgObject := .dull ⟨⟨MsgType.dullMsg.code, 0⟩⟩
def createQuitMsg : MsgObject := .quit ⟨⟨MsgType.quitMsg.code, 0⟩⟩
def createRegMsg : MsgObject := .reg ⟨⟨MsgType.regMsg.code, 0⟩, [], [], []⟩
def createDeRegMsg : MsgObject := .deReg ⟨⟨MsgType.deRegMsg.code, 0⟩, [], [], []⟩
def createDataMsg : MsgObject := .data ⟨⟨MsgType.dataMsg.code, 0⟩, [], [], []⟩

/-- `none` is the terminating null pointer, a slot like the others. -/
def createMsgFunArray : List (Option MsgObject) :=
  [some createDullMsg, some createQuitMsg, some createRegMsg, some createDeRegMsg,
    some createDataMsg, none]

namespace DeSerializeEntity

-- The type is read from the start of the buffer without a bounds test, and it indexes the
-- array without a range test; calling the null slot or one past the array is undefined.
def prepareAt (W : Window) (a : ℕ) : Except (Failure ExceptionCode) MsgObject :=
  match W.fetch a sizeofMsgType with
  | none => .error .undefined
  | some bs =>
    match createMsgFunArray[decode bs]? with
    | some (some m) => .ok m
    | _ => .error .undefined

def deSerializeAt (W : Window) (a : ℕ) : Except (Failure ExceptionCode) (MsgObject × ℕ) :=
  match prepareAt W a with
  | .error x => .error x
  | .ok m => m.deSerialize W a

def prepare (R : Region) : Except (Failure ExceptionCode) MsgObject := prepareAt R R.base

def deSerialize (R : Region) : Except (Failure ExceptionCode) (MsgObject × ℕ) :=
  deSerializeAt R R.base

end DeSerializeEntity

def MsgType.create : MsgType → MsgObject
  | dullMsg => createDullMsg
  | quitMsg => createQuitMsg
  | regMsg => createRegMsg
  | deRegMsg => createDeRegMsg
  | dataMsg => createDataMsg

def MsgType.stringCount : MsgType → ℕ
  | dullMsg | quitMsg => 0
  | regMsg | deRegMsg | dataMsg => 3

def MsgType.assemble (h : Msg) : MsgType → List Bytes → MsgObject
  | dullMsg, _ => .dull ⟨h⟩
  | quitMsg, _ => .quit ⟨h⟩
  | regMsg, [a, b, c] => .reg ⟨h, a, b, c⟩
  | deRegMsg, [a, b, c] => .deReg ⟨h, a, b, c⟩
  | dataMsg, [a, b, c] => .data ⟨h, a, b, c⟩
  | t, _ => t.create

namespace MsgObject

lemma strings_length (m : MsgObject) : m.strings.length = m.type.stringCount := by
  cases m <;> rfl

lemma assemble_strings (m : MsgObject) (h : Msg) :
    m.type.assemble h m.strings = m.setHead h := by
  cases m <;> rfl

@[simp] lemma create_type (t : MsgType) : t.create.type = t := by
  cases t <;> rfl

end MsgObject

lemma MsgType.assemble_fields (h : Msg) (t : MsgType) (ss : List Bytes)
    (hs : ss.length = t.stringCount) :
    (t.assemble h ss).head = h ∧ (t.assemble h ss).strings = ss := by
  cases t with
  | dullMsg | quitMsg =>
    have : ss = [] := List.length_eq_zero_iff.mp hs
    subst this
    exact ⟨rfl, rfl⟩
  | regMsg | deRegMsg | dataMsg =>
    obtain ⟨a, b, c, rfl⟩ := List.length_eq_three.mp hs
    exact ⟨rfl, rfl⟩

lemma MsgType.assemble_type (h : Msg) (t : MsgType) (ss : List Bytes)
    (hs : ss.length = t.stringCount) : (t.assemble h ss).type = t := by
  cases t with
  | dullMsg | quitMsg => rfl
  | regMsg | deRegMsg | dataMsg =>
    obtain ⟨a, b, c, rfl⟩ := List.length_eq_three.mp hs
    rfl

lemma MsgObject.deSerialize_eq (m : MsgObject) :
    m.deSerialize = (do
      let h ← deSerializeHead
      let ss ← deSerializeStrings m.type.stringCount
      return m.type.assemble h ss) := by
  cases m <;>
  simp only [deSerialize, DullMsg.deSerialize, QuitMsg.deSerialize, RegMsg.deSerialize,
    DeRegMsg.deSerialize, DataMsg.deSerialize, deSerializeStrings, MsgType.stringCount,
    MsgType.assemble, MsgObject.type, map_eq_pure_bind, bind_assoc, pure_bind]

lemma createMsgFunArray_code (t : MsgType) :
    createMsgFunArray[t.code.toNat]? = some (some t.create) := by
  cases t <;> rfl

lemma fetch_type {R : Region} (hn : sizeofMsgType ≤ R.bytes.length) :
    R.fetch R.base sizeofMsgType = some (R.bytes.take sizeofMsgType) := by
  rw [Region.fetch_inside le_rfl (by unfold Region.stop; omega)]
  simp [Region.slice]

lemma DeSerializeEntity.prepare_ok {R : Region} (t : MsgType) (hn : sizeofMsgType ≤ R.bytes.length)
    (ht : decode (R.bytes.take sizeofMsgType) = t.code.toNat) : prepare R = .ok t.create := by
  simp only [prepare, prepareAt, Region.window_fetch, fetch_type hn, ht, createMsgFunArray_code]

lemma DeSerializeEntity.deSerialize_of_prepare {R : Region} {m : MsgObject}
    (h : prepare R = .ok m) : deSerialize R = m.deSerialize R R.base := by
  rw [prepare] at h
  rw [deSerialize, deSerializeAt, h]

end Xty.Message
