import Xty.General.LittleEndian

/-! The message classes of `xty_msg.h` and the exception codes of `xty_exception.h`. -/

namespace Xty.Message

open Xty.General.LittleEndian

inductive ExceptionCode where
  | dullException
  | emptyQueue
  | nullPointer
  | outOfBufferRange
  | invalidIterator
  | invalidArrayIndex
deriving DecidableEq, Repr

inductive MsgType where
  | dullMsg
  | quitMsg
  | regMsg
  | deRegMsg
  | dataMsg
deriving DecidableEq, Repr

def MsgType.code : MsgType → UInt32
  | dullMsg => 0
  | quitMsg => 1
  | regMsg => 2
  | deRegMsg => 3
  | dataMsg => 4

structure Msg where
  msgType : UInt32
  msgLen : UInt64
deriving DecidableEq, Repr

structure DullMsg extends Msg
deriving DecidableEq, Repr

structure QuitMsg extends Msg
deriving DecidableEq, Repr

structure RegMsg extends Msg where
  processName : Bytes
  processIP : Bytes
  processPort : Bytes
deriving DecidableEq, Repr

structure DeRegMsg extends Msg where
  processName : Bytes
  processIP : Bytes
  processPort : Bytes
deriving DecidableEq, Repr

structure DataMsg extends Msg where
  toProcessIP : Bytes
  toProcessName : Bytes
  content : Bytes
deriving DecidableEq, Repr

/-- An object behind an `xtyMsg*`, with its dynamic class. -/
inductive MsgObject where
  | dull (m : DullMsg)
  | quit (m : QuitMsg)
  | reg (m : RegMsg)
  | deReg (m : DeRegMsg)
  | data (m : DataMsg)
deriving DecidableEq, Repr

namespace MsgObject

def head : MsgObject → Msg
  | dull m => m.toMsg
  | quit m => m.toMsg
  | reg m => m.toMsg
  | deReg m => m.toMsg
  | data m => m.toMsg

def type : MsgObject → MsgType
  | dull _ => .dullMsg
  | quit _ => .quitMsg
  | reg _ => .regMsg
  | deReg _ => .deRegMsg
  | data _ => .dataMsg

def strings : MsgObject → List Bytes
  | dull _ => []
  | quit _ => []
  | reg m => [m.processName, m.processIP, m.processPort]
  | deReg m => [m.processName, m.processIP, m.processPort]
  | data m => [m.toProcessIP, m.toProcessName, m.content]

def Tagged (m : MsgObject) : Prop := m.head.msgType = m.type.code

instance (m : MsgObject) : Decidable m.Tagged := inferInstanceAs (Decidable (_ = _))

def setHead (h : Msg) : MsgObject → MsgObject
  | dull _ => dull ⟨h⟩
  | quit _ => quit ⟨h⟩
  | reg m => reg { m with toMsg := h }
  | deReg m => deReg { m with toMsg := h }
  | data m => data { m with toMsg := h }

@[simp] lemma setHead_head (h : Msg) (m : MsgObject) : (m.setHead h).head = h := by
  cases m <;> rfl

@[simp] lemma setHead_type (h : Msg) (m : MsgObject) : (m.setHead h).type = m.type := by
  cases m <;> rfl

@[simp] lemma setHead_strings (h : Msg) (m : MsgObject) : (m.setHead h).strings = m.strings := by
  cases m <;> rfl

end MsgObject

lemma MsgType.code_injective : Function.Injective MsgType.code := by
  intro s t h
  cases s <;> cases t <;> first | rfl | exact absurd h (by decide)

end Xty.Message
