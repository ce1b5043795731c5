import Xty.Server.DataOrder
import Xty.Server.Dispatch
import Xty.Session.RecvJob

/-! `xtySession::RecvMsg` behind the receive job, on the frames that the server writes. -/

namespace Xty.Session

open Xty.General.Runs Xty.General.LittleEndian Xty.General.RedBlack
open Xty.Message Xty.RbTree Xty.Map Xty.Server

def asDataMsg : MsgObject → Option DataMsg
  | .data d => some d
  | .dull _ | .quit _ | .reg _ | .deReg _ => none

/-- The message that is popped, after the cast, and what stays in the queue; on an empty queue the
call waits. -/
def recvMsg : List MsgObject → Option (Option DataMsg × List MsgObject)
  | [] => none
  | m :: q => some (asDataMsg m, q)

inductive ReceiveAction where
  | recv (b : RecvBuf) (d : RecvData)
  | recvMsg

/-- Reading through a null pointer is undefined, like a chunk that the decoder cannot handle. -/
def receiveStep (q : List MsgObject) : ReceiveAction → Option (List MsgObject)
  | .recv b d =>
    match runJobRoutine b d with
    | .pushed m => some (q ++ [m])
    | .undefined => none
    | .incompleteHead | .incorrectLength | .dumped _ => some q
  | .recvMsg =>
    match recvMsg q with
    | some (some _, q) => some q
    | _ => none

/-- Every `recv` returns one whole frame that the server has written. -/
def ReceivesFrames (s : State) (_ : List MsgObject) : ReceiveAction → Prop
  | .recv _ d => ∃ c m, Event.wrote c m ∈ s.history ∧ d.bytes = m.encoding
  | .recvMsg => True

structure ClassesAgree (s : State) (T : LinkedTree (MapNode UInt32 (Option MsgCallBackFun))) :
    Prop where
  received : ∀ r ∈ s.recvMsgQueue ++ s.loop.held, ∃ m, s.value r = some m ∧ m.Tagged ∧
    Dispatches T m
  handled : ∀ r ∈ s.loop.held, Denotes s r → ∀ cell ∈ s.memory r.ptr, cell.object.Tagged ∧
    Dispatches T cell.object
  sent : ∀ r ∈ s.sendMsgQueue ++ s.send.carried, ∃ d, s.value r = some (.data d)
  served : ∀ r ∈ s.send.carried, Denotes s r → ∀ cell ∈ s.memory r.ptr,
    asDataMsg cell.object ≠ none
  frames : ∀ c m, .wrote c m ∈ s.history → m.head.msgType = MsgType.dataMsg.code ∧
    m.encoding.take sizeofMsgType = encode sizeofMsgType MsgType.dataMsg.code.toNat
  sessions : ∀ q, Reaches receiveStep (ReceivesFrames s) [] q →
    ∀ p q', recvMsg q = some (p, q') → p ≠ none

section Receiving

variable {s : State} {T : LinkedTree (MapNode UInt32 (Option MsgCallBackFun))} {m : MsgObject}

lemma asDataMsg_type (hm : m.type = .dataMsg) : asDataMsg m ≠ none := by
  cases m with
  | data d => exact Option.some_ne_none d
  | dull | quit | reg | deReg => cases hm

lemma frame_type (hm : IsDataFrame m) : m.head.msgType = MsgType.dataMsg.code ∧
    m.encoding.take sizeofMsgType = encode sizeofMsgType MsgType.dataMsg.code.toNat := by
  have hhead : m.head.msgType = MsgType.dataMsg.code := by
    rw [hm.tagged, hm.type]
  refine ⟨hhead, ?_⟩
  rw [MsgObject.encoding, encodeHead, MsgObject.measured_tagged hm.tagged, hm.type]
  simp only [List.append_assoc]
  rw [List.take_left' (encode_length _ _)]

lemma receives_data {q : List MsgObject} (h : Classed s)
    (hq : Reaches receiveStep (ReceivesFrames s) [] q) : ∀ m ∈ q, m.type = .dataMsg := by
  refine hq.invariant (I := fun q => ∀ m ∈ q, m.type = .dataMsg) (by simp) ?_
  intro q a q' hi hc ha
  cases a with
  | recv b d =>
    obtain ⟨c, m, hm, hd⟩ := hc
    have hf := h.written c m hm
    rw [receiveStep, runJobRoutine_encoding hf.tagged hf.fits hd] at ha
    obtain rfl := Option.some.inj ha
    intro m' hm'
    rcases List.mem_append.mp hm' with hm' | hm'
    · exact hi m' hm'
    · rw [List.mem_singleton.mp hm', MsgObject.measured_type, hf.type]
  | recvMsg =>
    cases q with
    | nil => cases ha
    | cons m q =>
      rw [receiveStep, recvMsg] at ha
      split at ha
      · next heq =>
        obtain rfl := (Prod.mk.inj (Option.some.inj heq)).2
        obtain rfl := Option.some.inj ha
        exact fun m' hm' => hi m' (List.mem_cons_of_mem _ hm')
      · cases ha

lemma classesAgree_of_classed (h : Classed s) (hT : ∀ m : MsgObject, m.Tagged → Dispatches T m) :
    ClassesAgree s T where
  received r hr := by
    obtain ⟨m, hm⟩ := h.received r hr
    have htag := h.remembered.tagged m (List.mem_of_getElem? hm)
    exact ⟨m, hm, htag, hT m htag⟩
  handled r _ _ cell hcell := by
    have htag := (h.remembered.cell_object hcell).1
    exact ⟨htag, hT _ htag⟩
  sent := h.sent
  served r hr hden cell hcell := asDataMsg_type (h.read hr hden hcell).1
  frames c m hm := frame_type (h.written c m hm)
  sessions q hq p q' hp := by
    have hdata := receives_data h hq
    cases q with
    | nil => cases hp
    | cons m q =>
      obtain ⟨rfl, _⟩ := Prod.mk.inj (Option.some.inj hp)
      exact asDataMsg_type (hdata m List.mem_cons_self)

/-- The type in the bytes, the class of the object, the callback and the casts all agree. -/
theorem classes_agree {E : SerializeEntity} (h : Reaches step ByValue (State.init E) s) :
    (∀ R m a, DeSerializeEntity.deSerialize R = .ok (m, a) → m.Tagged) ∧
      ∃ T, initCallBackTable create = some ((), T) ∧ ClassesAgree s T := by
  obtain ⟨T, hinit, hT⟩ := initCallBackTable_dispatches
  exact ⟨fun R m a hd => (deSerialize_inv hd).1, T, hinit,
    classesAgree_of_classed (reaches_classed h) hT⟩

theorem classes_agree_delivered : ∃ s, Reaches step ByValue (State.init serializer₀) s ∧
    s.history.head? = some (.wrote ([49, 58, 53, 48], 5) (.data ⟨⟨4, 38⟩, [49], [97], []⟩)) ∧
      ∃ T, initCallBackTable create = some ((), T) ∧ ClassesAgree s T := by
  have h : (execute step ByValue (State.init serializer₀)
      (register client₀ [53, 48] (by decide) ++
      sendFrom client₀ 1 (.data ⟨⟨4, 0⟩, [49], [97], []⟩) (by decide) ++
      [.loop .callBack, .send .popMsg, .send .copyStrings, .send .lockTable, .send .next])).map
        (fun s => s.history.head?)
      = some (some (.wrote ([49, 58, 53, 48], 5) (.data ⟨⟨4, 38⟩, [49], [97], []⟩))) := by
    decide +kernel
  obtain ⟨s, hs, hw⟩ := reaches_of_execute_map h
  exact ⟨s, hs, hw, (classes_agree hs).2⟩

end Receiving

end Xty.Session
