import Xty.Server.State

/-! What one step of the server can do, with its guards. -/

namespace Xty.Server

open Xty.General.LittleEndian Xty.General.Cursor
open Xty.Message

inductive EpollTransition (s : State) : EpollAction → State → Prop
  | refuse {c b} (hpc : s.epoll = .polling) (hc : Fresh s c)
      (hfull : epollMaxEvents ≤ (ClientTable.size s.table).toNat) :
      EpollTransition s (.accept c b) { s with history := .refused c :: s.history }
  | accept {c b} (hpc : s.epoll = .polling) (hc : Fresh s c)
      (hroom : ¬ epollMaxEvents ≤ (ClientTable.size s.table).toNat) :
      EpollTransition s (.accept c b)
        { s with connections := c :: s.connections, epoll := .accepted c b }
  | addClient {c b} (hpc : s.epoll = .accepted c b) (hlock : s.send.locksTable = false) :
      EpollTransition s .addClient { s with
        table := ClientTable.addClient s.table c.clientIPPort (.create c.fd b)
        epoll := .polling
        history := .connected c :: s.history }
  | find {fd k e} (hpc : s.epoll = .polling) (hlock : s.send.locksTable = false)
      (hfind : ClientTable.findFd s.table fd = some (k, e)) :
      EpollTransition s (.findFd fd) { s with epoll := .found k fd e.recvBuffer }
  | findNone {fd} (hpc : s.epoll = .polling) : EpollTransition s (.findFd fd) s
  | wouldBlock {k fd b} (hpc : s.epoll = .found k fd b) :
      EpollTransition s .wouldBlock { s with epoll := .polling }
  | eof {c k fd b} (hpc : s.epoll = .found k fd b) (hc : c ∈ s.connections) (hfd : c.fd = fd) :
      EpollTransition s (.eof c)
        { s with connections := s.connections.erase c, epoll := .closed c k }
  | removeClient {c k} (hpc : s.epoll = .closed c k) (hlock : s.send.locksTable = false) :
      EpollTransition s .removeClient { s with
        table := ClientTable.removeClient s.table k
        epoll := .polling
        history := .disconnected c :: s.history }
  | read {c r k fd b} (hpc : s.epoll = .found k fd b) (hc : c ∈ s.connections)
      (hfd : c.fd = fd) :
      EpollTransition s (.read c r)
        { s with epoll := .received c b r, history := .received c r.bytes :: s.history }
  | acquireEntity {c b r i A} (hpc : s.epoll = .received c b r)
      (hacq : s.entities.acquireEntity = some (i, A)) :
      EpollTransition s .acquireEntity { s with entities := A, epoll := .acquired c b r i }
  | deSerialize {c b r i p m a} (hpc : s.epoll = .acquired c b r i) (hfree : s.freed i p = none)
      (hdec : DeSerializeEntity.deSerialize (b.region r) = .ok (m, a)) :
      EpollTransition s (.deSerialize p)
        { s.make i p m with epoll := .deSerialized c ⟨p, s.objects.length⟩ m }
  | raise {c b r i p m e} (hpc : s.epoll = .acquired c b r i) (hfree : s.freed i p = none)
      (hdec : DeSerializeEntity.deSerialize (b.region r) = .error (.raised e))
      (hprep : DeSerializeEntity.prepare (b.region r) = .ok m) :
      EpollTransition s (.deSerialize p) { s.make i p m with epoll := .polling }
  | pushMsg {c r m} (hpc : s.epoll = .deSerialized c r m) :
      EpollTransition s .pushMsg { s with
        recvMsgQueue := s.recvMsgQueue ++ [r]
        epoll := .polling
        history := .pushed c m :: s.history }

inductive LoopTransition (s : State) : LoopAction → State → Prop
  | getMsg {r rs} (hpc : s.loop = .waiting) (hq : s.recvMsgQueue = r :: rs) :
      LoopTransition s .getMsg { s with recvMsgQueue := rs, loop := .handling r }
  | drop {r cell f pc} (hpc : s.loop = .handling r) (hcell : s.memory r.ptr = some cell)
      (hfun : callBackFun cell.object = some f)
      (hend : (f = .ignore ∧ pc = .waiting) ∨ (f = .quit ∧ pc = .exited)) :
      LoopTransition s .callBack { s with loop := pc }
  | reg {r m cell} (hpc : s.loop = .handling r) (hcell : s.memory r.ptr = some cell)
      (hfun : callBackFun cell.object = some (.reg m)) (hlock : s.send.locksTable = false) :
      LoopTransition s .callBack { s with
        table := handleRegMsg s.table m
        loop := .releasing r
        history := .handled (.reg m) :: s.history }
  | deReg {r m cell} (hpc : s.loop = .handling r) (hcell : s.memory r.ptr = some cell)
      (hfun : callBackFun cell.object = some (.deReg m)) (hlock : s.send.locksTable = false) :
      LoopTransition s .callBack { s with
        table := handleDeRegMsg s.table m
        loop := .releasing r
        history := .handled (.deReg m) :: s.history }
  | data {r cell} (hpc : s.loop = .handling r) (hcell : s.memory r.ptr = some cell)
      (hfun : callBackFun cell.object = some .data) :
      LoopTransition s .callBack { s with
        sendMsgQueue := s.sendMsgQueue ++ [r]
        loop := .waiting }
  | release {r} (hpc : s.loop = .releasing r) :
      LoopTransition s .releaseEntity
        { s with entities := s.entities.releaseEntity r.ptr, loop := .waiting }

inductive SendTransition (s : State) : SendAction → State → Prop
  | popMsg {r rs} (hpc : s.send = .waiting) (hq : s.sendMsgQueue = r :: rs) :
      SendTransition s .popMsg { s with sendMsgQueue := rs, send := .popped r }
  | copyStrings {r d n} (hpc : s.send = .popped r) (hcell : s.memory r.ptr = some ⟨n, .data d⟩) :
      SendTransition s .copyStrings { s with send := .copied r d.toProcessIP d.toProcessName }
  | lockTable {r toIP toName} (hpc : s.send = .copied r toIP toName) :
      SendTransition s .lockTable { s with send := .iterating r toIP toName s.table.entries }
  | unlock {r toIP toName} (hpc : s.send = .iterating r toIP toName []) :
      SendTransition s .next { s with send := .waiting }
  | skip {r toIP toName k v rest} (hpc : s.send = .iterating r toIP toName ((k, v) :: rest))
      (hskip : ∀ e, v = some e → ¬ e.Matches toIP toName) :
      SendTransition s .next { s with send := .iterating r toIP toName rest }
  | write {r toIP toName k e rest cell}
      (hpc : s.send = .iterating r toIP toName ((k, some e) :: rest))
      (hmatch : e.Matches toIP toName) (hcell : s.memory r.ptr = some cell) :
      SendTransition s .next { s with
        memory :=
          Function.update s.memory r.ptr (some { cell with object := cell.object.measured })
        serializer := { s.serializer with isOccupied := true }
        send := .releasing r toIP toName rest
        history := .wrote (k, e.clientFd) cell.object.measured :: s.history }
  | release {r toIP toName rest} (hpc : s.send = .releasing r toIP toName rest) :
      SendTransition s .releaseEntity { s with
        serializer := { s.serializer with isOccupied := false }
        entities := s.entities.releaseEntity r.ptr
        send := .iterating r toIP toName rest }

inductive Transition (s : State) : Action → State → Prop
  | epoll {a t} (h : EpollTransition s a t) : Transition s (.epoll a) t
  | loop {a t} (h : LoopTransition s a t) : Transition s (.loop a) t
  | send {a t} (h : SendTransition s a t) : Transition s (.send a) t

section Inversion

variable {s t : State}

lemma epollTransition {a : EpollAction} (h : epollStep s a = some t) : EpollTransition s a t := by
  cases a with
  | accept c b =>
    rw [epollStep] at h
    split at h
    · next hpc =>
      split_ifs at h with hc hfull
      · obtain rfl := Option.some.inj h
        exact .refuse hpc hc hfull
      · obtain rfl := Option.some.inj h
        exact .accept hpc hc hfull
    · cases h
  | addClient =>
    rw [epollStep] at h
    split at h
    · next hpc =>
      split_ifs at h with hlock
      obtain rfl := Option.some.inj h
      exact .addClient hpc (Bool.eq_false_iff.mpr hlock)
    · cases h
  | findFd fd =>
    rw [epollStep] at h
    split at h
    · next hpc =>
      split_ifs at h with hlock
      split at h
      · next hfind =>
        obtain rfl := Option.some.inj h
        exact .find hpc (Bool.eq_false_iff.mpr hlock) hfind
      · obtain rfl := Option.some.inj h
        exact .findNone hpc
    · cases h
  | wouldBlock =>
    rw [epollStep] at h
    split at h
    · next hpc =>
      obtain rfl := Option.some.inj h
      exact .wouldBlock hpc
    · cases h
  | eof c =>
    rw [epollStep] at h
    split at h
    · next hpc =>
      split_ifs at h with hc
      obtain rfl := Option.some.inj h
      exact .eof hpc hc.1 hc.2
    · cases h
  | removeClient =>
    rw [epollStep] at h
    split at h
    · next hpc =>
      split_ifs at h with hlock
      obtain rfl := Option.some.inj h
      exact .removeClient hpc (Bool.eq_false_iff.mpr hlock)
    · cases h
  | read c r =>
    rw [epollStep] at h
    split at h
    · next hpc =>
      split_ifs at h with hc
      obtain rfl := Option.some.inj h
      exact .read hpc hc.1 hc.2
    · cases h
  | acquireEntity =>
    rw [epollStep] at h
    split at h
    · next hpc hacq =>
      obtain rfl := Option.some.inj h
      exact .acquireEntity hpc hacq
    · cases h
  | deSerialize p =>
    rw [epollStep] at h
    split at h
    · next hpc =>
      split_ifs at h with hfree
      rw [prepareAndDecode] at h
      split at h
      · next hdec =>
        obtain rfl := Option.some.inj h
        exact .deSerialize hpc (Option.isNone_iff_eq_none.mp hfree) hdec
      · next hprep hdec =>
        obtain rfl := Option.some.inj h
        exact .raise hpc (Option.isNone_iff_eq_none.mp hfree) hdec hprep
      · cases h
    · cases h
  | pushMsg =>
    rw [epollStep] at h
    split at h
    · next hpc =>
      obtain rfl := Option.some.inj h
      exact .pushMsg hpc
    · cases h

lemma loopTransition {a : LoopAction} (h : loopStep s a = some t) : LoopTransition s a t := by
  cases a with
  | getMsg =>
    rw [loopStep] at h
    split at h
    · next hpc hq =>
      obtain rfl := Option.some.inj h
      exact .getMsg hpc hq
    · cases h
  | callBack =>
    rw [loopStep] at h
    split at h
    · next r hpc =>
      obtain ⟨cell, hcell, h⟩ := Option.bind_eq_some_iff.mp h
      obtain ⟨f, hf, h⟩ := Option.bind_eq_some_iff.mp h
      cases f with
      | ignore =>
        obtain rfl := Option.some.inj h
        exact .drop hpc hcell hf (Or.inl ⟨rfl, rfl⟩)
      | quit =>
        obtain rfl := Option.some.inj h
        exact .drop hpc hcell hf (Or.inr ⟨rfl, rfl⟩)
      | reg m =>
        rw [runCallBack] at h
        split_ifs at h with hlock
        obtain rfl := Option.some.inj h
        exact .reg hpc hcell hf (Bool.eq_false_iff.mpr hlock)
      | deReg m =>
        rw [runCallBack] at h
        split_ifs at h with hlock
        obtain rfl := Option.some.inj h
        exact .deReg hpc hcell hf (Bool.eq_false_iff.mpr hlock)
      | data =>
        obtain rfl := Option.some.inj h
        exact .data hpc hcell hf
    · cases h
  | releaseEntity =>
    rw [loopStep] at h
    split at h
    · next hpc =>
      obtain rfl := Option.some.inj h
      exact .release hpc
    · cases h

lemma serialized_length {E : SerializeEntity} {m m' : MsgObject} {data : Bytes}
    (h : E.serialize m = .ok (data, m')) : data.length = m'.head.msgLen.toNat := by
  obtain ⟨rfl, rfl, hfit⟩ := SerializeEntity.serialize_inv h
  rw [serializeBufLen] at hfit
  rw [m.encoding_length, MsgObject.measured_msgLen (by omega)]

lemma sendTransition {a : SendAction} (h : sendStep s a = some t) : SendTransition s a t := by
  cases a with
  | popMsg =>
    rw [sendStep] at h
    split at h
    · next hpc hq =>
      obtain rfl := Option.some.inj h
      exact .popMsg hpc hq
    · cases h
  | copyStrings =>
    rw [sendStep] at h
    split at h
    · next hpc =>
      split at h
      · next hcell =>
        obtain rfl := Option.some.inj h
        exact .copyStrings hpc hcell
      · cases h
    · cases h
  | lockTable =>
    rw [sendStep] at h
    split at h
    · next hpc =>
      obtain rfl := Option.some.inj h
      exact .lockTable hpc
    · cases h
  | next =>
    rw [sendStep] at h
    split at h
    · next hpc =>
      obtain rfl := Option.some.inj h
      exact .unlock hpc
    · next hpc =>
      obtain rfl := Option.some.inj h
      exact .skip hpc (by simp)
    · next hpc =>
      split_ifs at h with hmatch
      · obtain ⟨cell, hcell, h⟩ := Option.bind_eq_some_iff.mp h
        split_ifs at h with hocc
        split at h
        · cases h
        · next hser =>
          have hlen := serialized_length hser
          obtain ⟨rfl, rfl, _⟩ := SerializeEntity.serialize_inv hser
          rw [if_neg (not_not_intro hlen)] at h
          obtain rfl := Option.some.inj h
          exact .write hpc hmatch hcell
      · obtain rfl := Option.some.inj h
        exact .skip hpc (by simpa using hmatch)
    · cases h
  | releaseEntity =>
    rw [sendStep] at h
    split at h
    · next hpc =>
      obtain rfl := Option.some.inj h
      exact .release hpc
    · cases h

lemma transition_of_step {a : Action} (h : step s a = some t) : Transition s a t := by
  cases a with
  | epoll a => exact .epoll (epollTransition h)
  | loop a => exact .loop (loopTransition h)
  | send a => exact .send (sendTransition h)

end Inversion

end Xty.Server
