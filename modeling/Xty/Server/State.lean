import Xty.General.Runs
import Xty.Server.ClientTable
import Xty.Server.Entities

/-! The three threads of the message server. A section under one lock is a step, and so is a
call to the kernel; what the scheduler, the clients and the allocator decide is in the action. -/

namespace Xty.Server

open Xty.General.LittleEndian Xty.General.Cursor Xty.General.SortedTable
open Xty.Facility Xty.Message

/-- The result of a `read` that is neither an error nor the end of the stream. -/
structure ReadBytes where
  bytes : Bytes
  nonempty : 0 < bytes.length
  fits : bytes.length ≤ clientBufferSize

def ReadBytes.frame (m : MsgObject) (hm : m.encodedSize ≤ clientBufferSize) : ReadBytes where
  bytes := m.encoding
  nonempty := m.encoding_pos
  fits := m.encoding_length.trans_le hm

/-- The buffer is cleared before every `read`. -/
def RecvBuffer.region (b : RecvBuffer) (r : ReadBytes) : Region where
  base := b.base
  bytes := r.bytes
  spare := List.replicate (clientBufferSize - r.bytes.length) 0
  fits := by
    have hb := b.fits
    have hr := r.fits
    rw [List.length_replicate]
    omega

/-- A message pointer, with the serial number of the object that it was made for. -/
structure Reference where
  ptr : ℕ
  serial : ℕ
deriving DecidableEq, Repr

/-- Between `accept` or `close` and the table, between the scan for the client and the `read`, and
between the `read`, the entity, the decoding and the queue, other threads may run. -/
inductive EpollPc where
  | polling
  | accepted (c : Connection) (b : RecvBuffer)
  | found (k : Bytes) (fd : ℕ) (b : RecvBuffer)
  | closed (c : Connection) (k : Bytes)
  | received (c : Connection) (b : RecvBuffer) (r : ReadBytes)
  | acquired (c : Connection) (b : RecvBuffer) (r : ReadBytes) (i : ℕ)
  | deSerialized (c : Connection) (r : Reference) (m : MsgObject)

inductive LoopPc where
  | waiting
  | handling (r : Reference)
  | releasing (r : Reference)
  | exited

/-- The table is locked while the job goes over the entries that are still to come. -/
inductive SendPc where
  | waiting
  | popped (r : Reference)
  | copied (r : Reference) (toIP toName : Bytes)
  | iterating (r : Reference) (toIP toName : Bytes) (rest : List (Bytes × Option ClientEntity))
  | releasing (r : Reference) (toIP toName : Bytes) (rest : List (Bytes × Option ClientEntity))

/-- What the callback that is found under `m_MsgType` does with the message. -/
inductive CallBack where
  | ignore
  | quit
  | reg (m : RegMsg)
  | deReg (m : DeRegMsg)
  | data
deriving DecidableEq, Repr

inductive Event where
  | connected (c : Connection)
  | refused (c : Connection)
  | received (c : Connection) (bs : Bytes)
  | pushed (c : Connection) (m : MsgObject)
  | handled (f : CallBack)
  | wrote (c : Bytes × ℕ) (m : MsgObject)
  | disconnected (c : Connection)
deriving DecidableEq, Repr

/-- `connections` are the sockets that the kernel has open. The last two fields record what has
happened: the objects that were made, by serial number, and the events, the latest first. -/
structure State where
  table : ClientTable
  connections : List Connection
  memory : Memory
  entities : EntityArray
  serializer : SerializeEntity
  recvMsgQueue : List Reference
  sendMsgQueue : List Reference
  epoll : EpollPc
  loop : LoopPc
  send : SendPc
  objects : List MsgObject
  history : List Event

def State.init (E : SerializeEntity) : State where
  table := Table.empty
  connections := []
  memory := fun _ => none
  entities := EntityArray.create
  serializer := { E with isOccupied := false }
  recvMsgQueue := []
  sendMsgQueue := []
  epoll := .polling
  loop := .waiting
  send := .waiting
  objects := []
  history := []

def SendPc.locksTable : SendPc → Bool
  | .iterating .. | .releasing .. => true
  | .waiting | .popped _ | .copied .. => false

inductive EpollAction where
  | accept (c : Connection) (b : RecvBuffer)
  | addClient
  | findFd (fd : ℕ)
  | wouldBlock
  | eof (c : Connection)
  | removeClient
  | read (c : Connection) (r : ReadBytes)
  | acquireEntity
  | deSerialize (p : ℕ)
  | pushMsg

inductive LoopAction where
  | getMsg
  | callBack
  | releaseEntity

inductive SendAction where
  | popMsg
  | copyStrings
  | lockTable
  | next
  | releaseEntity

inductive Action where
  | epoll (a : EpollAction)
  | loop (a : LoopAction)
  | send (a : SendAction)

def Fresh (s : State) (c : Connection) : Prop :=
  ∀ d ∈ s.connections, d.fd ≠ c.fd ∧ d.clientIPPort ≠ c.clientIPPort

instance (s : State) (c : Connection) : Decidable (Fresh s c) :=
  inferInstanceAs (Decidable (∀ d ∈ s.connections, _))

def State.freed (s : State) (i : ℕ) : Memory :=
  match s.entities.owned i with
  | some q => Function.update s.memory q none
  | none => s.memory

def State.make (s : State) (i p : ℕ) (m : MsgObject) : State :=
  { s with
    memory := Function.update (s.freed i) p (some ⟨s.objects.length, m⟩)
    entities := s.entities.hold i p
    objects := s.objects ++ [m] }

/-- A failure that the language leaves undefined has no successor. When an exception is thrown,
the entity keeps an object that is filled in part and that nobody refers to. -/
def prepareAndDecode (s : State) (c : Connection) (b : RecvBuffer) (r : ReadBytes) (i p : ℕ) :
    Option State :=
  match DeSerializeEntity.prepare (b.region r), DeSerializeEntity.deSerialize (b.region r) with
  | .ok _, .ok (m, _) =>
    some { s.make i p m with epoll := .deSerialized c ⟨p, s.objects.length⟩ m }
  | .ok m, .error (.raised _) => some { s.make i p m with epoll := .polling }
  | _, _ => none

def epollStep (s : State) : EpollAction → Option State
  | .accept c b =>
    match s.epoll with
    | .polling =>
      if Fresh s c then
        if epollMaxEvents ≤ (ClientTable.size s.table).toNat then
          some { s with history := .refused c :: s.history }
        else some { s with connections := c :: s.connections, epoll := .accepted c b }
      else none
    | _ => none
  | .addClient =>
    match s.epoll with
    | .accepted c b =>
      if s.send.locksTable then none
      else some { s with
        table := ClientTable.addClient s.table c.clientIPPort (.create c.fd b)
        epoll := .polling
        history := .connected c :: s.history }
    | _ => none
  | .findFd fd =>
    match s.epoll with
    | .polling =>
      if s.send.locksTable then none
      else match ClientTable.findFd s.table fd with
        | some (k, e) => some { s with epoll := .found k fd e.recvBuffer }
        | none => some s
    | _ => none
  | .wouldBlock =>
    match s.epoll with
    | .found .. => some { s with epoll := .polling }
    | _ => none
  | .eof c =>
    match s.epoll with
    | .found k fd _ =>
      if c ∈ s.connections ∧ c.fd = fd then
        some { s with connections := s.connections.erase c, epoll := .closed c k }
      else none
    | _ => none
  | .removeClient =>
    match s.epoll with
    | .closed c k =>
      if s.send.locksTable then none
      else some { s with
        table := ClientTable.removeClient s.table k
        epoll := .polling
        history := .disconnected c :: s.history }
    | _ => none
  | .read c r =>
    match s.epoll with
    | .found _ fd b =>
      if c ∈ s.connections ∧ c.fd = fd then
        some { s with epoll := .received c b r, history := .received c r.bytes :: s.history }
      else none
    | _ => none
  | .acquireEntity =>
    match s.epoll, s.entities.acquireEntity with
    | .received c b r, some (i, A) => some { s with entities := A, epoll := .acquired c b r i }
    | _, _ => none
  | .deSerialize p =>
    match s.epoll with
    | .acquired c b r i =>
      if (s.freed i p).isNone then prepareAndDecode s c b r i p else none
    | _ => none
  | .pushMsg =>
    match s.epoll with
    | .deSerialized c r m =>
      some { s with
        recvMsgQueue := s.recvMsgQueue ++ [r]
        epoll := .polling
        history := .pushed c m :: s.history }
    | _ => none

-- A type without a callback is ignored; a `dynamic_cast` that fails gives a null pointer.
def callBackFun (m : MsgObject) : Option CallBack :=
  if m.head.msgType = MsgType.quitMsg.code then some .quit
  else if m.head.msgType = MsgType.regMsg.code then
    match m with
    | .reg m => some (.reg m)
    | _ => none
  else if m.head.msgType = MsgType.deRegMsg.code then
    match m with
    | .deReg m => some (.deReg m)
    | _ => none
  else if m.head.msgType = MsgType.dataMsg.code then
    match m with
    | .data _ => some .data
    | _ => none
  else some .ignore

def RegMsg.userIPPort (m : RegMsg) : Bytes := ipPort m.processIP m.processPort

def DeRegMsg.userIPPort (m : DeRegMsg) : Bytes := ipPort m.processIP m.processPort

def CallBack.userIPPort : CallBack → Option Bytes
  | .reg m => some (RegMsg.userIPPort m)
  | .deReg m => some (DeRegMsg.userIPPort m)
  | .ignore | .quit | .data => none

def handleRegMsg (T : ClientTable) (m : RegMsg) : ClientTable :=
  T.writeClient (RegMsg.userIPPort m) fun e => e.register m

def handleDeRegMsg (T : ClientTable) (m : DeRegMsg) : ClientTable :=
  T.writeClient (DeRegMsg.userIPPort m) ClientEntity.logOut

def runCallBack (s : State) (r : Reference) : CallBack → Option State
  | .ignore => some { s with loop := .waiting }
  | .quit => some { s with loop := .exited }
  | .reg m =>
    if s.send.locksTable then none
    else some { s with
      table := handleRegMsg s.table m
      loop := .releasing r
      history := .handled (.reg m) :: s.history }
  | .deReg m =>
    if s.send.locksTable then none
    else some { s with
      table := handleDeRegMsg s.table m
      loop := .releasing r
      history := .handled (.deReg m) :: s.history }
  | .data => some { s with sendMsgQueue := s.sendMsgQueue ++ [r], loop := .waiting }

def loopStep (s : State) : LoopAction → Option State
  | .getMsg =>
    match s.loop, s.recvMsgQueue with
    | .waiting, r :: rs => some { s with recvMsgQueue := rs, loop := .handling r }
    | _, _ => none
  | .callBack =>
    match s.loop with
    | .handling r => do
      let cell ← s.memory r.ptr
      let f ← callBackFun cell.object
      runCallBack s r f
    | _ => none
  | .releaseEntity =>
    match s.loop with
    | .releasing r =>
      some { s with entities := s.entities.releaseEntity r.ptr, loop := .waiting }
    | _ => none

def ClientEntity.Matches (e : ClientEntity) (toIP toName : Bytes) : Prop :=
  e.clientIP = toIP ∧ e.clientName = toName

instance (e : ClientEntity) (toIP toName : Bytes) : Decidable (e.Matches toIP toName) :=
  inferInstanceAs (Decidable (_ ∧ _))

/-- An exception is not caught here, and the only entity of the serializer is given back unless
the length is not the one that the message says. -/
def sendTo (s : State) (r : Reference) (toIP toName k : Bytes) (e : ClientEntity)
    (rest : List (Bytes × Option ClientEntity)) : Option State := do
  let cell ← s.memory r.ptr
  if s.serializer.isOccupied then none
  else match s.serializer.serialize cell.object with
    | .error _ => none
    | .ok (data, m) =>
      let s := { s with
        memory := Function.update s.memory r.ptr (some { cell with object := m })
        serializer := { s.serializer with isOccupied := true } }
      if data.length ≠ m.head.msgLen.toNat then
        some { s with send := .iterating r toIP toName rest }
      else some { s with
        send := .releasing r toIP toName rest
        history := .wrote (k, e.clientFd) m :: s.history }

def sendStep (s : State) : SendAction → Option State
  | .popMsg =>
    match s.send, s.sendMsgQueue with
    | .waiting, r :: rs => some { s with sendMsgQueue := rs, send := .popped r }
    | _, _ => none
  | .copyStrings =>
    match s.send with
    | .popped r =>
      match s.memory r.ptr with
      | some ⟨_, .data d⟩ => some { s with send := .copied r d.toProcessIP d.toProcessName }
      | _ => none
    | _ => none
  | .lockTable =>
    match s.send with
    | .copied r toIP toName => some { s with send := .iterating r toIP toName s.table.entries }
    | _ => none
  | .next =>
    match s.send with
    | .iterating _ _ _ [] => some { s with send := .waiting }
    | .iterating r toIP toName ((_, none) :: rest) =>
      some { s with send := .iterating r toIP toName rest }
    | .iterating r toIP toName ((k, some e) :: rest) =>
      if e.Matches toIP toName then sendTo s r toIP toName k e rest
      else some { s with send := .iterating r toIP toName rest }
    | _ => none
  | .releaseEntity =>
    match s.send with
    | .releasing r toIP toName rest =>
      some { s with
        serializer := { s.serializer with isOccupied := false }
        entities := s.entities.releaseEntity r.ptr
        send := .iterating r toIP toName rest }
    | _ => none

def step (s : State) : Action → Option State
  | .epoll a => epollStep s a
  | .loop a => loopStep s a
  | .send a => sendStep s a

def buffer₀ : RecvBuffer := ⟨8192, by decide⟩

def serializer₀ : SerializeEntity := ⟨0, false, by decide⟩

def client₀ : Connection := ⟨5, [49], 50⟩

def client₁ : Connection := ⟨6, [49], 51⟩

def sendFrom (c : Connection) (p : ℕ) (m : MsgObject) (hm : m.encodedSize ≤ clientBufferSize) :
    List Action :=
  [.epoll (.findFd c.fd), .epoll (.read c (.frame m hm)), .epoll .acquireEntity,
    .epoll (.deSerialize p), .epoll .pushMsg, .loop .getMsg]

def connect (c : Connection) : List Action := [.epoll (.accept c buffer₀), .epoll .addClient]

end Xty.Server
