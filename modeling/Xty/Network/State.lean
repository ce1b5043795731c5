import Xty.Server.ActiveClients
import Xty.Server.Sockets
import Xty.Session.Output
import Xty.Session.RecvThread

/-! The server together with its sessions: what one side of a connection has written and the other
side has not read is on its way. -/

namespace Xty.Network

open Xty.General.LittleEndian
open Xty.Message Xty.Session
open Xty.Server (Connection ReadBytes RecvBuffer ipPort)

/-- A connection is `requested` until the server accepts it, and `closed` when the server has closed
its socket. -/
inductive Link where
  | absent
  | requested
  | established (c : Connection)
  | closed
deriving DecidableEq

structure Client (κ : Type) where
  sender : SendThread.State
  receiver : RecvThread.State κ
  link : Link

structure State (ι κ : Type) where
  server : Server.State
  clients : ι → Client κ
  toServer : ι → Bytes
  toClient : ι → Bytes

inductive Action (ι κ : Type) where
  | start (i : ι)
  | accept (i : ι) (c : Connection) (b : RecvBuffer)
  | read (i : ι) (r : ReadBytes)
  | eof (i : ι)
  | server (a : Server.Action) (res : Server.SendResult)
  | send (i : ι) (a : SendThread.Action)
  | recv (i : ι) (a : RecvThread.Action κ)

def regMsg (u : SessionState) : MsgObject :=
  .reg ⟨⟨MsgType.regMsg.code, 0⟩, u.processName, u.processIP, u.processPort⟩

def address (u : SessionState) : Bytes := ipPort u.processIP u.processPort

/-- The process is gone, and the kernel has closed its sockets. -/
def ended (s : SendThread.State) : Bool :=
  match s.sender, s.main with
  | .failed _, _ | _, .exited => true
  | _, _ => false

def internal : Server.Action → Bool
  | .epoll (.accept ..) | .epoll (.read ..) | .epoll (.eof _) => false
  | .epoll .addClient | .epoll (.findFd _) | .epoll .wouldBlock | .epoll .removeClient
  | .epoll .acquireEntity | .epoll (.deSerialize _) | .epoll .pushMsg | .loop _ | .send _ => true

def consumed {κ : Type} : RecvThread.Action κ → Bytes
  | .recv _ d => d.bytes
  | .acquire | .prepare _ | .decode | .enQueue | .produce | .signal _ | .consume _ | .wake _
  | .deQueue _ | .copy _ | .release _ => []

variable {ι κ : Type}

def Client.init (u : SessionState) : Client κ :=
  ⟨SendThread.start u, RecvThread.State.init, .absent⟩

def State.init (E : SerializeEntity) (u : ι → SessionState) : State ι κ :=
  ⟨Server.State.init E, fun i => Client.init (u i), fun _ => [], fun _ => []⟩

def Link.hasFd (fd : ℕ) : Link → Bool
  | .established c => c.fd = fd
  | .absent | .requested | .closed => false

/-- The bytes that the socket of client `i` takes when the server sends. -/
def State.delivered (n : State ι κ) (i : ι) (a : Server.Action) (res : Server.SendResult) : Bytes :=
  match n.server.sending a with
  | some ((_, fd), data) => if (n.clients i).link.hasFd fd then data.take res.taken else []
  | none => []

section Steps

variable [DecidableEq ι] [DecidableEq κ] [Fintype κ]

def State.setLink (n : State ι κ) (i : ι) (l : Link) : State ι κ :=
  { n with clients := Function.update n.clients i { n.clients i with link := l } }

/-- A session whose `Register` throws never starts. -/
def step (n : State ι κ) : Action ι κ → Option (State ι κ)
  | .start i =>
    match (n.clients i).link, (n.clients i).sender.register with
    | .absent, some (.ok (_, u)) =>
      some { n with
        clients := Function.update n.clients i
          { n.clients i with sender := SendThread.start u, link := .requested }
        toServer := Function.update n.toServer i u.sent.reverse.flatten }
    | _, _ => none
  | .accept i c b =>
    if (n.clients i).link = .requested ∧
        c.clientIPPort = address (n.clients i).sender.toSessionState then
      (Server.step n.server (.epoll (.accept c b))).map fun s =>
        { n.setLink i (if c ∈ s.connections then .established c else .closed) with server := s }
    else none
  | .read i r =>
    match (n.clients i).link with
    | .established c =>
      if r.bytes <+: n.toServer i then
        (Server.step n.server (.epoll (.read c r))).map fun s => { n with
          server := s
          toServer := Function.update n.toServer i ((n.toServer i).drop r.bytes.length) }
      else none
    | .absent | .requested | .closed => none
  | .eof i =>
    match (n.clients i).link with
    | .established c =>
      if ended (n.clients i).sender ∧ n.toServer i = [] then
        (Server.step n.server (.epoll (.eof c))).map fun s =>
          { n.setLink i .closed with server := s }
      else none
    | .absent | .requested | .closed => none
  | .server a res =>
    if internal a then
      (Server.step n.server a).map fun s => { n with
        server := s
        toClient := fun i => n.toClient i ++ n.delivered i a res }
    else none
  | .send i a =>
    if (n.clients i).link = .absent then none
    else (SendThread.step (n.clients i).sender a).map fun t => { n with
      clients := Function.update n.clients i { n.clients i with sender := t }
      toServer := Function.update n.toServer i (n.toServer i ++ (n.clients i).sender.puts a) }
  | .recv i a =>
    if (n.clients i).link ≠ .absent ∧ ended (n.clients i).sender = false ∧
        consumed a <+: n.toClient i then
      (RecvThread.step (n.clients i).receiver a).map fun t => { n with
        clients := Function.update n.clients i { n.clients i with receiver := t }
        toClient := Function.update n.toClient i ((n.toClient i).drop (consumed a).length) }
    else none

inductive Transition (n : State ι κ) : Action ι κ → State ι κ → Prop
  | start {i r u} (hl : (n.clients i).link = .absent)
      (hr : (n.clients i).sender.register = some (.ok (r, u))) :
      Transition n (.start i) { n with
        clients := Function.update n.clients i
          { n.clients i with sender := SendThread.start u, link := .requested }
        toServer := Function.update n.toServer i u.sent.reverse.flatten }
  | accept {i c b s} (hl : (n.clients i).link = .requested)
      (hc : c.clientIPPort = address (n.clients i).sender.toSessionState)
      (hs : Server.Transition n.server (.epoll (.accept c b)) s) :
      Transition n (.accept i c b)
        { n.setLink i (if c ∈ s.connections then .established c else .closed) with server := s }
  | read {i c r s} (hl : (n.clients i).link = .established c) (hr : r.bytes <+: n.toServer i)
      (hs : Server.Transition n.server (.epoll (.read c r)) s) :
      Transition n (.read i r) { n with
        server := s
        toServer := Function.update n.toServer i ((n.toServer i).drop r.bytes.length) }
  | eof {i c s} (hl : (n.clients i).link = .established c)
      (hs : Server.Transition n.server (.epoll (.eof c)) s) :
      Transition n (.eof i) { n.setLink i .closed with server := s }
  | server {a res s} (ha : internal a = true) (hs : Server.Transition n.server a s) :
      Transition n (.server a res) { n with
        server := s
        toClient := fun i => n.toClient i ++ n.delivered i a res }
  | send {i a t} (hl : (n.clients i).link ≠ .absent)
      (hs : SendThread.step (n.clients i).sender a = some t) :
      Transition n (.send i a) { n with
        clients := Function.update n.clients i { n.clients i with sender := t }
        toServer := Function.update n.toServer i (n.toServer i ++ (n.clients i).sender.puts a) }
  | recv {i a t} (hr : consumed a <+: n.toClient i)
      (hs : RecvThread.step (n.clients i).receiver a = some t) :
      Transition n (.recv i a) { n with
        clients := Function.update n.clients i { n.clients i with receiver := t }
        toClient := Function.update n.toClient i ((n.toClient i).drop (consumed a).length) }

lemma transition_of_step {n n' : State ι κ} {a : Action ι κ} (h : step n a = some n') :
    Transition n a n' := by
  cases a with
  | start i =>
    rw [step] at h
    split at h
    · next hl hr =>
      obtain rfl := Option.some.inj h
      exact .start hl hr
    · cases h
  | accept i c b =>
    rw [step] at h
    split_ifs at h with hg
    obtain ⟨s, hs, rfl⟩ := Option.map_eq_some_iff.mp h
    exact .accept hg.1 hg.2 (Server.transition_of_step hs)
  | read i r =>
    rw [step] at h
    split at h
    · next hl =>
      split_ifs at h with hr
      obtain ⟨s, hs, rfl⟩ := Option.map_eq_some_iff.mp h
      exact .read hl hr (Server.transition_of_step hs)
    all_goals cases h
  | eof i =>
    rw [step] at h
    split at h
    · next hl =>
      split_ifs at h
      obtain ⟨s, hs, rfl⟩ := Option.map_eq_some_iff.mp h
      exact .eof hl (Server.transition_of_step hs)
    all_goals cases h
  | server a res =>
    rw [step] at h
    split_ifs at h with ha
    obtain ⟨s, hs, rfl⟩ := Option.map_eq_some_iff.mp h
    exact .server ha (Server.transition_of_step hs)
  | send i a =>
    rw [step] at h
    split_ifs at h with hl
    obtain ⟨t, ht, rfl⟩ := Option.map_eq_some_iff.mp h
    exact .send hl ht
  | recv i a =>
    rw [step] at h
    split_ifs at h with hg
    obtain ⟨t, ht, rfl⟩ := Option.map_eq_some_iff.mp h
    exact .recv hg.2.2 ht

end Steps

section Links

variable [DecidableEq ι] (n : State ι κ) (i j : ι) (l : Link)

lemma setLink_clients : (n.setLink i l).clients j
    = { n.clients j with link := if j = i then l else (n.clients j).link } := by
  by_cases hj : j = i
  · subst hj
    simp [State.setLink]
  · simp [State.setLink, hj]

lemma setLink_link :
    ((n.setLink i l).clients j).link = if j = i then l else (n.clients j).link := by
  rw [setLink_clients]

lemma setLink_sender : ((n.setLink i l).clients j).sender = (n.clients j).sender := by
  rw [setLink_clients]

lemma setLink_receiver : ((n.setLink i l).clients j).receiver = (n.clients j).receiver := by
  rw [setLink_clients]

end Links

/-- Each read returns one whole frame, a socket takes a frame whole or not at all, the server gives
a message back when the last client has got it, and no program changes the type of a message. -/
def Orderly (n : State ι κ) : Action ι κ → Prop
  | .read _ r => ∃ m, Server.Encodable m ∧ r.bytes = m.encoding
  | .server a res => Server.GivesBackLast n.server a ∧
    ∀ p ∈ n.server.sending a, res.taken = 0 ∨ p.2.length ≤ res.taken
  | .send _ (.sendMsg m) => (MsgObject.data m).Tagged
  | .recv _ (.recv _ d) => ∃ m, Server.Encodable m ∧ d.bytes = m.encoding
  | _ => True

end Xty.Network
