import Xty.Network.State
import Xty.Server.DataOrder

/-! From the sessions to the queues of the server. -/

namespace Xty.Network

open Xty.General.LittleEndian
open Xty.Message Xty.Session
open Xty.Server (Reference DataLog EpollPc stream)

/-- `reader` is the client that the epoll thread has last read from, `arrived` are the Data messages
that it has pushed, with their clients, and `taken` are those that a client's socket has taken. -/
structure Log (ι : Type) where
  data : DataLog
  reader : Option ι
  arrived : List (ι × DataMsg)
  taken : ι → List Reference

variable {ι κ : Type}

def Log.empty : Log ι := ⟨⟨[], []⟩, none, [], fun _ => []⟩

def State.arrivals (n : State ι κ) (g : Log ι) : Server.Action → List (ι × DataMsg)
  | .epoll .pushMsg =>
    match n.server.epoll, g.reader with
    | .deSerialized _ _ (.data d), some i => [(i, d)]
    | _, _ => []
  | _ => []

def State.takes (n : State ι κ) (i : ι) (a : Server.Action) (res : Server.SendResult) :
    List Reference :=
  if n.delivered i a res = [] then [] else n.server.send.carried

def Log.record (n : State ι κ) (a : Action ι κ) (n' : State ι κ) (g : Log ι) : Log ι :=
  match a with
  | .read i _ => { g with reader := some i }
  | .server a res => { g with
      data := DataLog.record n.server a n'.server g.data
      arrived := g.arrived ++ n.arrivals g a
      taken := fun i => g.taken i ++ n.takes i a res }
  | .start _ | .accept .. | .eof _ | .send .. | .recv .. => g

def messages : EpollPc → List MsgObject
  | .received _ b r | .acquired _ b r _ => (Server.decodedRead b r).toList
  | .deSerialized _ _ m => [m]
  | .polling | .accepted .. | .found .. | .closed .. => []

def Client.written (u : SessionState) (c : Client κ) : Bytes :=
  if c.link = .absent then [] else (regMsg u).encoding ++ c.sender.output

structure Session (u : SessionState) (c : Client κ) : Prop where
  inv : c.sender.Inv u.deRegMsg
  tagged : ∀ m ∈ c.sender.submitted, (MsgObject.data m).Tagged
  absent : c.link = .absent → c.sender = SendThread.start u
  fits : c.link ≠ .absent → Fits (regMsg u)

section Streams

lemma dataMsgs_measured (ms : List MsgObject) : dataMsgs (ms.map MsgObject.measured)
    = (dataMsgs ms).map DataMsg.calculateSerializedMsgLen := by
  induction ms with
  | nil => rfl
  | cons m ms ih =>
    simp only [dataMsgs, List.map_cons] at ih ⊢
    cases m <;> simp only [List.filterMap_cons, MsgObject.measured, MsgObject.setHead, asDataMsg,
      ih, List.map_cons]
    rfl

lemma stream_cons (m : MsgObject) (ms : List MsgObject) :
    stream (m :: ms) = m.encoding ++ stream ms := List.flatMap_cons

lemma frame_of_prefix {m : MsgObject} {ks : List MsgObject} (hm : Server.Encodable m)
    (hks : ∀ k ∈ ks, Server.Encodable k) (h : m.encoding <+: stream ks) :
    ∃ k ks', ks = k :: ks' ∧ k.measured = m.measured ∧
      (stream ks).drop m.encoding.length = stream ks' := by
  cases ks with
  | nil =>
    have hpos := m.encoding_pos
    rw [List.prefix_nil.mp h] at hpos
    cases hpos
  | cons k ks =>
    obtain ⟨t, ht⟩ := h
    obtain ⟨hk, hkf⟩ := hks k List.mem_cons_self
    rw [stream_cons] at ht
    have hmeas := MsgObject.measured_of_append hm.1 hk hm.2 hkf ht
    obtain ⟨_, _, hrest⟩ := MsgObject.encoding_append_inj hm.1 hk hm.2 hkf ht
    refine ⟨k, ks, rfl, hmeas.symm, ?_⟩
    rw [stream_cons, ← ht, List.drop_left, hrest]

lemma split_of_prefix {ns ms : List MsgObject} (hns : ∀ m ∈ ns, Server.Encodable m)
    (hms : ∀ m ∈ ms, Server.Encodable m) (h : stream ns <+: stream ms) :
    ∃ ks rest, ms = ks ++ rest ∧ ks.map MsgObject.measured = ns.map MsgObject.measured ∧
      stream ks = stream ns := by
  induction ns generalizing ms with
  | nil => exact ⟨[], ms, rfl, rfl, rfl⟩
  | cons n ns ih =>
    have hn := hns n List.mem_cons_self
    have hfirst : n.encoding <+: stream ms := (List.prefix_append _ (stream ns)).trans h
    obtain ⟨k, ks, rfl, hk, hdrop⟩ := frame_of_prefix hn hms hfirst
    have hrest : stream ns <+: stream ks := by
      obtain ⟨t, ht⟩ := h
      rw [← hdrop, ← ht, stream_cons, List.append_assoc, List.drop_left]
      exact List.prefix_append _ _
    obtain ⟨ls, rest, rfl, hmeas, hstream⟩ := ih (fun m hm => hns m (List.mem_cons_of_mem _ hm))
      (fun m hm => hms m (List.mem_cons_of_mem _ hm)) hrest
    have henc : k.encoding = n.encoding := by
      rw [← k.encoding_measured, hk, n.encoding_measured]
    exact ⟨k :: ls, rest, rfl, by simp [hk, hmeas], by simp [stream_cons, henc, hstream]⟩

end Streams

section Registering

lemma transmit_ok {u t : SessionState} {m : MsgObject} {r : SendResult}
    (h : u.transmit m = some (.ok (r, t))) :
    Fits m ∧ t = { u with sent := m.encoding :: u.sent } := by
  rw [SessionState.transmit] at h
  split_ifs at h
  split at h
  · cases h
  · next hser =>
    have hlen := Server.serialized_length hser
    obtain ⟨rfl, rfl, hfits⟩ := SerializeEntity.serialize_inv hser
    rw [if_neg (not_not_intro hlen)] at h
    cases h
    exact ⟨hfits, rfl⟩

lemma register_started {u t : SessionState} {r : SendResult}
    (h : (SendThread.start u).register = some (.ok (r, t))) :
    Fits (regMsg u) ∧ SendThread.start t = SendThread.start u ∧
      t.sent.reverse.flatten = (regMsg u).encoding := by
  obtain ⟨hfits, rfl⟩ := transmit_ok h
  exact ⟨hfits, rfl, List.append_nil _⟩

end Registering

section Uplinks

/-- What the server has read of a client are whole messages, and the Data messages among them have
been pushed or are in the hands of the epoll thread. -/
def Uplink (u : SessionState) (n : State ι κ) (g : Log ι) [DecidableEq ι] (i : ι) : Prop :=
  ∃ ns, (∀ m ∈ ns, Server.Encodable m) ∧ (n.clients i).written u = stream ns ++ n.toServer i ∧
    dataMsgs (ns.map MsgObject.measured) = (g.arrived.filter (·.1 = i)).map Prod.snd ++
      if g.reader = some i then dataMsgs (messages n.server.epoll) else []

variable [DecidableEq ι] {u : SessionState} {n n' : State ι κ} {g : Log ι} {i j : ι}

lemma Uplink.congr (h : Uplink u n g i) {g' : Log ι}
    (hw : (n'.clients i).written u = (n.clients i).written u)
    (hs : n'.toServer i = n.toServer i) (hg : g'.arrived = g.arrived)
    (hr : (if g'.reader = some i then dataMsgs (messages n'.server.epoll) else [])
      = if g.reader = some i then dataMsgs (messages n.server.epoll) else []) :
    Uplink u n' g' i := by
  obtain ⟨ns, hns, hout, hdata⟩ := h
  exact ⟨ns, hns, by rw [hw, hs, hout], by rw [hg, hr, hdata]⟩

lemma messages_step {s t : Server.State} {a : Server.Action} (ha : internal a = true)
    (hs : Server.Transition s a t) :
    (a = .epoll .pushMsg ∧ ∃ c r m, s.epoll = .deSerialized c r m ∧ messages t.epoll = []) ∨
      a ≠ .epoll .pushMsg ∧ messages t.epoll = messages s.epoll := by
  cases hs with
  | epoll hs =>
    cases hs with
    | refuse | accept | eof | read => cases ha
    | pushMsg hpc => exact .inl ⟨rfl, _, _, _, hpc, rfl⟩
    | addClient hpc | find hpc | wouldBlock hpc | removeClient hpc | acquireEntity hpc =>
      exact .inr ⟨by simp, by rw [hpc]; rfl⟩
    | findNone => exact .inr ⟨by simp, rfl⟩
    | deSerialize hpc _ hdec | raise hpc _ hdec =>
      exact .inr ⟨by simp, by simp [hpc, messages, Server.decodedRead, hdec]⟩
  | loop hs => cases hs <;> exact .inr ⟨by simp, rfl⟩
  | send hs => cases hs <;> exact .inr ⟨by simp, rfl⟩

lemma Uplink.server (h : Uplink u n g i) {a : Server.Action} {res : Server.SendResult}
    {s : Server.State} {f : ι → Bytes} (ha : internal a = true)
    (hs : Server.Transition n.server a s) :
    Uplink u { n with server := s, toClient := f }
      (Log.record n (.server a res) { n with server := s, toClient := f } g) i := by
  obtain ⟨ns, hns, hout, hdata⟩ := h
  refine ⟨ns, hns, hout, hdata.trans ?_⟩
  rcases messages_step ha hs with ⟨rfl, c, r, m, hpc, hnone⟩ | ⟨hne, hsame⟩
  · have hold : messages n.server.epoll = [m] := by
      rw [hpc]
      rfl
    rw [hold]
    rcases hreader : g.reader with _ | j
    · simp [Log.record, State.arrivals, hpc, hreader]
    · by_cases hij : j = i
      · cases m <;> simp [Log.record, State.arrivals, hpc, hreader, hnone, hij, dataMsgs,
          asDataMsg]
      · cases m <;> simp [Log.record, State.arrivals, hpc, hreader, hij]
  · have hnone : n.arrivals g a = [] := by
      unfold State.arrivals
      split
      · exact absurd rfl hne
      · rfl
    simp [Log.record, hnone, hsame]

lemma written_absent {c : Client κ} (h : c.link = .absent) : c.written u = [] := if_pos h

lemma written_present {c : Client κ} (h : c.link ≠ .absent) :
    c.written u = (regMsg u).encoding ++ c.sender.output := if_neg h

lemma written_link {c : Client κ} (h : c.link ≠ .absent) {l : Link} (hl : l ≠ .absent) :
    Client.written u { c with link := l } = c.written u := by
  rw [written_present (c := { c with link := l }) hl, written_present h]

lemma Uplink.setLink (h : Uplink u n g i) {l : Link} {s : Server.State}
    (hj : (n.clients j).link ≠ .absent) (hl : l ≠ .absent)
    (hs : messages s.epoll = messages n.server.epoll) :
    Uplink u { n.setLink j l with server := s } g i := by
  refine h.congr ?_ rfl rfl (by simp only [hs])
  by_cases hij : i = j
  · subst hij
    simpa [State.setLink] using written_link hj hl
  · simp [State.setLink, hij]

lemma Uplink.start (h : Uplink u n g i) {v : SessionState} {r : SendResult}
    (hc : Session u (n.clients i)) (hl : (n.clients i).link = .absent)
    (hr : (n.clients i).sender.register = some (.ok (r, v))) :
    Uplink u { n with
      clients := Function.update n.clients i
        { n.clients i with sender := SendThread.start v, link := .requested }
      toServer := Function.update n.toServer i v.sent.reverse.flatten } g i := by
  rw [hc.absent hl] at hr
  obtain ⟨_, _, hsent⟩ := register_started hr
  obtain ⟨ns, hns, hout, hdata⟩ := h
  have hnone : stream ns = [] := by
    rw [written_absent hl] at hout
    exact (List.append_eq_nil_iff.mp hout.symm).1
  refine ⟨ns, hns, ?_, hdata⟩
  simp [hnone, hsent, Client.written, SendThread.start, SendThread.State.output]

lemma Uplink.read (h : Uplink u n g i) {c : Server.Connection} {r : Server.ReadBytes}
    {s : Server.State} (hm : ∃ m, Server.Encodable m ∧ r.bytes = m.encoding)
    (hr : r.bytes <+: n.toServer i) (hs : Server.Transition n.server (.epoll (.read c r)) s) :
    Uplink u { n with
      server := s
      toServer := Function.update n.toServer i ((n.toServer i).drop r.bytes.length) }
      { g with reader := some i } i := by
  obtain ⟨ns, hns, hout, hdata⟩ := h
  obtain ⟨m, hm, hbytes⟩ := hm
  cases hs with
  | epoll hs =>
  cases hs with
  | @read _ _ _ _ b hpc =>
    obtain ⟨rest, hrest⟩ := hr
    refine ⟨ns ++ [m], ?_, ?_, ?_⟩
    · intro x hx
      rcases List.mem_append.mp hx with hx | hx
      · exact hns x hx
      · exact List.mem_singleton.mp hx ▸ hm
    · simpa [SendThread.stream_append, stream, ← hbytes, ← hrest] using hout
    · have hnone : messages n.server.epoll = [] := by
        rw [hpc]
        rfl
      have hnew : messages (.received c b r) = [m.measured] := by
        rw [messages, Server.decodedRead_frame b hm hbytes]
        rfl
      rw [List.map_append, SendThread.dataMsgs_append, hdata, hnone]
      simp [hnew, dataMsgs]

lemma Uplink.read_other (h : Uplink u n g i) {c : Server.Connection} {r : Server.ReadBytes}
    {s : Server.State} (hij : j ≠ i) (hs : Server.Transition n.server (.epoll (.read c r)) s) :
    Uplink u { n with
      server := s
      toServer := Function.update n.toServer j ((n.toServer j).drop r.bytes.length) }
      { g with reader := some j } i := by
  cases hs with
  | epoll hs =>
  cases hs with
  | read hpc =>
    refine h.congr rfl (Function.update_of_ne hij.symm _ _) rfl ?_
    simp [hpc, messages, hij, dataMsgs]

lemma Uplink.send (h : Uplink u n g i) {a : SendThread.Action} {t : SendThread.State}
    (hc : Session u (n.clients i)) (hl : (n.clients i).link ≠ .absent)
    (hs : SendThread.step (n.clients i).sender a = some t) :
    Uplink u { n with
      clients := Function.update n.clients i { n.clients i with sender := t }
      toServer := Function.update n.toServer i (n.toServer i ++ (n.clients i).sender.puts a) }
      g i := by
  obtain ⟨ns, hns, hout, hdata⟩ := h
  refine ⟨ns, hns, ?_, hdata⟩
  rw [written_present hl] at hout
  simp only [Function.update_self]
  rw [written_present (c := { n.clients i with sender := t }) hl,
    SendThread.output_step hc.inv hs, ← List.append_assoc, hout, List.append_assoc]

end Uplinks

end Xty.Network
