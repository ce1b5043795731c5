import Xty.Network.Order
import Xty.Server.Polling

/-! Whom the messages that a session gets are addressed to. -/

namespace Xty.Network

open Xty.General.Runs Xty.General.LittleEndian
open Xty.Message Xty.Session
open Xty.Server (Reference EpollPc SendPc ClientEntity ClientTable logOutText)

variable {ι κ : Type}

/-- A Reg message carries the name and address of the session that has sent it. -/
def Own (u : ι → SessionState) (m : MsgObject) : Prop :=
  ∀ r, m = .reg r → ∃ i, r.processIP = (u i).processIP ∧ r.processPort = (u i).processPort ∧
    r.processName = (u i).processName

def OwnInHand (u : ι → SessionState) : EpollPc → Prop
  | .received _ b r | .acquired _ b r _ => ∃ m, Server.decodedRead b r = some m ∧ Own u m
  | .deSerialized _ _ m => Own u m
  | .polling | .accepted .. | .found .. | .closed .. => True

/-- Before its Reg message is handled, a client is listed under the empty name and address, and
after its DeReg message under a text that says so. -/
def Listed (u : ι → SessionState) (k ip name : Bytes) : Prop :=
  (ip = [] ∧ name = []) ∨ (ip = logOutText ∧ name = logOutText) ∨
    ∃ i, address (u i) = k ∧ ip = (u i).processIP ∧ name = (u i).processName

def IsFor (s : Server.State) (r : Reference) (toIP toName : Bytes) : Prop :=
  ∃ d, s.value r = some (.data d) ∧ d.toProcessIP = toIP ∧ d.toProcessName = toName

def Destined (s : Server.State) : SendPc → Prop
  | .copied r toIP toName | .iterating r toIP toName _ | .releasing r toIP toName _ =>
    IsFor s r toIP toName
  | .waiting | .popped _ => True

structure Addressed (u : ι → SessionState) (n : State ι κ) (g : Log ι) : Prop where
  objects : ∀ m ∈ n.server.objects, Own u m
  hands : OwnInHand u n.server.epoll
  table : ∀ k e, n.server.table.lookup k = some (some e) → Listed u k e.clientIP e.clientName
  destined : Destined n.server n.server.send
  taken : ∀ i, ∀ r ∈ g.taken i, ∃ toIP toName, IsFor n.server r toIP toName ∧
    Listed u (address (u i)) toIP toName

section Server

variable {u : ι → SessionState} {s t : Server.State} {r : Reference} {toIP toName : Bytes}

lemma IsFor.grow (h : IsFor s r toIP toName) (ho : s.objects <+: t.objects) :
    IsFor t r toIP toName := by
  obtain ⟨d, hd, hrest⟩ := h
  exact ⟨d, Server.value_mono ho hd, hrest⟩

lemma Destined.grow {pc : SendPc} (h : Destined s pc) (ho : s.objects <+: t.objects) :
    Destined t pc := by
  cases pc with
  | waiting | popped => trivial
  | copied | iterating | releasing => exact IsFor.grow h ho

lemma ownInHand_iff {pc : EpollPc} : OwnInHand u pc ↔ pc.Brings (Own u) := by
  cases pc <;> exact Iff.rfl

lemma objects_step (h : ∀ m ∈ s.objects, Own u m) (hp : OwnInHand u s.epoll) {a : Server.Action}
    (ha : internal a = true) (hs : Server.Transition s a t) :
    (∀ m ∈ t.objects, Own u m) ∧ OwnInHand u t.epoll := by
  have hread : ∀ c r, a = .epoll (.read c r) → t.epoll.Brings (Own u) := by
    rintro c r rfl
    cases ha
  obtain ⟨hobjects, hhands⟩ := Server.brings_step h (ownInHand_iff.mp hp) hread hs
  exact ⟨hobjects, ownInHand_iff.mpr hhands⟩

lemma listed_write {T : ClientTable} {k' : Bytes} {f : ClientEntity → ClientEntity}
    (h : ∀ k e, T.lookup k = some (some e) → Listed u k e.clientIP e.clientName)
    (hf : ∀ e, Listed u k' (f e).clientIP (f e).clientName) (k : Bytes) (e : ClientEntity)
    (he : (T.writeClient k' f).lookup k = some (some e)) :
    Listed u k e.clientIP e.clientName := by
  rw [ClientTable.lookup_writeClient, Function.update_apply] at he
  split_ifs at he with hk
  · obtain ⟨e', _, rfl⟩ := Option.map_eq_some_iff.mp (Option.some.inj he)
    exact hk ▸ hf e'
  · exact h k e he

lemma table_step (h : ∀ k e, s.table.lookup k = some (some e) → Listed u k e.clientIP e.clientName)
    (ho : ∀ m ∈ s.objects, Own u m) (hr : Server.Remembered s) {a : Server.Action}
    (hv : Server.ByValue s a) (hs : Server.Transition s a t) (k : Bytes) (e : ClientEntity)
    (he : t.table.lookup k = some (some e)) : Listed u k e.clientIP e.clientName := by
  cases hs with
  | epoll hs =>
    cases hs with
    | addClient =>
      rw [ClientTable.lookup_addClient, Function.update_apply] at he
      split_ifs at he
      · obtain rfl := Option.some.inj (Option.some.inj he)
        exact .inl ⟨rfl, rfl⟩
      · exact h k e he
    | removeClient =>
      rw [ClientTable.lookup_removeClient, Function.update_apply] at he
      split_ifs at he
      exact h k e he
    | refuse | accept | find | findNone | wouldBlock | eof | read | acquireEntity | deSerialize
    | raise | pushMsg => exact h k e he
  | loop hs =>
    cases hs with
    | @reg r m cell hpc hcell hfun =>
      obtain ⟨x, hx, hm⟩ := hr.callBack hv hpc hcell hfun
      have hown := ho x (List.mem_of_getElem? hx)
      have hreg : ∃ y, x = .reg y ∧ y.processIP = m.processIP ∧ y.processPort = m.processPort ∧
          y.processName = m.processName := by
        cases x <;> rcases hm with hm | hm <;> cases hm <;> exact ⟨_, rfl, rfl, rfl, rfl⟩
      obtain ⟨y, rfl, hip, hport, hname⟩ := hreg
      obtain ⟨i, hi⟩ := hown y rfl
      refine listed_write h (fun e => .inr (.inr ⟨i, ?_, ?_, ?_⟩)) k e he
      · rw [address, ← hi.1, ← hi.2.1, hip, hport]
        rfl
      · exact hip.symm.trans hi.1
      · exact hname.symm.trans hi.2.2
    | deReg =>
      exact listed_write h (fun e => .inr (.inl ⟨rfl, rfl⟩)) k e he
    | getMsg | drop | data | release => exact h k e he
  | send hs => cases hs <;> exact h k e he

lemma destined_step (h : Destined s s.send) (hr : Server.Remembered s) {a : Server.Action}
    (hv : Server.ByValue s a) (hs : Server.Transition s a t) : Destined t t.send := by
  have hgrow := h.grow hs.objects_grow
  cases hs with
  | epoll hs => cases hs <;> exact hgrow
  | loop hs => cases hs <;> exact hgrow
  | send hs =>
    cases hs with
    | popMsg | unlock => trivial
    | @copyStrings r d k hpc hcell =>
      have hden : Server.Denotes s r := hv r (by rw [hpc]; exact .head _)
      obtain ⟨m, hm, hobj⟩ := hr.read hden hcell
      have hdata : ∃ x, m = .data x ∧ x.toProcessIP = d.toProcessIP ∧
          x.toProcessName = d.toProcessName := by
        cases m <;> rcases hobj with hobj | hobj <;> cases hobj <;> exact ⟨_, rfl, rfl, rfl⟩
      obtain ⟨x, rfl, hip, hname⟩ := hdata
      exact ⟨x, hm, hip, hname⟩
    | lockTable hpc | skip hpc | write hpc | release hpc =>
      rw [hpc] at hgrow
      exact hgrow

end Server

section Network

variable {u : ι → SessionState} {n n' : State ι κ} {g g' : Log ι} {i : ι}

lemma addressed_init (E : SerializeEntity) : Addressed u (State.init E u : State ι κ) Log.empty :=
  ⟨nofun, trivial, nofun, trivial, nofun⟩

lemma Addressed.congr (h : Addressed u n g) (ho : n'.server.objects = n.server.objects)
    (hp : OwnInHand u n'.server.epoll) (ht : n'.server.table = n.server.table)
    (hs : n'.server.send = n.server.send) (hg : g'.taken = g.taken) : Addressed u n' g' where
  objects := ho ▸ h.objects
  hands := hp
  table := ht ▸ h.table
  destined := hs ▸ h.destined.grow (by rw [ho])
  taken i r hr := by
    obtain ⟨toIP, toName, hfor, hlist⟩ := h.taken i r (hg ▸ hr)
    exact ⟨toIP, toName, hfor.grow (by rw [ho]), hlist⟩

variable [DecidableEq ι]

/-- A whole message at the head of what is on the way is one of those that the session writes. -/
lemma Uplink.kind {m : MsgObject} (h : Uplink (u i) n g i) (hs : Session (u i) (n.clients i))
    (hm : Server.Encodable m) (hr : m.encoding <+: n.toServer i) : ∃ k : MsgObject,
      k.measured = m.measured ∧ (k = regMsg (u i) ∨ k = (u i).deRegMsg ∨ ∃ x, k = .data x) := by
  obtain ⟨ns, hns, hout, _⟩ := h
  obtain ⟨ms, hms, hwritten, _⟩ := hs.stream
  have hall : ∀ x ∈ ns ++ [m], Server.Encodable x := by
    intro x hx
    rcases List.mem_append.mp hx with hx | hx
    · exact hns x hx
    · exact List.mem_singleton.mp hx ▸ hm
  have hstream : Server.stream (ns ++ [m]) <+: Server.stream ms := by
    refine List.IsPrefix.trans ?_ hwritten
    rw [hout, SendThread.stream_append]
    exact (List.prefix_append_right_inj _).mpr (by simpa [Server.stream] using hr)
  obtain ⟨ks, rest, rfl, hmeas, _⟩ := split_of_prefix hall (fun x hx => (hms x hx).1) hstream
  have hmem : m.measured ∈ ks.map MsgObject.measured := by
    rw [hmeas]
    simp
  obtain ⟨k, hk, hkm⟩ := List.mem_map.mp hmem
  exact ⟨k, hkm, (hms k (List.mem_append_left _ hk)).2⟩

lemma Uplink.own {m : MsgObject} (h : Uplink (u i) n g i) (hs : Session (u i) (n.clients i))
    (hm : Server.Encodable m) (hr : m.encoding <+: n.toServer i) : Own u m.measured := by
  obtain ⟨k, hkm, hk⟩ := h.kind hs hm hr
  rintro r hreg
  rw [hreg] at hkm
  rcases hk with rfl | rfl | ⟨x, rfl⟩
  · cases hkm
    exact ⟨i, rfl, rfl, rfl⟩
  · cases hkm
  · cases hkm

lemma Uplink.noQuit {m : MsgObject} (h : Uplink (u i) n g i) (hs : Session (u i) (n.clients i))
    (hm : Server.Encodable m) (hr : m.encoding <+: n.toServer i) :
    m.measured.type ≠ .quitMsg := by
  obtain ⟨k, hkm, hk⟩ := h.kind hs hm hr
  rw [← hkm, MsgObject.measured_type]
  rcases hk with rfl | rfl | ⟨x, rfl⟩ <;> exact nofun

variable [Fintype κ]

lemma Addressed.takes (h : Addressed u n g) (hi : Inv u n g) {a : Server.Action}
    {res : Server.SendResult}
    (hw : ∀ p ∈ n.server.sending a, res.taken = 0 ∨ p.2.length ≤ res.taken) (i : ι) :
    ∀ r ∈ n.takes i a res, ∃ toIP toName, IsFor n.server r toIP toName ∧
      Listed u (address (u i)) toIP toName := by
  by_cases hd : n.delivered i a res = []
  · simp [State.takes, hd]
  · obtain ⟨_, c, r, toIP, toName, k, e, rest, d, hl, hbound, hpc, hmatch, _, _, htakes⟩ :=
      delivery hi.inTurn hw hd
    obtain ⟨hc, haddr⟩ := hi.established i c hl
    have hk := hi.inTurn.tracked.key_of_fd hbound hc rfl
    have hfor := h.destined
    rw [hpc] at hfor
    have hentry : (k, some e) ∈ n.server.table.entries :=
      hi.inTurn.visiting _ (by rw [hpc]; exact .head _)
    have hlist := h.table k e (General.SortedTable.Table.lookup_eq_some.mpr hentry)
    rw [hmatch.1, hmatch.2, ← hk, haddr] at hlist
    intro r' hr'
    rw [htakes, List.mem_singleton] at hr'
    exact hr' ▸ ⟨toIP, toName, hfor, hlist⟩

lemma Addressed.step [DecidableEq κ] (h : Addressed u n g) (hi : Inv u n g) {a : Action ι κ}
    (hc : Orderly n a) (hs : Transition n a n') : Addressed u n' (Log.record n a n' g) := by
  cases hs with
  | start | send | recv => exact h.congr rfl h.hands rfl rfl rfl
  | accept _ _ hs =>
    cases hs with
    | epoll hs =>
    cases hs with
    | refuse => exact h.congr rfl h.hands rfl rfl rfl
    | accept => exact h.congr rfl trivial rfl rfl rfl
  | @read i c r s hl hr hs =>
    obtain ⟨m, hm, hbytes⟩ := hc
    have hown := (hi.uplinks i).own (hi.sessions i) hm (hbytes ▸ hr)
    cases hs with
    | epoll hs =>
    cases hs with
    | read => exact h.congr rfl ⟨_, Server.decodedRead_frame _ hm hbytes, hown⟩ rfl rfl rfl
  | eof _ hs =>
    cases hs with
    | epoll hs =>
    cases hs with
    | eof => exact h.congr rfl trivial rfl rfl rfl
  | @server a res s ha hs =>
    have hv := hi.inTurn.owned.byValue a
    have hr := hi.inTurn.classed.remembered
    obtain ⟨hobjects, hhands⟩ := objects_step h.objects h.hands ha hs
    refine ⟨hobjects, hhands, table_step h.table h.objects hr hv hs,
      destined_step h.destined hr hv hs, fun i r hmem => ?_⟩
    have htaken : ∃ toIP toName, IsFor n.server r toIP toName ∧
        Listed u (address (u i)) toIP toName := by
      rcases List.mem_append.mp hmem with hmem | hmem
      · exact h.taken i r hmem
      · exact h.takes hi hc.2 i r hmem
    obtain ⟨toIP, toName, hfor, hlist⟩ := htaken
    exact ⟨toIP, toName, hfor.grow hs.objects_grow, hlist⟩

lemma Addressed.copies (h : Addressed u n g) (hi : Inv u n g) (i : ι) :
    ∀ c ∈ (n.clients i).receiver.copies,
      Listed u (address (u i)) c.2.toProcessIP c.2.toProcessName := by
  rintro ⟨j, c⟩ hc
  obtain ⟨_, hheld⟩ := hi.receivers i
  obtain ⟨ks, _, _, xs, hxs, hmeas⟩ := hi.downlinks i
  have hmem : MsgObject.data c ∈ xs.map MsgObject.measured := by
    rw [hmeas, received]
    have hdec := hheld.handedOver.faithful.subset (List.mem_map_of_mem hc)
    simp [hdec]
  obtain ⟨x, hx, hxc⟩ := List.mem_map.mp hmem
  have hval : some x ∈ (g.taken i).map n.server.value := by
    rw [hxs]
    exact List.mem_map_of_mem hx
  obtain ⟨r, hr, hrx⟩ := List.mem_map.mp hval
  obtain ⟨toIP, toName, ⟨d, hd, rfl, rfl⟩, hlist⟩ := h.taken i r hr
  obtain rfl := Option.some.inj (hrx.symm.trans hd)
  cases hxc
  exact hlist

variable [DecidableEq κ]

/-- A message that a client gets is for the name and address of a session at its own address, or it
names no receiver or the text for one that has left. -/
theorem messages_addressed {E : SerializeEntity} (h : Reaches step Orderly (State.init E u) n)
    (i : ι) : ∀ c ∈ (n.clients i).receiver.copies,
      Listed u (address (u i)) c.2.toProcessIP c.2.toProcessName := by
  obtain ⟨g, hg⟩ := observed_of_reaches h
  have hboth : Inv u n g ∧ Addressed u n g := by
    refine hg.invariant (I := fun x => Inv u x.1 x.2 ∧ Addressed u x.1 x.2)
      ⟨inv_init E, addressed_init E⟩ ?_
    rintro s f a t ⟨hi, ha⟩ hc hst
    have hs := transition_of_step hst
    exact ⟨hi.step hc hs, ha.step hi hc hs⟩
  exact hboth.2.copies hboth.1 i

theorem messages_addressed_beta : ∃ n : State (Fin 2) (Fin 1),
    Reaches step Orderly (State.init Server.serializer₀ ![alpha, beta]) n ∧
      ∃ c ∈ (n.clients 1).receiver.copies, c.2.toProcessName = beta.processName ∧
        Listed ![alpha, beta] (address beta) c.2.toProcessIP c.2.toProcessName := by
  have h : (execute step (OrderlyOf alphaBetaMsgs)
      (State.init Server.serializer₀ ![alpha, beta] : State (Fin 2) (Fin 1))
      (connectAlphaBeta ++ alphaToBeta 7 (by decide) ++
        betaReceives (.data (toBeta 7)) (by decide))).map (fun n => (n.clients 1).receiver.copies)
      = some [(0, ⟨⟨4, 39⟩, [49], [98], [7]⟩)] := by
    decide +kernel
  obtain ⟨n, hn, hcopies⟩ := reaches_of_execute_map h
  have hreach := hn.mono fun _ => orderly_of alphaBetaMsgs_encodable
  have hmem : (0, ⟨⟨4, 39⟩, [49], [98], [7]⟩) ∈ (n.clients 1).receiver.copies := by
    rw [hcopies]
    exact List.mem_singleton.mpr rfl
  exact ⟨n, hreach, _, hmem, rfl, messages_addressed hreach 1 _ hmem⟩

end Network

end Xty.Network
