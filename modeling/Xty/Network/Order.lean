import Xty.Network.Downlink

/-! The invariant of the network, and the order in which the messages of all sessions arrive. -/

namespace Xty.Network

open Xty.General.Runs Xty.General.LittleEndian
open Xty.Message Xty.Session
open Xty.Server (Reference DataLog InTurn)

variable {ι κ : Type} [DecidableEq ι]

structure Inv (u : ι → SessionState) (n : State ι κ) (g : Log ι) [Fintype κ] : Prop where
  inTurn : InTurn n.server g.data
  sessions : ∀ i, Session (u i) (n.clients i)
  established : ∀ i c, (n.clients i).link = .established c →
    c ∈ n.server.connections ∧ c.clientIPPort = address (u i)
  apart : ∀ i j c, (n.clients i).link = .established c → (n.clients j).link = .established c → i = j
  uplinks : ∀ i, Uplink (u i) n g i
  busy : messages n.server.epoll ≠ [] → g.reader ≠ none
  arrived : Valued n.server g.data.pushed (g.arrived.map fun a => .data a.2)
  rounds : ∀ i, n.server.send.Serves (address (u i)) g.data.popped (g.taken i)
  downlinks : ∀ i, Downlink n g i
  receivers : ∀ i, ∃ h, RecvThread.HeldBy (n.clients i).receiver h

section Sessions

variable {u : SessionState} {c : Client κ}

lemma Session.address_eq (h : Session u c) : address c.sender.toSessionState = address u := by
  have hd := h.inv.deReg
  simp only [SessionState.deRegMsg, MsgObject.deReg.injEq, DeRegMsg.mk.injEq] at hd
  rw [address, address, hd.2.2.1, hd.2.2.2]

lemma session_init (u : SessionState) : Session u (Client.init u : Client κ) :=
  ⟨SendThread.inv_start u, nofun, fun _ => rfl, fun h => absurd rfl h⟩

lemma Session.setLink (h : Session u c) (hl : c.link ≠ .absent) {l : Link} (hl' : l ≠ .absent) :
    Session u { c with link := l } :=
  ⟨h.inv, h.tagged, fun he => absurd he hl', fun _ => h.fits hl⟩

lemma Session.start (h : Session u c) {v : SessionState} {r : SendResult} (hl : c.link = .absent)
    (hr : c.sender.register = some (.ok (r, v))) :
    Session u { c with sender := SendThread.start v, link := .requested } := by
  rw [h.absent hl] at hr
  obtain ⟨hfits, hstart, _⟩ := register_started hr
  exact ⟨hstart ▸ SendThread.inv_start u, nofun, nofun, fun _ => hfits⟩

lemma Session.send (h : Session u c) {a : SendThread.Action} {t : SendThread.State}
    (hl : c.link ≠ .absent) (ha : ∀ m, a = .sendMsg m → (MsgObject.data m).Tagged)
    (hs : SendThread.step c.sender a = some t) : Session u { c with sender := t } :=
  ⟨h.inv.step hs, SendThread.submitted_step h.tagged ha hs, fun he => absurd he hl, h.fits⟩

end Sessions

section Invariant

variable [Fintype κ] {u : ι → SessionState} {n n' : State ι κ} {g : Log ι} {i : ι}

lemma connections_internal {s t : Server.State} {a : Server.Action} (ha : internal a = true)
    (hs : Server.Transition s a t) : t.connections = s.connections := by
  cases hs with
  | epoll hs =>
    cases hs with
    | refuse | accept | eof | read => cases ha
    | addClient | find | findNone | wouldBlock | removeClient | acquireEntity | deSerialize | raise
    | pushMsg => rfl
  | loop hs => cases hs <;> rfl
  | send hs => cases hs <;> rfl

lemma send_write {s t : Server.State} {r : Reference} {toIP toName k : Bytes}
    {e : Server.ClientEntity} {rest : List (Bytes × Option Server.ClientEntity)}
    (hpc : s.send = .iterating r toIP toName ((k, some e) :: rest)) (hm : e.Matches toIP toName)
    (hs : Server.Transition s (.send .next) t) : t.send = .releasing r toIP toName rest := by
  cases hs with
  | send hs =>
    cases hs with
    | unlock hpc' =>
      rw [hpc] at hpc'
      cases hpc'
    | skip hpc' hskip =>
      rw [hpc] at hpc'
      cases hpc'
      exact absurd hm (hskip e rfl)
    | write hpc' =>
      rw [hpc] at hpc'
      cases hpc'
      rfl

lemma inv_init (E : SerializeEntity) : Inv u (State.init E u : State ι κ) Log.empty where
  inTurn := Server.inTurn_init E
  sessions i := session_init (u i)
  established _ _ h := by cases h
  apart _ _ _ h := by cases h
  uplinks i := ⟨[], nofun, rfl, rfl⟩
  busy h := absurd rfl h
  arrived := rfl
  rounds _ := List.Sublist.refl _
  downlinks i := ⟨[], nofun, rfl, [], rfl, rfl⟩
  receivers _ := ⟨_, RecvThread.heldBy_init⟩

lemma Inv.rounds_server (h : Inv u n g) {a : Server.Action} {res : Server.SendResult}
    {s : Server.State} (hw : ∀ p ∈ n.server.sending a, res.taken = 0 ∨ p.2.length ≤ res.taken)
    (hs : Server.Transition n.server a s) (i : ι) :
    s.send.Serves (address (u i)) (DataLog.record n.server a s g.data).popped
      (g.taken i ++ n.takes i a res) := by
  by_cases hd : n.delivered i a res = []
  · rw [State.takes, if_pos hd, List.append_nil]
    exact (h.rounds i).step hs
  · obtain ⟨rfl, c, r, toIP, toName, k, e, rest, d, hl, hbound, hpc, hmatch, _, _, htakes⟩ :=
      delivery h.inTurn hw hd
    obtain ⟨hc, haddr⟩ := h.established i c hl
    have hk := h.inTurn.tracked.key_of_fd hbound hc rfl
    have hround := h.rounds i
    rw [← haddr, hk, hpc] at hround
    rw [← haddr, hk, htakes, send_write hpc hmatch hs]
    exact hround.write

lemma Inv.arrived_server (h : Inv u n g) {a : Server.Action} {s : Server.State}
    (hs : Server.Transition n.server a s) :
    Valued s (DataLog.record n.server a s g.data).pushed
      ((g.arrived ++ n.arrivals g a).map fun a => .data a.2) := by
  have hold := h.arrived.grow hs.objects_grow
  by_cases ha : a = .epoll .pushMsg
  · subst ha
    cases hs with
    | epoll hs =>
    cases hs with
    | @pushMsg c r m hpc =>
      obtain ⟨hm, _⟩ := h.inTurn.ordered.pending c r m hpc
      have hbusy := h.busy (by rw [hpc]; exact List.cons_ne_nil _ _)
      obtain ⟨i, hi⟩ := Option.ne_none_iff_exists'.mp hbusy
      rw [Server.record_push hpc hm]
      cases m with
      | data d =>
        have hnew := hold.append (r := r) hm
        simpa [State.arrivals, hpc, hi, Server.State.isData, hm] using hnew
      | dull | quit | reg | deReg =>
        simpa [State.arrivals, hpc, hi, Server.State.isData, hm] using hold
  · have hnone : n.arrivals g a = [] := by
      unfold State.arrivals
      split
      · exact absurd rfl ha
      · rfl
    have hpush : (DataLog.record n.server a s g.data).pushed = g.data.pushed := by
      unfold DataLog.record
      split
      · exact absurd rfl ha
      · rfl
      · rfl
    rw [hnone, List.append_nil, hpush]
    exact hold

lemma Inv.server (h : Inv u n g) {a : Server.Action} {res : Server.SendResult} {s : Server.State}
    (ha : internal a = true) (hb : Server.GivesBackLast n.server a)
    (hw : ∀ p ∈ n.server.sending a, res.taken = 0 ∨ p.2.length ≤ res.taken)
    (hs : Server.Transition n.server a s) {n' : State ι κ} (hn : n' = { n with
      server := s
      toClient := fun i => n.toClient i ++ n.delivered i a res }) :
    Inv u n' (Log.record n (.server a res) n' g) := by
  subst hn
  refine ⟨h.inTurn.step hb hs, h.sessions, ?_, h.apart, fun i => (h.uplinks i).server ha hs, ?_,
    h.arrived_server hs, h.rounds_server hw hs,
    fun i => (h.downlinks i).server h.inTurn hw hs rfl, h.receivers⟩
  · rw [connections_internal ha hs]
    exact h.established
  · intro hbusy
    rcases messages_step ha hs with ⟨_, _, _, _, _, hnone⟩ | ⟨_, hsame⟩
    · exact absurd hnone hbusy
    · exact h.busy (hsame ▸ hbusy)

structure Outer (s t : Server.State) (a : Server.Action) : Prop where
  step : Server.Transition s a t
  gives : Server.GivesBackLast s a
  record : ∀ g, DataLog.record s a t g = g
  objects : t.objects = s.objects
  send : t.send = s.send

lemma outer {s t : Server.State} {a : Server.EpollAction}
    (ha : internal (.epoll a) = false) (hs : Server.Transition s (.epoll a) t) :
    Outer s t (.epoll a) := by
  cases hs with
  | epoll hs =>
    refine ⟨.epoll hs, trivial, fun g => ?_, ?_, ?_⟩
    · cases a with
      | accept | read | eof => rfl
      | addClient | findFd | wouldBlock | removeClient | acquireEntity | deSerialize | pushMsg =>
        cases ha
    · cases hs <;> first | rfl | cases ha
    · cases hs <;> rfl

lemma Inv.inTurn_outer (h : Inv u n g) {s : Server.State} {a : Server.Action}
    (hs : Outer n.server s a) : InTurn s g.data := by
  have hserved := h.inTurn.step hs.gives hs.step
  rwa [hs.record] at hserved

lemma Inv.setLink (h : Inv u n g) {s : Server.State} {a : Server.Action} {l : Link}
    (hs : Outer n.server s a) (hl : (n.clients i).link ≠ .absent) (hl' : l ≠ .absent)
    (hm : messages s.epoll = messages n.server.epoll)
    (hothers : ∀ j c, j ≠ i → (n.clients j).link = .established c → c ∈ s.connections ∧
      l ≠ .established c)
    (hself : ∀ c, l = .established c → c ∈ s.connections ∧ c.clientIPPort = address (u i)) :
    Inv u { n.setLink i l with server := s } g := by
  refine ⟨h.inTurn_outer hs, fun j => ?_, fun j c hj => ?_, fun j k c hj hk => ?_,
    fun j => (h.uplinks j).setLink hl hl' hm, fun hbusy => h.busy (hm ▸ hbusy), ?_, fun j => ?_,
    fun j => ?_, fun j => ?_⟩
  · by_cases hj : j = i
    · subst hj
      simpa [State.setLink] using (h.sessions j).setLink hl hl'
    · simpa [State.setLink, hj] using h.sessions j
  · change ((n.setLink i l).clients j).link = _ at hj
    rw [setLink_link] at hj
    split_ifs at hj with hji
    · exact hji ▸ hself c hj
    · exact ⟨(hothers j c hji hj).1, (h.established j c hj).2⟩
  · change ((n.setLink i l).clients j).link = _ at hj
    change ((n.setLink i l).clients k).link = _ at hk
    rw [setLink_link] at hj hk
    split_ifs at hj hk with hji hki hki
    · exact hji.trans hki.symm
    · exact absurd hj (hothers k c hki hk).2
    · exact absurd hk (hothers j c hji hj).2
    · exact h.apart j k c hj hk
  · exact h.arrived.grow (by rw [hs.objects])
  · change s.send.Serves _ _ _
    rw [hs.send]
    exact h.rounds j
  · exact (h.downlinks j).congr (by rw [hs.objects]) (setLink_receiver n i j l) rfl rfl
  · change ∃ _, RecvThread.HeldBy ((n.setLink i l).clients j).receiver _
    rw [setLink_receiver]
    exact h.receivers j

lemma Inv.accept (h : Inv u n g) {c : Server.Connection} {b : Server.RecvBuffer} {s : Server.State}
    (hl : (n.clients i).link = .requested)
    (hc : c.clientIPPort = address (n.clients i).sender.toSessionState)
    (hs : Server.Transition n.server (.epoll (.accept c b)) s) :
    Inv u { n.setLink i (if c ∈ s.connections then .established c else .closed) with server := s }
      g := by
  have hout := outer rfl hs
  rw [(h.sessions i).address_eq] at hc
  have hfresh : c ∉ n.server.connections := by
    intro hmem
    cases hs with
    | epoll hs =>
      cases hs with
      | refuse _ hf | accept _ hf => exact (hf c hmem).1 rfl
  have hconn : ∀ d ∈ n.server.connections, d ∈ s.connections := by
    intro d hd
    cases hs with
    | epoll hs =>
      cases hs with
      | refuse => exact hd
      | accept => exact List.mem_cons_of_mem _ hd
  have hmsg : messages s.epoll = messages n.server.epoll := by
    cases hs with
    | epoll hs =>
      cases hs with
      | refuse => rfl
      | accept hpc => rw [hpc]; rfl
  refine h.setLink hout (by simp [hl]) (by split_ifs <;> simp) hmsg ?_ ?_
  · intro j d _ hd
    have hold := (h.established j d hd).1
    refine ⟨hconn d hold, fun he => ?_⟩
    split_ifs at he
    exact hfresh (Link.established.inj he ▸ hold)
  · intro d hd
    split_ifs at hd with hmem
    obtain rfl := Link.established.inj hd
    exact ⟨hmem, hc⟩

lemma Inv.eof (h : Inv u n g) {c : Server.Connection} {s : Server.State}
    (hl : (n.clients i).link = .established c)
    (hs : Server.Transition n.server (.epoll (.eof c)) s) :
    Inv u { n.setLink i .closed with server := s } g := by
  have hout := outer rfl hs
  have hmsg : messages s.epoll = messages n.server.epoll := by
    cases hs with
    | epoll hs =>
      cases hs with
      | eof hpc => rw [hpc]; rfl
  refine h.setLink hout (by simp [hl]) (by simp) hmsg ?_ nofun
  intro j d hj hd
  refine ⟨?_, by simp⟩
  have hne : d ≠ c := by
    rintro rfl
    exact hj (h.apart j i d hd hl)
  cases hs with
  | epoll hs =>
    cases hs with
    | eof => exact (List.mem_erase_of_ne hne).mpr (h.established j d hd).1

lemma Inv.read (h : Inv u n g) {c : Server.Connection} {r : Server.ReadBytes} {s : Server.State}
    (hm : ∃ m, Server.Encodable m ∧ r.bytes = m.encoding) (hr : r.bytes <+: n.toServer i)
    (hs : Server.Transition n.server (.epoll (.read c r)) s) :
    Inv u { n with
      server := s
      toServer := Function.update n.toServer i ((n.toServer i).drop r.bytes.length) }
      { g with reader := some i } := by
  have hout := outer rfl hs
  refine ⟨h.inTurn_outer hout, h.sessions, ?_, h.apart, fun j => ?_, nofun, ?_, fun j => ?_,
    fun j => ?_, h.receivers⟩
  · intro j d hd
    cases hs with
    | epoll hs =>
      cases hs with
      | read => exact h.established j d hd
  · by_cases hij : i = j
    · subst hij
      exact (h.uplinks i).read hm hr hs
    · exact (h.uplinks j).read_other hij hs
  · exact h.arrived.grow (by rw [hout.objects])
  · change s.send.Serves _ _ _
    rw [hout.send]
    exact h.rounds j
  · exact (h.downlinks j).congr (by rw [hout.objects]) rfl rfl rfl

lemma Inv.update (h : Inv u n g) {c : Client κ} {f f' : ι → Bytes}
    (hc : Session (u i) c) (hl : c.link = (n.clients i).link ∨ c.link = .requested)
    (hf : ∀ j, j ≠ i → f j = n.toServer j) (hf' : ∀ j, j ≠ i → f' j = n.toClient j)
    (hu : Uplink (u i) ⟨n.server, Function.update n.clients i c, f, f'⟩ g i)
    (hd : Downlink ⟨n.server, Function.update n.clients i c, f, f'⟩ g i)
    (hr : ∃ h, RecvThread.HeldBy c.receiver h) :
    Inv u ⟨n.server, Function.update n.clients i c, f, f'⟩ g := by
  have hlink : ∀ j d, (Function.update n.clients i c j).link = .established d →
      (n.clients j).link = .established d := by
    intro j d hj
    by_cases hji : j = i
    · subst hji
      rw [Function.update_self] at hj
      rcases hl with hl | hl
      · exact hl ▸ hj
      · rw [hl] at hj
        cases hj
    · rwa [Function.update_of_ne hji] at hj
  have heach : ∀ j, j ≠ i → Function.update n.clients i c j = n.clients j := fun j hj =>
    Function.update_of_ne hj _ _
  refine ⟨h.inTurn, fun j => ?_, fun j d hj => h.established j d (hlink j d hj),
    fun j k d hj hk => h.apart j k d (hlink j d hj) (hlink k d hk), fun j => ?_, h.busy, h.arrived,
    h.rounds, fun j => ?_, fun j => ?_⟩
  · by_cases hj : j = i
    · subst hj
      simpa using hc
    · simpa [heach j hj] using h.sessions j
  · by_cases hj : j = i
    · exact hj ▸ hu
    · exact (h.uplinks j).congr (by simp only [heach j hj]) (hf j hj) rfl rfl
  · by_cases hj : j = i
    · exact hj ▸ hd
    · exact (h.downlinks j).congr List.prefix_rfl (by simp only [heach j hj]) (hf' j hj) rfl
  · by_cases hj : j = i
    · subst hj
      simpa using hr
    · simpa [heach j hj] using h.receivers j

lemma Inv.step [DecidableEq κ] (h : Inv u n g) {a : Action ι κ} (hc : Orderly n a)
    (hs : Transition n a n') : Inv u n' (Log.record n a n' g) := by
  cases hs with
  | @start i r v hl hr =>
    refine h.update ((h.sessions i).start hl hr) (.inr rfl)
      (fun j hj => Function.update_of_ne hj _ _) (fun _ _ => rfl)
      ((h.uplinks i).start (h.sessions i) hl hr) ?_ (h.receivers i)
    exact (h.downlinks i).congr List.prefix_rfl (by simp) rfl rfl
  | accept hl haddr hs => exact h.accept hl haddr hs
  | read hl hr hs => exact h.read hc hr hs
  | eof hl hs => exact h.eof hl hs
  | server ha hs => exact h.server ha hc.1 hc.2 hs rfl
  | @send i a t hl hs =>
    have htag : ∀ m, a = .sendMsg m → (MsgObject.data m).Tagged := by
      rintro m rfl
      exact hc
    refine h.update ((h.sessions i).send hl htag hs) (.inl rfl)
      (fun j hj => Function.update_of_ne hj _ _) (fun _ _ => rfl)
      ((h.uplinks i).send (h.sessions i) hl hs) ?_ (h.receivers i)
    exact (h.downlinks i).congr List.prefix_rfl (by simp) rfl rfl
  | @recv i a t hr hs =>
    have hframe : ∀ b d, a = .recv b d → ∃ m, Server.Encodable m ∧ d.bytes = m.encoding := by
      rintro b d rfl
      exact hc
    have hdata : RecvThread.DecodesToData (n.clients i).receiver a := by
      cases a with
      | recv b d =>
        obtain ⟨x, _, hrun, _⟩ := (h.downlinks i).frame (hframe b d rfl) hr
        exact ⟨x, hrun⟩
      | acquire | prepare | decode | enQueue | produce | signal | consume | wake | deQueue | copy
      | release => trivial
    obtain ⟨_, hheld⟩ := h.receivers i
    have hsession : Session (u i) { n.clients i with receiver := t } :=
      ⟨(h.sessions i).inv, (h.sessions i).tagged, (h.sessions i).absent, (h.sessions i).fits⟩
    refine h.update hsession (.inl rfl) (fun _ _ => rfl)
      (fun j hj => Function.update_of_ne hj _ _) ?_ ((h.downlinks i).recv hframe hr hs)
      (hheld.step hdata hs)
    exact (h.uplinks i).congr (by simp [Client.written]) rfl rfl rfl

variable [DecidableEq κ]

lemma observed_of_reaches {E : SerializeEntity}
    (h : Reaches step Orderly (State.init E u : State ι κ) n) :
    ∃ g, Observed step Log.record Orderly (State.init E u, Log.empty) (n, g) :=
  h.observed _

lemma inv_of_observed {E : SerializeEntity}
    (h : Observed step Log.record Orderly (State.init E u, Log.empty) (n, g)) : Inv u n g :=
  h.invariant (I := fun x => Inv u x.1 x.2) (inv_init E)
    fun _ _ _ _ hi hc ha => hi.step hc (transition_of_step ha)

end Invariant

section Order

variable {u : ι → SessionState} {n : State ι κ} {g : Log ι} {i : ι}

def Log.arrivedFrom (g : Log ι) (i : ι) : List DataMsg :=
  (g.arrived.filter (·.1 = i)).map Prod.snd

lemma regMsg_tagged (u : SessionState) : (regMsg u).Tagged := rfl

lemma deRegMsg_tagged (u : SessionState) : u.deRegMsg.Tagged := rfl

/-- All that the client writes is its Reg message and what the send thread and `Exit` write. -/
lemma Session.stream {u : SessionState} {c : Client κ} (h : Session u c) : ∃ ms,
    (∀ m ∈ ms, Server.Encodable m ∧ (m = regMsg u ∨ m = u.deRegMsg ∨ ∃ x, m = .data x)) ∧
    c.written u <+: Server.stream ms ∧ dataMsgs ms <+: c.sender.submitted ∧
    (c.sender.sender ≠ .quit → c.written u = Server.stream ms ∧
      c.sender.submitted = dataMsgs ms ++ c.sender.unsent) := by
  by_cases hl : c.link = .absent
  · have hnone := written_absent (u := u) hl
    refine ⟨[], nofun, hnone ▸ List.nil_prefix, List.nil_prefix, fun _ => ⟨hnone, ?_⟩⟩
    rw [h.absent hl]
    rfl
  · obtain ⟨ms, hms⟩ := h.inv.outgoing (deRegMsg_tagged u) h.tagged
    have hwritten := written_present (u := u) hl
    refine ⟨regMsg u :: ms, ?_, ?_, hms.submitted, fun hq => ⟨?_, (hms.whole hq).2⟩⟩
    · intro m hm
      rcases List.mem_cons.mp hm with rfl | hm
      · exact ⟨⟨regMsg_tagged u, h.fits hl⟩, .inl rfl⟩
      · exact ⟨hms.encodable m hm, .inr (hms.own m hm)⟩
    · rw [hwritten, stream_cons]
      exact (List.prefix_append_right_inj _).mpr hms.output
    · rw [hwritten, stream_cons, (hms.whole hq).1]

lemma Uplink.arrived_of_submitted {u : SessionState} (h : Uplink u n g i)
    (hs : Session u (n.clients i)) : g.arrivedFrom i <+:
      (n.clients i).sender.submitted.map DataMsg.calculateSerializedMsgLen := by
  obtain ⟨ns, hns, hout, hdata⟩ := h
  obtain ⟨ms, hms, hwritten, hsub, _⟩ := hs.stream
  have hstream : Server.stream ns <+: Server.stream ms := by
    refine List.IsPrefix.trans ?_ hwritten
    rw [hout]
    exact List.prefix_append _ _
  obtain ⟨ks, rest, rfl, hmeas, _⟩ :=
    split_of_prefix hns (fun m hm => (hms m hm).1) hstream
  rw [← hmeas, dataMsgs_measured] at hdata
  have hks : dataMsgs ks <+: (n.clients i).sender.submitted := by
    rw [SendThread.dataMsgs_append] at hsub
    exact (List.prefix_append _ _).trans hsub
  refine List.IsPrefix.trans ?_ (hks.map _)
  rw [hdata]
  exact List.prefix_append _ _

variable [Fintype κ]

lemma Inv.arrived_measured (h : Inv u n g) {a : ι × DataMsg} (ha : a ∈ g.arrived) :
    a.2.calculateSerializedMsgLen = a.2 := by
  have hmem : a.2 ∈ g.arrivedFrom a.1 :=
    List.mem_map_of_mem (List.mem_filter.mpr ⟨ha, by simp⟩)
  have hsub := ((h.uplinks a.1).arrived_of_submitted (h.sessions a.1)).subset hmem
  obtain ⟨x, _, hx⟩ := List.mem_map.mp hsub
  rw [← hx]
  rfl

/-- What a client has received is what the server has sent it, and this comes from the arrivals in
their order. -/
lemma Inv.copies_sublist (h : Inv u n g) (i : ι) :
    ((n.clients i).receiver.copies.map Prod.snd).Sublist (g.arrived.map Prod.snd) := by
  obtain ⟨_, hheld⟩ := h.receivers i
  obtain ⟨ks, _, _, xs, hxs, hmeas⟩ := h.downlinks i
  have hpopped : (g.taken i).Sublist g.data.pushed := by
    rw [h.inTurn.ordered.order]
    exact (h.rounds i).sublist.trans (List.sublist_append_left _ _)
  have hvalues : xs.Sublist (g.arrived.map fun a => .data a.2) := by
    have hmap := hpopped.map n.server.value
    rw [h.arrived, hxs] at hmap
    simpa using hmap.filterMap id
  have hcopies : ((n.clients i).receiver.copies.map fun c => MsgObject.data c.2).Sublist
      (xs.map MsgObject.measured) := by
    rw [hmeas]
    refine hheld.handedOver.faithful.sublist.trans ?_
    rw [received, List.append_assoc]
    exact List.sublist_append_left _ _
  have hall := (hcopies.trans (hvalues.map _)).filterMap asDataMsg
  have hfixed : ((g.arrived.map fun a => MsgObject.data a.2).map MsgObject.measured).filterMap
      asDataMsg = g.arrived.map Prod.snd := by
    rw [List.map_map, List.filterMap_map, ← List.filterMap_eq_map]
    refine List.filterMap_congr fun a ha => ?_
    exact congrArg some (h.arrived_measured ha)
  rw [hfixed, List.filterMap_map] at hall
  simpa [Function.comp_def, asDataMsg] using hall

variable [DecidableEq κ]

/-- There is one order in which the messages arrive at the server. Of each client, the first of the
messages that it has submitted have arrived, in its own order, and each client gets some of the
messages that have arrived, none of them twice and none before an earlier one. -/
theorem messages_in_order {E : SerializeEntity} (h : Reaches step Orderly (State.init E u) n) :
    ∃ arrivals : List (ι × DataMsg),
      (∀ i, (arrivals.filter (·.1 = i)).map Prod.snd <+:
        (n.clients i).sender.submitted.map DataMsg.calculateSerializedMsgLen) ∧
      ∀ i, ((n.clients i).receiver.copies.map Prod.snd).Sublist (arrivals.map Prod.snd) := by
  obtain ⟨g, hg⟩ := observed_of_reaches h
  have hi := inv_of_observed hg
  exact ⟨g.arrived, fun i => (hi.uplinks i).arrived_of_submitted (hi.sessions i),
    hi.copies_sublist⟩

def OrderlyOf (ms : List MsgObject) (n : State ι κ) : Action ι κ → Prop
  | .read _ r => ∃ m ∈ ms, r.bytes = m.encoding
  | .server a res => Server.GivesBackLast n.server a ∧
    ∀ p ∈ n.server.sending a, res.taken = 0 ∨ p.2.length ≤ res.taken
  | .send _ (.sendMsg m) => (MsgObject.data m).Tagged
  | .recv _ (.recv _ d) => ∃ m ∈ ms, d.bytes = m.encoding
  | _ => True

instance (ms : List MsgObject) (n : State ι κ) : (a : Action ι κ) → Decidable (OrderlyOf ms n a)
  | .read _ _ => inferInstanceAs (Decidable (∃ m ∈ ms, _))
  | .server _ _ => inferInstanceAs (Decidable (_ ∧ ∀ p ∈ _, _))
  | .send _ (.sendMsg _) => inferInstanceAs (Decidable (MsgObject.Tagged _))
  | .send _ .pop | .send _ .advance | .send _ .exit | .send _ .deRegister | .send _ .kill
  | .send _ (.quit _) | .send _ .join | .start _ | .accept .. | .eof _ => isTrue trivial
  | .recv _ (.recv _ _) => inferInstanceAs (Decidable (∃ m ∈ ms, _))
  | .recv _ .acquire | .recv _ (.prepare _) | .recv _ .decode | .recv _ .enQueue
  | .recv _ .produce | .recv _ (.signal _) | .recv _ (.consume _) | .recv _ (.wake _)
  | .recv _ (.deQueue _) | .recv _ (.copy _) | .recv _ (.release _) => isTrue trivial

omit [DecidableEq ι] [Fintype κ] [DecidableEq κ] in
lemma orderly_of {ms : List MsgObject} (hms : ∀ m ∈ ms, Server.Encodable m) (a : Action ι κ)
    (h : OrderlyOf ms n a) : Orderly n a := by
  match a, h with
  | .read _ _, ⟨m, hm, hr⟩ | .recv _ (.recv _ _), ⟨m, hm, hr⟩ => exact ⟨m, hms m hm, hr⟩
  | .server _ _, h | .send _ (.sendMsg _), h => exact h
  | .send _ .pop, _ | .send _ .advance, _ | .send _ .exit, _ | .send _ .deRegister, _
  | .send _ .kill, _ | .send _ (.quit _), _ | .send _ .join, _ | .start _, _ | .accept .., _
  | .eof _, _ => trivial
  | .recv _ .acquire, _ | .recv _ (.prepare _), _ | .recv _ .decode, _ | .recv _ .enQueue, _
  | .recv _ .produce, _ | .recv _ (.signal _), _ | .recv _ (.consume _), _
  | .recv _ (.wake _), _ | .recv _ (.deQueue _), _ | .recv _ (.copy _), _
  | .recv _ (.release _), _ => trivial

end Order

section Example

def alpha : SessionState := ⟨[97], [49], [53, 48], ⟨4096, false, by decide⟩, [], []⟩

def beta : SessionState := ⟨[98], [49], [53, 49], ⟨4096, false, by decide⟩, [], []⟩

def toBeta (x : UInt8) : DataMsg := ⟨⟨4, 0⟩, [49], [98], [x]⟩

def serverReads (i : Fin 2) (p : ℕ) (m : MsgObject) (hm : m.encodedSize ≤ serializeBufLen) :
    List (Action (Fin 2) (Fin 1)) :=
  let quiet := fun a => Action.server a .wouldBlock
  [quiet (.epoll (.findFd (5 + i))), .read i (.frame m hm), quiet (.epoll .acquireEntity),
    quiet (.epoll (.deSerialize p)), quiet (.epoll .pushMsg), quiet (.loop .getMsg),
    quiet (.loop .callBack)]

def connectAlphaBeta : List (Action (Fin 2) (Fin 1)) :=
  let quiet := fun a => Action.server a .wouldBlock
  [.start 0, .start 1, .accept 0 Server.client₀ Server.buffer₀, quiet (.epoll .addClient),
    .accept 1 Server.client₁ Server.buffer₀, quiet (.epoll .addClient)] ++
    serverReads 0 0 (regMsg alpha) (by decide) ++ [quiet (.loop .releaseEntity)] ++
    serverReads 1 0 (regMsg beta) (by decide) ++ [quiet (.loop .releaseEntity)]

def alphaToBeta (x : UInt8) (hx : (MsgObject.data (toBeta x)).encodedSize ≤ serializeBufLen) :
    List (Action (Fin 2) (Fin 1)) :=
  let quiet := fun a => Action.server a .wouldBlock
  [.send 0 (.sendMsg (toBeta x)), .send 0 .pop, .send 0 .advance, .send 0 .advance,
    .send 0 .advance, .send 0 .advance] ++ serverReads 0 1 (.data (toBeta x)) hx ++
    [quiet (.send .popMsg), quiet (.send .copyStrings), quiet (.send .lockTable),
      quiet (.send .next), .server (.send .next) (.accepted 4096), quiet (.send .releaseEntity),
      quiet (.send .next)]

def betaReceives (m : MsgObject) (hm : m.encodedSize ≤ serializeBufLen) :
    List (Action (Fin 2) (Fin 1)) :=
  let b : RecvBuf := ⟨8192, [], by decide⟩
  let d : RecvData := ⟨m.encoding, m.encoding_pos, m.encoding_length.trans_le hm⟩
  [.recv 1 (.recv b d), .recv 1 .acquire, .recv 1 (.prepare 64), .recv 1 .decode, .recv 1 .enQueue,
    .recv 1 .produce, .recv 1 (.signal none), .recv 1 (.consume 0), .recv 1 (.deQueue 0),
    .recv 1 (.copy 0), .recv 1 (.copy 0), .recv 1 (.copy 0), .recv 1 (.copy 0),
    .recv 1 (.release 0)]

def alphaBetaMsgs : List MsgObject :=
  [regMsg alpha, regMsg beta, .data (toBeta 7), .data (toBeta 8)]

lemma alphaBetaMsgs_encodable : ∀ m ∈ alphaBetaMsgs, Server.Encodable m := by
  simp only [alphaBetaMsgs, List.mem_cons, List.not_mem_nil, or_false, forall_eq_or_imp, forall_eq,
    Server.Encodable]
  decide

theorem messages_in_order_two : ∃ n : State (Fin 2) (Fin 1),
    Reaches step Orderly (State.init Server.serializer₀ ![alpha, beta]) n ∧
      (n.clients 1).receiver.copies =
        [(0, ⟨⟨4, 39⟩, [49], [98], [7]⟩), (0, ⟨⟨4, 39⟩, [49], [98], [8]⟩)] ∧
      ∃ arrivals : List (Fin 2 × DataMsg),
        (arrivals.filter (·.1 = 0)).map Prod.snd <+:
          [⟨⟨4, 39⟩, [49], [98], [7]⟩, ⟨⟨4, 39⟩, [49], [98], [8]⟩] ∧
        ((n.clients 1).receiver.copies.map Prod.snd).Sublist (arrivals.map Prod.snd) := by
  have h : (execute step (OrderlyOf alphaBetaMsgs)
      (State.init Server.serializer₀ ![alpha, beta] : State (Fin 2) (Fin 1))
      (connectAlphaBeta ++ alphaToBeta 7 (by decide) ++ alphaToBeta 8 (by decide) ++
        betaReceives (.data (toBeta 7)) (by decide) ++
        betaReceives (.data (toBeta 8)) (by decide))).map
          (fun n => ((n.clients 1).receiver.copies, (n.clients 0).sender.submitted))
      = some ([(0, ⟨⟨4, 39⟩, [49], [98], [7]⟩), (0, ⟨⟨4, 39⟩, [49], [98], [8]⟩)],
        [toBeta 7, toBeta 8]) := by
    decide +kernel
  obtain ⟨n, hn, hw⟩ := reaches_of_execute_map h
  obtain ⟨hcopies, hsub⟩ := Prod.mk.inj hw
  have hreach := hn.mono fun _ => orderly_of alphaBetaMsgs_encodable
  obtain ⟨arrivals, hfrom, hto⟩ := messages_in_order hreach
  have halpha := hfrom 0
  rw [hsub] at halpha
  exact ⟨n, hreach, hcopies, arrivals, halpha, hto 1⟩

end Example

end Xty.Network
