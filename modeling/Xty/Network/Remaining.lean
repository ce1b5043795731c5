import Xty.Network.Live
import Xty.Session.SendRest

/-! What the threads of the network have still to do, when the programs call nothing more. -/

namespace Xty.Network

open Xty.General.Runs Xty.General.Counting Xty.General.LittleEndian
open Xty.Message Xty.Session

variable {ι κ : Type}

/-- The socket has a whole frame for the server, or the end of the stream. -/
def Readable (n : State ι κ) (fd : ℕ) : Prop :=
  ∃ i c, (n.clients i).link = .established c ∧ c.fd = fd ∧
    ((∃ m, Server.Encodable m ∧ m.encoding <+: n.toServer i) ∨
      ended (n.clients i).sender = true ∧ n.toServer i = [])

/-- No session is started, `SendMsg` and `Exit` are not called, no wait ends without a signal, and
`epoll_wait`, which is level-triggered, reports the sockets that are readable. -/
def Quiet (n : State ι κ) : Action ι κ → Prop
  | .start _ => False
  | .send _ a => SendThread.Finishes a
  | .recv _ a => ∀ k, a ≠ .wake k
  | .server (.epoll (.findFd fd)) _ => Readable n fd
  | .server (.epoll .wouldBlock) _ => ∀ k fd b, n.server.epoll = .found k fd b → ¬ Readable n fd
  | .accept .. | .read .. | .eof _ | .server .. => True

def Going (n : State ι κ) (a : Action ι κ) : Prop := Orderly n a ∧ Quiet n a

def Link.remaining : Link → ℕ
  | .requested => 5
  | .established _ => 3
  | .absent | .closed => 0

open Classical in
noncomputable def State.polling (n : State ι κ) : ℕ :=
  match n.server.epoll with
  | .polling => 1
  | .found _ fd _ => if Readable n fd then 0 else 2
  | .accepted .. | .closed .. | .deSerialized .. => 2
  | .acquired .. => 3
  | .received .. => 4

section Sums

variable [Fintype ι] [Fintype κ]

def State.sending (n : State ι κ) : ℕ := ∑ i, (n.clients i).sender.remaining

noncomputable def State.arriving (n : State ι κ) : ℕ :=
  n.polling + ∑ i, (n.clients i).link.remaining + 5 * ∑ i, (n.toServer i).length

def State.receiving (n : State ι κ) : ℕ :=
  ∑ i, (n.clients i).receiver.work + 15 * ∑ i, (n.toClient i).length

/-- What is sent may become several messages to receive, and what is submitted is first to be sent:
each part counts less than the parts before it. -/
noncomputable def State.remaining (n : State ι κ) : ℕ ×ₗ ℕ ×ₗ ℕ ×ₗ ℕ :=
  toLex (n.sending, toLex (n.arriving, toLex (n.server.work, n.receiving)))

variable {n n' : State ι κ}

lemma remaining_sending (h : n'.sending < n.sending) : n'.remaining < n.remaining :=
  Prod.Lex.toLex_lt_toLex.mpr (.inl h)

lemma remaining_arriving (hs : n'.sending = n.sending) (h : n'.arriving < n.arriving) :
    n'.remaining < n.remaining :=
  Prod.Lex.toLex_lt_toLex.mpr (.inr ⟨hs, Prod.Lex.toLex_lt_toLex.mpr (.inl h)⟩)

lemma remaining_work (hs : n'.sending = n.sending) (ha : n'.arriving = n.arriving)
    (h : n'.server.work < n.server.work) : n'.remaining < n.remaining := by
  refine Prod.Lex.toLex_lt_toLex.mpr (.inr ⟨hs, Prod.Lex.toLex_lt_toLex.mpr (.inr ⟨ha, ?_⟩)⟩)
  exact Prod.Lex.toLex_lt_toLex.mpr (.inl h)

lemma remaining_receiving (hs : n'.sending = n.sending) (ha : n'.arriving = n.arriving)
    (hw : n'.server.work = n.server.work) (h : n'.receiving < n.receiving) :
    n'.remaining < n.remaining := by
  refine Prod.Lex.toLex_lt_toLex.mpr (.inr ⟨hs, Prod.Lex.toLex_lt_toLex.mpr (.inr ⟨ha, ?_⟩)⟩)
  exact Prod.Lex.toLex_lt_toLex.mpr (.inr ⟨hw, h⟩)

end Sums

section Polling

variable {n n' : State ι κ} {s : Server.State} {f : ι → Bytes} {fd : ℕ} {i : ι}

lemma readable_congr (hl : ∀ i, (n'.clients i).link = (n.clients i).link)
    (hs : ∀ i, (n'.clients i).sender = (n.clients i).sender) (ht : n'.toServer = n.toServer)
    (fd : ℕ) : Readable n' fd ↔ Readable n fd := by
  simp only [Readable, hl, hs, ht]

lemma polling_congr (he : n'.server.epoll = n.server.epoll)
    (hr : ∀ fd, Readable n' fd ↔ Readable n fd) : n'.polling = n.polling := by
  rw [State.polling, State.polling, he]
  cases n.server.epoll with
  | found k fd b =>
    classical
    exact if_congr (hr fd) rfl rfl
  | polling | accepted | closed | deSerialized | acquired | received => rfl

lemma polling_found {k : Bytes} {b : Server.RecvBuffer}
    (hpc : n.server.epoll = .found k fd b) (hr : Readable n fd) : n.polling = 0 := by
  rw [State.polling, hpc]
  exact if_pos hr

lemma polling_epoll {a : Server.EpollAction} {res : Server.SendResult}
    (ha : internal (.epoll a) = true) (hq : Quiet n (.server (.epoll a) res))
    (hfind : ∀ fd, a ≠ .findFd fd) (hs : Server.EpollTransition n.server a s) :
    State.polling { n with server := s, toClient := f } < n.polling := by
  cases hs with
  | refuse | accept | eof | read => cases ha
  | find | findNone => exact absurd rfl (hfind _)
  | wouldBlock hpc =>
    have hr := hq _ _ _ hpc
    simp [State.polling, hpc, hr]
  | addClient hpc | removeClient hpc | acquireEntity hpc | deSerialize hpc | raise hpc
  | pushMsg hpc => simp [State.polling, hpc]

variable [DecidableEq ι]

lemma update_receiver (t : RecvThread.State κ) (j : ι) :
    (Function.update n.clients i { n.clients i with receiver := t } j).link
        = (n.clients j).link ∧
      (Function.update n.clients i { n.clients i with receiver := t } j).sender
        = (n.clients j).sender := by
  by_cases hj : j = i
  · subst hj
    simp
  · simp [hj]

variable [Fintype κ] {u : ι → SessionState} {g : Log ι}

lemma Inv.findsFd (h : Inv u n g) (hpc : n.server.epoll = .polling) (hr : Readable n fd) :
    ∃ ke, Server.ClientTable.findFd n.server.table fd = some ke := by
  obtain ⟨i, c, hl, rfl, _⟩ := hr
  have hknown : n.server.known = n.server.connections :=
    Server.State.known_settled (by rw [hpc]; trivial)
  have hc : c ∈ n.server.known := hknown ▸ (h.established i c hl).1
  obtain ⟨e, he, hfd⟩ := (h.inTurn.tracked.bound _ _).mpr ⟨c, hc, rfl, rfl⟩
  rw [← hfd]
  exact Option.ne_none_iff_exists'.mp (Server.ClientTable.findFd_ne_none he)

lemma Inv.polling_findFd (h : Inv u n g) (hr : Readable n fd)
    (hs : Server.step n.server (.epoll (.findFd fd)) = some s) :
    State.polling { n with server := s, toClient := f } < n.polling := by
  rw [Server.step, Server.epollStep] at hs
  split at hs
  · next hpc =>
    obtain ⟨⟨k, e⟩, hfind⟩ := h.findsFd hpc hr
    split_ifs at hs
    rw [hfind] at hs
    obtain rfl := Option.some.inj hs
    refine lt_of_eq_of_lt (polling_found (b := e.recvBuffer) rfl hr) ?_
    rw [State.polling, hpc]
    exact Nat.one_pos
  · cases hs

variable [DecidableEq κ]

lemma server_of_step {a : Server.Action} {res : Server.SendResult}
    (hs : Network.step n (.server a res) = some n') : Server.step n.server a = some n'.server := by
  rw [step] at hs
  split_ifs at hs
  obtain ⟨s, hserver, rfl⟩ := Option.map_eq_some_iff.mp hs
  exact hserver

lemma Quiet.submitted {a : Action ι κ} (hq : Quiet n a) (ht : Transition n a n') (i : ι) :
    (n'.clients i).sender.submitted = (n.clients i).sender.submitted := by
  cases ht with
  | start => exact hq.elim
  | accept | eof => exact congrArg SendThread.State.submitted (setLink_sender n _ i _)
  | read | server => rfl
  | @send j a t _ hs =>
    by_cases hij : i = j
    · subst hij
      simpa using SendThread.submitted_finishes hq hs
    · simp [hij]
  | recv => exact congrArg SendThread.State.submitted (update_receiver _ i).2

end Polling

section Arriving

variable [Fintype ι] {n : State ι κ} {i : ι} {s : Server.State} {f : ι → Bytes}

lemma arriving_server (h : State.polling { n with server := s, toClient := f } < n.polling) :
    State.arriving { n with server := s, toClient := f } < n.arriving :=
  Nat.add_lt_add_right (Nat.add_lt_add_right h _) _

lemma arriving_scheduled (he : s.epoll = n.server.epoll) :
    State.arriving { n with server := s, toClient := f } = n.arriving := by
  have hpolling : State.polling { n with server := s, toClient := f } = n.polling :=
    polling_congr he fun _ => Iff.rfl
  rw [State.arriving, State.arriving, hpolling]

lemma length_drop_lt {α : Type} {bs cs : List α} (hpos : 0 < bs.length) (h : bs <+: cs) :
    (cs.drop bs.length).length + 1 ≤ cs.length := by
  have hle := h.length_le
  rw [List.length_drop]
  omega

variable [DecidableEq ι]

lemma sending_setLink (n : State ι κ) (i : ι) (l : Link) (s : Server.State) :
    State.sending { n.setLink i l with server := s } = n.sending :=
  Finset.sum_congr rfl fun j _ => congrArg SendThread.State.remaining (setLink_sender n i j l)

lemma arriving_setLink {l : Link}
    (h : State.polling { n.setLink i l with server := s } + l.remaining
      < n.polling + (n.clients i).link.remaining) :
    State.arriving { n.setLink i l with server := s } < n.arriving := by
  have hlinks : ∑ j, ((n.setLink i l).clients j).link.remaining + (n.clients i).link.remaining
      = ∑ j, (n.clients j).link.remaining + l.remaining :=
    sum_update (fun c => c.link.remaining) n.clients i { n.clients i with link := l }
  have hnew : State.arriving { n.setLink i l with server := s }
      = State.polling { n.setLink i l with server := s }
        + ∑ j, ((n.setLink i l).clients j).link.remaining + 5 * ∑ j, (n.toServer j).length := rfl
  rw [hnew, State.arriving]
  omega

lemma arriving_accept {c : Server.Connection} {b : Server.RecvBuffer}
    (hl : (n.clients i).link = .requested)
    (hs : Server.Transition n.server (.epoll (.accept c b)) s) : State.arriving
      { n.setLink i (if c ∈ s.connections then .established c else .closed) with server := s }
        < n.arriving := by
  apply arriving_setLink
  rw [hl]
  cases hs with
  | epoll hs =>
    cases hs with
    | refuse hpc hc =>
      have hclosed : c ∉ n.server.connections := fun hmem => (hc c hmem).1 rfl
      simp [State.polling, hpc, hclosed, Link.remaining]
    | accept hpc => simp [State.polling, hpc, Link.remaining]

lemma arriving_eof {c : Server.Connection} (hl : (n.clients i).link = .established c)
    (hs : Server.Transition n.server (.epoll (.eof c)) s) :
    State.arriving { n.setLink i .closed with server := s } < n.arriving := by
  apply arriving_setLink
  rw [hl]
  cases hs with
  | epoll hs =>
    cases hs with
    | eof => simp [State.polling, Link.remaining]

lemma arriving_read {c : Server.Connection} {r : Server.ReadBytes}
    (hl : (n.clients i).link = .established c)
    (hm : ∃ m, Server.Encodable m ∧ r.bytes = m.encoding) (hr : r.bytes <+: n.toServer i)
    (hs : Server.Transition n.server (.epoll (.read c r)) s) : State.arriving { n with
      server := s
      toServer := Function.update n.toServer i ((n.toServer i).drop r.bytes.length) }
        < n.arriving := by
  have hsum := sum_update List.length n.toServer i ((n.toServer i).drop r.bytes.length)
  have hlt := length_drop_lt r.nonempty hr
  obtain ⟨m, hm, hbytes⟩ := hm
  cases hs with
  | epoll hs =>
    cases hs with
    | read hpc _ hfd =>
      have hzero := polling_found hpc ⟨i, c, hl, hfd, .inl ⟨m, hm, hbytes ▸ hr⟩⟩
      simp only [State.arriving, hzero]
      simp only [State.polling]
      omega

lemma sending_send {t : SendThread.State} {f : ι → Bytes}
    (h : t.remaining < (n.clients i).sender.remaining) : State.sending { n with
      clients := Function.update n.clients i { n.clients i with sender := t }
      toServer := f } < n.sending := by
  have hsum : State.sending { n with
      clients := Function.update n.clients i { n.clients i with sender := t }
      toServer := f } + (n.clients i).sender.remaining = n.sending + t.remaining :=
    sum_update (fun c => c.sender.remaining) n.clients i { n.clients i with sender := t }
  omega

lemma sending_receiver (t : RecvThread.State κ) (f : ι → Bytes) : State.sending { n with
      clients := Function.update n.clients i { n.clients i with receiver := t }
      toClient := f } = n.sending :=
  Finset.sum_congr rfl fun j _ => congrArg SendThread.State.remaining (update_receiver t j).2

lemma arriving_receiver (t : RecvThread.State κ) (f : ι → Bytes) : State.arriving { n with
      clients := Function.update n.clients i { n.clients i with receiver := t }
      toClient := f } = n.arriving := by
  have hpolling : State.polling { n with
      clients := Function.update n.clients i { n.clients i with receiver := t }
      toClient := f } = n.polling :=
    polling_congr rfl (readable_congr (fun j => (update_receiver t j).1)
      (fun j => (update_receiver t j).2) rfl)
  rw [State.arriving, State.arriving, hpolling]
  simp only [(update_receiver t _).1]

end Arriving

section Descent

variable [Fintype ι] [DecidableEq ι] [Fintype κ] {u : ι → SessionState} {n n' : State ι κ}
  {g : Log ι} {i : ι}

lemma Inv.remaining_server (h : Inv u n g) {a : Server.Action} {res : Server.SendResult}
    {s : Server.State} {f : ι → Bytes} (ha : internal a = true) (hq : Quiet n (.server a res))
    (hs : Server.step n.server a = some s) :
    State.remaining { n with server := s, toClient := f } < n.remaining := by
  have htrans := Server.transition_of_step hs
  cases a with
  | epoll a =>
    refine remaining_arriving rfl (arriving_server ?_)
    by_cases hfind : ∃ fd, a = .findFd fd
    · obtain ⟨fd, rfl⟩ := hfind
      exact h.polling_findFd hq hs
    · cases htrans with
      | epoll hs => exact polling_epoll ha hq (not_exists.mp hfind) hs
  | loop | send =>
    refine remaining_work rfl (arriving_scheduled ?_) ?_
    · exact Server.scheduled_epoll (by trivial) htrans
    · exact Server.scheduled_work (by trivial) htrans

variable [DecidableEq κ]

lemma Inv.receiving_recv (h : Inv u n g) {a : RecvThread.Action κ} {t : RecvThread.State κ}
    (hq : ∀ k, a ≠ .wake k) (hr : consumed a <+: n.toClient i)
    (hs : RecvThread.step (n.clients i).receiver a = some t) : State.receiving { n with
      clients := Function.update n.clients i { n.clients i with receiver := t }
      toClient := Function.update n.toClient i ((n.toClient i).drop (consumed a).length) }
        < n.receiving := by
  have hwork : ∑ j, (Function.update n.clients i
        { n.clients i with receiver := t } j).receiver.work + (n.clients i).receiver.work
      = ∑ j, (n.clients j).receiver.work + t.work :=
    sum_update (fun c => c.receiver.work) n.clients i { n.clients i with receiver := t }
  have hbytes := sum_update List.length n.toClient i ((n.toClient i).drop (consumed a).length)
  have hless : t.work + 15 * ((n.toClient i).drop (consumed a).length).length
      < (n.clients i).receiver.work + 15 * (n.toClient i).length := by
    obtain ⟨_, hheld⟩ := h.receivers i
    have hrest : ((n.toClient i).drop (consumed a).length).length ≤ (n.toClient i).length :=
      (List.drop_sublist _ _).length_le
    cases a with
    | recv b d =>
      have hlt := length_drop_lt d.nonempty hr
      have hle := RecvThread.work_recv hs
      simp only [consumed] at hlt ⊢
      omega
    | wake k => exact absurd rfl (hq k)
    | acquire | prepare | decode | enQueue | produce | signal | consume | deQueue | copy
    | release =>
      have hlt := hheld.work_step (by trivial) hs
      omega
  change ∑ j, (Function.update n.clients i
      { n.clients i with receiver := t } j).receiver.work + 15 * ∑ j, (Function.update n.toClient i
        ((n.toClient i).drop (consumed a).length) j).length < _
  rw [State.receiving]
  omega

lemma Inv.remaining_step (h : Inv u n g) {a : Action ι κ} (hc : Orderly n a) (hq : Quiet n a)
    (hs : Network.step n a = some n') : n'.remaining < n.remaining := by
  cases transition_of_step hs with
  | start => exact hq.elim
  | accept hl _ ht =>
    exact remaining_arriving (sending_setLink n _ _ _) (arriving_accept hl ht)
  | read hl hr ht => exact remaining_arriving rfl (arriving_read hl hc hr ht)
  | eof hl ht => exact remaining_arriving (sending_setLink n _ _ _) (arriving_eof hl ht)
  | server ha => exact h.remaining_server ha hq (server_of_step hs)
  | send _ ht => exact remaining_sending (sending_send (SendThread.remaining_step hq ht))
  | recv hr ht =>
    exact remaining_receiving (sending_receiver _ _) (arriving_receiver _ _) rfl
      (h.receiving_recv hq hr ht)

def Kept (u : ι → SessionState) (n : State ι κ) : Prop := ∃ g, Inv u n g ∧ Live n

lemma going_descending : Descending step Going (Kept (κ := κ) u) (· < ·) State.remaining := by
  rintro n a n' ⟨g, hi, hl⟩ ⟨hc, hq⟩ hs
  have htrans := transition_of_step hs
  exact ⟨⟨_, hi.step hc htrans, hl.step hi hc htrans⟩, hi.remaining_step hc hq hs⟩

end Descent

end Xty.Network
