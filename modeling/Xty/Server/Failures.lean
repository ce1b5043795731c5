import Xty.Server.Process

/-! Calls that fail on one connection, and what they leave of the process and of the others. -/

namespace Xty.Server

open Xty.General.Runs Xty.General.LittleEndian Xty.General.SortedTable
open Xty.Message

def Permitted (_ : Process) : ProcessAction → Prop
  | .run _ | .sigPipe => True
  | .acceptFails errno => errno = eWouldBlock ∨ errno = eConnAborted
  | .readFails errno => errno = eWouldBlock ∨ errno = eConnReset

def EpollPc.client : EpollPc → Option Bytes
  | .accepted c _ | .received c _ _ | .acquired c _ _ _ | .deSerialized c _ _ =>
    some c.clientIPPort
  | .found k _ _ | .closed _ k => some k
  | .polling => none

/-- How many steps the epoll thread makes before it asks for the next event. -/
def EpollPc.remaining : EpollPc → ℕ
  | .polling => 0
  | .accepted .. | .closed .. | .deSerialized .. => 1
  | .acquired .. => 2
  | .received .. => 3
  | .found .. => 4

def ProcessAction.ByEpoll : ProcessAction → Prop
  | .run (.epoll _) | .acceptFails _ | .readFails _ => True
  | .run (.loop _) | .run (.send _) | .sigPipe => False

def ProcessAction.Survived : ProcessAction → Prop
  | .run _ => True
  | .acceptFails _ | .sigPipe => False
  | .readFails errno => errno = eWouldBlock

def Undisturbed (_ : Process) : ProcessAction → Prop
  | .run _ => True
  | .acceptFails _ | .readFails _ | .sigPipe => False

/-- The condition still holds, and the epoll thread has not come back for the next event. -/
def Away (p : Process) (a : ProcessAction) : Prop := Tolerated p a ∧ p.server.epoll ≠ .polling

/-- A chunk waits for an entity, and all are occupied. -/
def Starved (s : State) : Prop :=
  (∃ c b r, s.epoll = .received c b r) ∧ s.entities.acquireEntity = none

def NextEvent (p : Process) : Prop := p.exited = false ∧ p.server.epoll = .polling

structure Isolated (p : Process) : Prop where
  running : p.exited = false
  ends_iff : ∀ a q, processStep p a = some q → (q.exited = false ↔ a.Survived)
  others : ∀ a q, processStep p a = some q → a.ByEpoll → ∀ k, p.server.epoll.client ≠ some k →
    q.server.table.lookup k = p.server.table.lookup k
  retries : ∀ errno q, processStep p (.readFails errno) = some q → q.exited = false →
    q.server.epoll = .polling ∧ q.server.table = p.server.table
  closes : ∀ c q, processStep p (.run (.epoll (.eof c))) = some q →
    q.server.table = p.server.table ∧ q.server.epoll = .closed c c.clientIPPort
  removes : ∀ c k, p.server.epoll = .closed c k → p.server.send.locksTable = false →
    ∃ q, processStep p (.run (.epoll .removeClient)) = some q ∧ q.server.epoll = .polling ∧
      q.server.table.lookup = Function.update p.server.table.lookup k none
  returns : ∀ a q, processStep p a = some q → a.ByEpoll → q.exited = false →
    p.server.epoll ≠ .polling → q.server.epoll.remaining < p.server.epoll.remaining
  settles : ¬ Endless processStep Away p
  goesOn : (∃ q, Reaches processStep Undisturbed p q ∧ NextEvent q) ∨
    ∀ q, Reaches processStep Undisturbed p q → Starved q.server

section Failures

variable {p q : Process} {s t : State} {k : Bytes}

lemma Going.ends_iff (h : Going p) {a : ProcessAction} (hs : processStep p a = some q) :
    q.exited = false ↔ a.Survived := by
  cases a with
  | run a => exact iff_of_true (h.transition hs).2 trivial
  | acceptFails errno =>
    obtain ⟨_, rfl⟩ := processStep_accept hs
    exact iff_of_false (by simp [Process.exit]) id
  | readFails errno =>
    obtain ⟨hex, rfl, _⟩ := processStep_read hs
    by_cases he : errno = eWouldBlock
    · rw [readFailed_tolerated he]
      exact iff_of_true hex he
    · rw [readFailed_fatal he]
      exact iff_of_false (by simp [Process.exit]) he
  | sigPipe =>
    obtain rfl := processStep_sigPipe hs
    exact iff_of_false (by simp [Process.exit]) id

lemma epoll_lookup_ne {a : EpollAction} (hs : EpollTransition s a t)
    (hk : s.epoll.client ≠ some k) : t.table.lookup k = s.table.lookup k := by
  cases hs with
  | addClient hpc =>
    rw [hpc, EpollPc.client] at hk
    rw [ClientTable.lookup_addClient, Function.update_of_ne fun he => hk (congrArg some he.symm)]
  | removeClient hpc =>
    rw [hpc, EpollPc.client] at hk
    rw [ClientTable.lookup_removeClient, Function.update_of_ne fun he => hk (congrArg some he.symm)]
  | refuse | accept | find | findNone | wouldBlock | eof | read | acquireEntity | deSerialize
  | raise | pushMsg => rfl

lemma Going.others (h : Going p) {a : ProcessAction} (hs : processStep p a = some q)
    (ha : a.ByEpoll) (hk : p.server.epoll.client ≠ some k) :
    q.server.table.lookup k = p.server.table.lookup k := by
  cases a with
  | run a =>
    cases (h.transition hs).1 with
    | epoll hs => exact epoll_lookup_ne hs hk
    | loop | send => exact ha.elim
  | acceptFails errno =>
    obtain ⟨_, rfl⟩ := processStep_accept hs
    rfl
  | readFails errno =>
    obtain ⟨_, rfl, _⟩ := processStep_read hs
    by_cases he : errno = eWouldBlock
    · rw [readFailed_tolerated he]
    · rw [readFailed_fatal he]
      rfl
  | sigPipe => exact ha.elim

lemma epollTransition_remaining {a : EpollAction} (hs : EpollTransition s a t)
    (hpc : s.epoll ≠ .polling) : t.epoll.remaining < s.epoll.remaining := by
  cases hs with
  | refuse h | accept h | find h | findNone h => exact absurd h hpc
  | addClient h | wouldBlock h | eof h | removeClient h | read h | acquireEntity h
  | deSerialize h | raise h | pushMsg h =>
    rw [h]
    simp [EpollPc.remaining]

lemma Going.returns (h : Going p) {a : ProcessAction} (hs : processStep p a = some q)
    (ha : a.ByEpoll) (hq : q.exited = false) (hpc : p.server.epoll ≠ .polling) :
    q.server.epoll.remaining < p.server.epoll.remaining := by
  have hsurv := (h.ends_iff hs).mp hq
  cases a with
  | run a =>
    cases (h.transition hs).1 with
    | epoll hs => exact epollTransition_remaining hs hpc
    | loop | send => exact ha.elim
  | acceptFails => exact hsurv.elim
  | readFails errno =>
    obtain ⟨_, rfl, k, fd, b, hfound⟩ := processStep_read hs
    rw [readFailed_tolerated hsurv, hfound]
    simp [EpollPc.remaining]
  | sigPipe => exact ha.elim

/-- A step of the epoll thread brings it nearer to the next event, and between two of them the
other threads can make only so many. -/
lemma away_descending : Descending processStep Away Alive (· < ·)
    fun p => toLex (p.server.epoll.remaining, p.server.work) := by
  rintro p a q h ⟨ha, hpc⟩ hs
  refine ⟨h.step ha hs, Prod.Lex.toLex_lt_toLex.mpr ?_⟩
  obtain ⟨b, _, _, hst, _⟩ := h.going.serverStep ha hs
  cases hst with
  | epoll hst => exact .inl (epollTransition_remaining hst hpc)
  | loop hst =>
    have he := scheduled_epoll (a := .loop _) trivial (.loop hst)
    exact .inr ⟨congrArg EpollPc.remaining he, loopStep_work hst⟩
  | send hst =>
    have he := scheduled_epoll (a := .send _) trivial (.send hst)
    exact .inr ⟨congrArg EpollPc.remaining he, sendStep_work hst⟩

/-- While the send thread has the table locked it can go on, and it has only so much to do. -/
lemma Going.unlocks (h : Going p) : ∃ q, Reaches processStep Undisturbed p q ∧
    Going q ∧ q.server.epoll = p.server.epoll ∧ q.server.send.locksTable = false := by
  have hdec : Decreasing processStep (fun p a => ∃ b, a = .run b ∧ Scheduled p.server b)
      (fun u => Going u ∧ u.server.epoll = p.server.epoll) (fun u => u.server.work) := by
    rintro u _ v ⟨hu, he⟩ ⟨b, rfl, hb⟩ hs
    obtain ⟨hv, hve, hlt⟩ := hu.scheduled hb hs
    exact ⟨⟨hv, hve.trans he⟩, hlt⟩
  have hprog : Progressing processStep (fun p a => ∃ b, a = .run b ∧ Scheduled p.server b)
      (fun u => Going u ∧ u.server.epoll = p.server.epoll)
      (fun u => Going u ∧ u.server.epoll = p.server.epoll ∧
        u.server.send.locksTable = false) := by
    rintro u ⟨hu, he⟩
    rcases hu.ready.send_progress with ⟨hsend, _⟩ | ⟨a, t, ha⟩
    · refine .inl ⟨hu, he, ?_⟩
      rw [hsend]
      rfl
    · exact .inr ⟨_, _, ⟨.send a, rfl, trivial⟩, hu.run ha⟩
  obtain ⟨q, hq, hend⟩ := hdec.ends hprog ⟨h, rfl⟩
  refine ⟨q, hq.mono ?_, hend⟩
  rintro _ _ ⟨b, rfl, _⟩
  trivial

lemma Going.reaches (h : Going p) {a : Action} (hs : step p.server a = some t) :
    Reaches processStep Undisturbed p { p with server := t } :=
  Relation.ReflTransGen.single ⟨.run a, trivial, h.run hs⟩

lemma Going.finish (h : Going p) {a : EpollAction}
    (hs : ∃ t, step p.server (.epoll a) = some t ∧ t.epoll = .polling) :
    ∃ q, Reaches processStep Undisturbed p q ∧ NextEvent q := by
  obtain ⟨t, ht, hpc⟩ := hs
  exact ⟨_, h.reaches ht, h.running, hpc⟩

lemma Going.finish_unlocked (h : Going p) {a : EpollAction}
    (hs : ∀ s : State, s.epoll = p.server.epoll → s.send.locksTable = false →
      ∃ t, step s (.epoll a) = some t ∧ t.epoll = .polling) :
    ∃ q, Reaches processStep Undisturbed p q ∧ NextEvent q := by
  obtain ⟨u, hu, hg, he, hlock⟩ := h.unlocks
  obtain ⟨q, hq, hnext⟩ := hg.finish (hs u.server he hlock)
  exact ⟨q, hu.trans hq, hnext⟩

lemma Going.finish_acquired (h : Going p) {c : Connection} {b : RecvBuffer} {r : ReadBytes} {i : ℕ}
    (hpc : p.server.epoll = .acquired c b r i) :
    ∃ q, Reaches processStep Undisturbed p q ∧ NextEvent q := by
  obtain ⟨n, hn⟩ := h.room
  have hfree : p.server.freed i n = none := freed_none (hn n le_rfl)
  have hstep : step p.server (.epoll (.deSerialize n))
      = prepareAndDecode p.server c b r i n := by
    simp only [step, epollStep, hpc, hfree, Option.isNone_none, if_true]
  obtain ⟨t, ht, hend⟩ := prepareAndDecode_some (s := p.server) (c := c) (i := i) (a := n)
    (h.decodable (b, r) (by rw [hpc]; rfl))
  rw [ht] at hstep
  rcases hend with hend | ⟨d, m, hend⟩
  · exact h.finish ⟨t, hstep, hend⟩
  · have hpush : processStep { p with server := t } (.run (.epoll .pushMsg)) = some { p with
        server := { t with
          recvMsgQueue := t.recvMsgQueue ++ [d]
          epoll := .polling
          history := .pushed c m :: t.history } } := by
      have hcrash : t.crashes (.epoll .pushMsg) = false := rfl
      simp [processStep, runStep, h.running, hcrash, step, epollStep, hend]
    exact ⟨_, (h.reaches hstep).tail ⟨.run _, trivial, hpush⟩, h.running, rfl⟩

lemma Going.finish_received (h : Going p) {c : Connection} {b : RecvBuffer} {r : ReadBytes}
    (hpc : p.server.epoll = .received c b r) (hs : p.server.entities.acquireEntity ≠ none) :
    ∃ q, Reaches processStep Undisturbed p q ∧ NextEvent q := by
  obtain ⟨⟨i, A⟩, hacq⟩ := Option.ne_none_iff_exists'.mp hs
  have hstep : step p.server (.epoll .acquireEntity)
      = some { p.server with entities := A, epoll := .acquired c b r i } := by
    simp [step, epollStep, hpc, hacq]
  have hready : Ready { p.server with entities := A, epoll := .acquired c b r i } := by
    refine ⟨h.ready.classed.step (h.ready.byValue _) (transition_of_step hstep), ?_,
      h.ready.serializer⟩
    intro r hr
    refine h.ready.valued r ?_
    rw [State.held, hpc]
    exact hr
  have hg : Going { p with server :=
      { p.server with entities := A, epoll := .acquired c b r i } } :=
    ⟨h.running, hready, fun x hx => h.decodable x (by rw [hpc]; exact hx), h.room⟩
  obtain ⟨q, hq, hnext⟩ := hg.finish_acquired rfl
  exact ⟨q, (h.reaches hstep).trans hq, hnext⟩

lemma Going.nextEvent (h : Going p) (hs : ¬ Starved p.server) :
    ∃ q, Reaches processStep Undisturbed p q ∧ NextEvent q := by
  cases hpc : p.server.epoll with
  | polling => exact ⟨p, Relation.ReflTransGen.refl, h.running, hpc⟩
  | found k fd b => exact h.finish (a := .wouldBlock) (by simp [step, epollStep, hpc])
  | accepted c b =>
    refine h.finish_unlocked (a := .addClient) fun s he hlock => ?_
    simp [step, epollStep, he, hpc, hlock]
  | closed c k =>
    refine h.finish_unlocked (a := .removeClient) fun s he hlock => ?_
    simp [step, epollStep, he, hpc, hlock]
  | received c b r => exact h.finish_received hpc fun hacq => hs ⟨⟨c, b, r, hpc⟩, hacq⟩
  | acquired c b r i => exact h.finish_acquired hpc
  | deSerialized c r m => exact h.finish (a := .pushMsg) (by simp [step, epollStep, hpc])

lemma Starved.scheduled {a : Action} (h : Starved s) (hs : Transition s a t) : Scheduled s a := by
  obtain ⟨⟨c, b, r, hpc⟩, hacq⟩ := h
  cases hs with
  | epoll hs =>
    cases hs with
    | acquireEntity _ hacq' => exact absurd hacq (by simp [hacq'])
    | refuse hpc' | accept hpc' | addClient hpc' | find hpc' | findNone hpc' | wouldBlock hpc'
    | eof hpc' | removeClient hpc' | read hpc' | deSerialize hpc' | raise hpc' | pushMsg hpc' =>
      cases hpc.symm.trans hpc'
  | loop | send => trivial

lemma Going.goesOn (h : Going p) : (∃ q, Reaches processStep Undisturbed p q ∧ NextEvent q) ∨
    ∀ q, Reaches processStep Undisturbed p q → Starved q.server := by
  by_cases hend : ∃ q, Reaches processStep Undisturbed p q ∧ NextEvent q
  · exact .inl hend
  refine .inr fun q hq => ?_
  -- Every process on the way is going and starved, or the epoll thread would come back from it.
  have hall : Going q ∧ Starved q.server := by
    induction hq with
    | refl => exact ⟨h, by_contra fun hs => hend (h.nextEvent hs)⟩
    | @tail u v hu hst ih =>
      obtain ⟨a, ha, hs⟩ := hst
      cases a with
      | run a =>
        obtain ⟨hg, _⟩ := ih.1.scheduled (ih.2.scheduled (ih.1.transition hs).1) hs
        refine ⟨hg, by_contra fun hns => hend ?_⟩
        obtain ⟨w, hw, hnext⟩ := hg.nextEvent hns
        exact ⟨w, (hu.tail ⟨.run a, trivial, hs⟩).trans hw, hnext⟩
      | acceptFails | readFails | sigPipe => exact ha.elim
  exact hall.2

lemma Alive.isolated (h : Alive p) : Isolated p where
  running := h.going.running
  ends_iff _ _ hs := h.going.ends_iff hs
  others _ _ hs ha _ hk := h.going.others hs ha hk
  retries errno q hs hq := by
    have he : errno = eWouldBlock := (h.going.ends_iff hs).mp hq
    obtain ⟨_, rfl, _⟩ := processStep_read hs
    rw [readFailed_tolerated he]
    exact ⟨rfl, rfl⟩
  closes c q hs := by
    obtain ⟨t, ex⟩ := q
    have hst : Transition p.server (.epoll (.eof c)) t := (h.going.transition hs).1
    cases hst with
    | epoll hs =>
    cases hs with
    | eof hpc hc hfd => exact ⟨rfl, by rw [h.tracked.found_key hpc hc hfd]⟩
  removes c k hpc hlock := by
    have hs : Server.step p.server (.epoll .removeClient) = some { p.server with
        table := ClientTable.removeClient p.server.table k
        epoll := .polling
        history := .disconnected c :: p.server.history } := by
      simp [Server.step, epollStep, hpc, hlock]
    exact ⟨_, h.going.run hs, rfl, ClientTable.lookup_removeClient ..⟩
  returns _ _ hs ha hq hpc := h.going.returns hs ha hq hpc
  settles := away_descending.not_endless wellFounded_lt h
  goesOn := h.going.goesOn

end Failures

section Deciding

instance (p : Process) : (a : ProcessAction) → Decidable (Permitted p a)
  | .run _ | .sigPipe => isTrue trivial
  | .acceptFails _ | .readFails _ => inferInstanceAs (Decidable (_ ∨ _))

end Deciding

end Xty.Server
