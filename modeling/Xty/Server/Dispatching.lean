import Xty.Server.Failures

/-! The loop thread inside `EnterMsgLoop`, for as long as the process runs. -/

namespace Xty.Server

open Xty.General.Runs Xty.General.LittleEndian Xty.General.Cursor
open Xty.Message

def ProcessAction.HandlesNoQuit (p : Process) : ProcessAction → Prop
  | .run a => Server.HandlesNoQuit p.server a
  | .acceptFails _ | .readFails _ | .sigPipe => True

def ProcessAction.ReadsNoQuit (p : Process) : ProcessAction → Prop
  | .run a => Server.ReadsNoQuit p.server a
  | .acceptFails _ | .readFails _ | .sigPipe => True

def KeepsLoop (p : Process) (a : ProcessAction) : Prop := Tolerated p a ∧ a.HandlesNoQuit p

/-- A step of the loop thread or of the send thread, by which the loop thread does not leave. -/
def Works (p : Process) : ProcessAction → Prop
  | .run a => Scheduled p.server a ∧ HandlesNoQuit p.server a
  | .acceptFails _ | .readFails _ | .sigPipe => False

instance (p : Process) : (a : ProcessAction) → Decidable (a.HandlesNoQuit p)
  | .run a => inferInstanceAs (Decidable (Server.HandlesNoQuit p.server a))
  | .acceptFails _ | .readFails _ | .sigPipe => isTrue trivial

instance (p : Process) (a : ProcessAction) : Decidable (KeepsLoop p a) :=
  inferInstanceAs (Decidable (_ ∧ _))

instance (p : Process) : (a : ProcessAction) → Decidable (Works p a)
  | .run _ => inferInstanceAs (Decidable (_ ∧ _))
  | .acceptFails _ | .readFails _ | .sigPipe => isFalse id

def QuitInHand (p : Process) : Prop := ¬ HandlesNoQuit p.server (.loop .callBack)

/-- The loop thread handles what it has, and whatever is in the queue; nothing but a `Quit` keeps
the loop and the send thread from going on until the queue is empty. -/
structure LoopRuns (p : Process) : Prop where
  running : p.exited = false
  inside : p.server.loop ≠ .exited
  bounded : ∀ as q, execute processStep Works p as = some q → as.length ≤ p.server.work
  handles : ∀ q, Reaches processStep Works p q → Stuck processStep Works q →
    q.exited = false ∧ (QuitInHand q ∨ q.server.loop = .waiting ∧ q.server.recvMsgQueue = [])

section Loop

variable {p q : Process}

lemma Going.kept (h : Going p) (hin : p.server.loop ≠ .exited) {a : ProcessAction}
    (hs : processStep p a = some q) :
    q.exited = false ∧ q.server.loop ≠ .exited ↔ a.Survived ∧ a.HandlesNoQuit p := by
  rw [h.ends_iff hs]
  refine and_congr_right fun hsurv => ?_
  cases a with
  | run a => exact exited_iff h.ready.classed.remembered hin (h.transition hs).1
  | acceptFails | sigPipe => exact hsurv.elim
  | readFails errno =>
    obtain ⟨_, rfl, _⟩ := processStep_read hs
    rw [readFailed_tolerated hsurv]
    exact iff_of_true hin trivial

lemma tolerated_survived {a : ProcessAction} (h : Tolerated p a) : a.Survived := by
  cases a with
  | run => trivial
  | acceptFails | readFails | sigPipe => exact h

lemma alive_inside {E : SerializeEntity} (h : Reaches processStep KeepsLoop (Process.init E) p) :
    Alive p ∧ p.server.loop ≠ .exited := by
  refine h.invariant (I := fun p => Alive p ∧ p.server.loop ≠ .exited)
    ⟨alive_init E, by simp [Process.init, State.init]⟩ ?_
  rintro p a q ⟨hi, hin⟩ ⟨ha, hquit⟩ hs
  exact ⟨hi.step ha hs, ((hi.going.kept hin hs).mpr ⟨tolerated_survived ha, hquit⟩).2⟩

lemma works_decreasing : Decreasing processStep Works
    (fun p => Going p ∧ p.server.loop ≠ .exited) fun p => p.server.work := by
  rintro p a q ⟨hg, hin⟩ ha hs
  cases a with
  | run a =>
    obtain ⟨hq, _, hlt⟩ := hg.scheduled ha.1 hs
    exact ⟨⟨hq, ((hg.kept hin hs).mpr ⟨trivial, ha.2⟩).2⟩, hlt⟩
  | acceptFails | readFails | sigPipe => exact ha.elim

lemma Going.stuck (h : Going p) (hin : p.server.loop ≠ .exited) (hs : Stuck processStep Works p) :
    QuitInHand p ∨ p.server.loop = .waiting ∧ p.server.recvMsgQueue = [] := by
  rcases h.ready.progress with hrest | ⟨a, t, ha, ht⟩
  · rcases hrest.loop with hexit | hwait
    · exact absurd hexit hin
    · exact .inr hwait
  · refine .inl fun hquit => ?_
    have hnone := hs (.run a) ⟨ha, ?_⟩
    · rw [h.run ht] at hnone
      cases hnone
    · cases a with
      | epoll | send => trivial
      | loop a =>
        cases a with
        | callBack => exact hquit
        | getMsg | releaseEntity => trivial

lemma Going.loopRuns (h : Going p) (hin : p.server.loop ≠ .exited) : LoopRuns p where
  running := h.running
  inside := hin
  bounded as q hq := (Nat.le_add_right _ _).trans (works_decreasing.length_le ⟨h, hin⟩ hq)
  handles q hq hs := by
    have hi : Going q ∧ q.server.loop ≠ .exited :=
      hq.invariant (I := fun p => Going p ∧ p.server.loop ≠ .exited) ⟨h, hin⟩
        fun p a q hi ha hs => (works_decreasing p a q hi ha hs).1
    exact ⟨hi.1.running, hi.1.stuck hi.2 hs⟩

def ReadsOthers (p : Process) (a : ProcessAction) : Prop := Tolerated p a ∧ a.ReadsNoQuit p

lemma keepsLoop_of_reads {E : SerializeEntity}
    (h : Reaches processStep ReadsOthers (Process.init E) p) :
    Reaches processStep KeepsLoop (Process.init E) p ∧ ¬ QuitInHand p := by
  have hall : Alive p ∧ NoQuitMade p.server ∧
      Reaches processStep KeepsLoop (Process.init E) p := by
    induction h with
    | refl => exact ⟨alive_init E, noQuitMade_init E, Relation.ReflTransGen.refl⟩
    | @tail u v _ hst ih =>
      obtain ⟨a, ⟨ha, hr⟩, hs⟩ := hst
      obtain ⟨hi, hm, hreach⟩ := ih
      obtain ⟨b, hb, _, hst, _⟩ := hi.going.serverStep ha hs
      have hread : ReadsNoQuit u.server b := by
        rcases hb with rfl | rfl
        · exact hr
        · trivial
      refine ⟨hi.step ha hs, hm.step hread hst, hreach.tail ⟨a, ⟨ha, ?_⟩, hs⟩⟩
      cases a with
      | run a => exact hm.handlesNoQuit a
      | acceptFails | readFails | sigPipe => trivial
  exact ⟨hall.2.2, not_not_intro (hall.2.1.handlesNoQuit _)⟩

/-- The callback of the Quit message is in the table of the server like the others. -/
theorem message_loop_runs {E : SerializeEntity}
    (h : Reaches processStep KeepsLoop (Process.init E) p) :
    LoopRuns p ∧
    (∀ a q, processStep p a = some q →
      (q.exited = false ∧ q.server.loop ≠ .exited ↔ a.Survived ∧ a.HandlesNoQuit p)) ∧
    ∀ u, Reaches processStep ReadsOthers (Process.init E) u →
      Reaches processStep KeepsLoop (Process.init E) u ∧ ¬ QuitInHand u := by
  obtain ⟨hi, hin⟩ := alive_inside h
  exact ⟨hi.going.loopRuns hin, fun _ _ hs => hi.going.kept hin hs, fun _ => keepsLoop_of_reads⟩

theorem message_loop_runs_reg : ∃ p,
    Reaches processStep KeepsLoop (Process.init serializer₀) p ∧
      p.server.history.head? = some (.handled (.reg ⟨⟨2, 40⟩, [97], [49], [53, 48]⟩)) ∧
        LoopRuns p := by
  have h : (execute processStep KeepsLoop (Process.init serializer₀) ((connect client₀ ++
      sendFrom client₀ 0 (.reg ⟨⟨2, 0⟩, [97], [49], [53, 48]⟩) (by decide) ++
      [Action.loop .callBack]).map .run)).map (fun p => p.server.history.head?)
      = some (some (.handled (.reg ⟨⟨2, 40⟩, [97], [49], [53, 48]⟩))) := by
    decide +kernel
  obtain ⟨p, hp, hw⟩ := reaches_of_execute_map h
  exact ⟨p, hp, hw, (message_loop_runs hp).1⟩

lemma exited_remains (h : p.server.loop = .exited) {a : ProcessAction}
    (hs : processStep p a = some q) : q.server.loop = .exited := by
  cases a with
  | run a =>
    rcases processStep_run hs with ⟨_, rfl⟩ | ⟨_, t, ht, rfl⟩
    · exact h
    · exact exited_stays h (transition_of_step ht)
  | acceptFails errno =>
    obtain ⟨_, rfl⟩ := processStep_accept hs
    exact h
  | readFails errno =>
    obtain ⟨_, rfl, _⟩ := processStep_read hs
    by_cases he : errno = eWouldBlock
    · rw [readFailed_tolerated he]
      exact h
    · rw [readFailed_fatal he]
      exact h
  | sigPipe =>
    obtain rfl := processStep_sigPipe hs
    exact h

/-- The process goes on, and with it the other two threads. -/
theorem quit_message_ends_loop : ∃ p,
    Reaches processStep Tolerated (Process.init serializer₀) p ∧ p.exited = false ∧
      p.server.recvMsgQueue ≠ [] ∧
      p.server.history.head? = some (.pushed client₁ (.reg ⟨⟨2, 40⟩, [97], [49], [53, 49]⟩)) ∧
      ∀ q, Reaches processStep Free p q → q.server.loop = .exited := by
  have h : (execute processStep Tolerated (Process.init serializer₀) ((connect client₀ ++
      connect client₁ ++ sendFrom client₀ 0 (.quit ⟨⟨1, 0⟩⟩) (by decide) ++
      [Action.loop .callBack] ++
      (sendFrom client₁ 1 (.reg ⟨⟨2, 0⟩, [97], [49], [53, 49]⟩) (by decide)).dropLast).map
        .run)).map (fun p => (p.exited, p.server.recvMsgQueue, p.server.history.head?,
          match p.server.loop with
          | .exited => true
          | _ => false))
      = some (false, [⟨1, 1⟩], some (.pushed client₁ (.reg ⟨⟨2, 40⟩, [97], [49], [53, 49]⟩)),
          true) := by
    decide +kernel
  obtain ⟨p, hp, hw⟩ := reaches_of_execute_map h
  simp only [Prod.mk.injEq] at hw
  obtain ⟨hrun, hq, hhead, hpc⟩ := hw
  have hex : p.server.loop = .exited := by
    split at hpc
    · next he => exact he
    · cases hpc
  refine ⟨p, hp, hrun, by rw [hq]; exact List.cons_ne_nil _ _, hhead, fun q hq => ?_⟩
  exact hq.invariant (I := fun p => p.server.loop = .exited) hex
    fun _ _ _ hi _ hs => exited_remains hi hs

end Loop

end Xty.Server
