import Xty.General.Counting
import Xty.General.Runs
import Xty.Queues.Queue

/-! `xtyThreadMsgQueue` and its `xtyThreadEvent`, under any number of threads that push and pop.
A lock-protected section is one step, and so is a signal. -/

namespace Xty.Queues.ThreadQueue

open Xty.General.Runs Xty.General.Counting

/-- A thread in `PushMsg` has `pushed` the message or is `signalling` the event. In `PopMsg` it is
`waiting` with the lock given up, `woken` and about to test again, or has `consumed` an event and
not yet dequeued. A `failed` one holds the lock. -/
inductive Pc where
  | idle
  | pushed
  | signalling
  | waiting
  | woken
  | consumed
  | failed (f : Fault)
deriving DecidableEq, Repr

/-- The last four fields record what has happened: the calls of `EnQueue` and `DeQueue`, the
latter with the thread whose `PopMsg` returns the message, and the changes of the counter. -/
structure State (ι T : Type) where
  queue : Queue T
  events : UInt32
  pc : ι → Pc
  enqueued : List T
  dequeued : List (ι × T)
  increments : ℕ
  decrements : ℕ

inductive Action (ι T : Type) where
  | enQueue (i : ι) (m : T)
  | produce (i : ι)
  | signal (i : ι) (j : Option ι)
  | consume (i : ι)
  | wake (i : ι)
  | deQueue (i : ι)

variable {ι T : Type}

def State.init : State ι T := ⟨Queue.create, 0, fun _ => .idle, [], [], 0, 0⟩

/-- Every message in the queue is announced by an event, or will be by a producer that has just
pushed it, or has been claimed by a consumer that is about to take it. -/
structure Inv [Fintype ι] (s : State ι T) : Prop where
  counted : s.queue.Counted
  bound : s.queue.nodes.length < 2 ^ 32
  counter : s.events.toNat + s.decrements = s.increments
  balance : s.queue.nodes.length = s.events.toNat + count .pushed s.pc + count .consumed s.pc
  log : s.enqueued = s.dequeued.map Prod.snd ++ s.queue.nodes
  running : ∀ i f, s.pc i ≠ .failed f

lemma inv_init [Fintype ι] : Inv (State.init : State ι T) where
  counted := rfl
  bound := by simp [State.init, Queue.create]
  counter := rfl
  balance := by
    rw [count_eq_zero fun _ => by simp [State.init], count_eq_zero fun _ => by simp [State.init]]
    rfl
  log := rfl
  running := by simp [State.init]

lemma Inv.deQueue_some [Fintype ι] {s : State ι T} {i : ι} (h : Inv s) (hi : s.pc i = .consumed) :
    ∃ r, s.queue.deQueue = .ok r := by
  refine h.counted.deQueue_some ?_ h.bound
  have hbal := h.balance
  have hpos := count_pos hi
  omega

variable [DecidableEq ι]

def State.goto (s : State ι T) (i : ι) (c : Pc) : State ι T :=
  { s with pc := Function.update s.pc i c }

variable [Fintype ι]

def step (s : State ι T) : Action ι T → Option (State ι T)
  | .enQueue i m =>
    if s.pc i = .idle then
      some { s.goto i .pushed with
        queue := s.queue.enQueue m
        enqueued := s.enqueued ++ [m] }
    else none
  | .produce i =>
    if s.pc i = .pushed then
      some { s.goto i .signalling with
        events := s.events + 1
        increments := s.increments + 1 }
    else none
  | .signal i (some j) =>
    if s.pc i = .signalling ∧ s.pc j = .waiting then some ((s.goto i .idle).goto j .woken)
    else none
  | .signal i none =>
    if s.pc i = .signalling ∧ ∀ j, s.pc j ≠ .waiting then some (s.goto i .idle) else none
  | .consume i =>
    if s.pc i = .idle ∨ s.pc i = .woken then
      if s.events = 0 then some (s.goto i .waiting)
      else some { s.goto i .consumed with
        events := s.events - 1
        decrements := s.decrements + 1 }
    else none
  | .wake i => if s.pc i = .waiting then some (s.goto i .woken) else none
  | .deQueue i =>
    if s.pc i = .consumed then
      match s.queue.deQueue with
      | .ok (v, q) => some { s.goto i .idle with queue := q, dequeued := s.dequeued ++ [(i, v)] }
      | .error f => some (s.goto i (.failed f))
    else none

def Bounded (s : State ι T) : Action ι T → Prop
  | .enQueue _ _ => s.queue.nodes.length + 1 < 2 ^ 32
  | _ => True

section Invariant

variable {s t : State ι T} {i : ι} {c : Pc}

lemma Inv.goto (h : Inv s) (hi : s.pc i ≠ .pushed ∧ s.pc i ≠ .consumed)
    (hc : c ≠ .pushed ∧ c ≠ .consumed) (hf : ∀ f, c ≠ .failed f) : Inv (s.goto i c) where
  counted := h.counted
  bound := h.bound
  counter := h.counter
  balance := by
    rw [State.goto, count_elsewhere hi.1 hc.1, count_elsewhere hi.2 hc.2]
    exact h.balance
  log := h.log
  running := fun j f => update_ne (h.running · f) (hf f) j

lemma inv_enQueue {m : T} (h : Inv s) (hi : s.pc i = .idle)
    (hb : s.queue.nodes.length + 1 < 2 ^ 32) :
    Inv { s.goto i .pushed with
      queue := s.queue.enQueue m
      enqueued := s.enqueued ++ [m] } where
  counted := h.counted.enQueue m
  bound := by
    rw [Queue.enQueue, List.length_append, List.length_singleton]
    exact hb
  counter := h.counter
  balance := by
    have hbal := h.balance
    simp only [State.goto, Queue.enQueue, List.length_append, List.length_singleton]
    rw [count_enter (by simp [hi]), count_elsewhere (by simp [hi]) (by simp)]
    omega
  log := by simp only [Queue.enQueue, h.log, List.append_assoc, State.goto]
  running := fun j f => update_ne (h.running · f) (by simp) j

lemma inv_produce (h : Inv s) (hi : s.pc i = .pushed) :
    Inv { s.goto i .signalling with
      events := s.events + 1
      increments := s.increments + 1 } := by
  have hbal := h.balance
  have hbound := h.bound
  have hcount := h.counter
  have hl := count_leave hi (show Pc.signalling ≠ .pushed by simp)
  have hev : (s.events + 1).toNat = s.events.toNat + 1 := toNat_increment (by omega)
  refine ⟨h.counted, h.bound, ?_, ?_, h.log, fun j f => update_ne (h.running · f) (by simp) j⟩
  · simp only [State.goto]
    omega
  · simp only [State.goto]
    rw [hev, count_elsewhere (c := Pc.consumed) (by simp [hi]) (by simp)]
    omega

lemma inv_consume (h : Inv s) (hi : s.pc i = .idle ∨ s.pc i = .woken) (he : s.events ≠ 0) :
    Inv { s.goto i .consumed with
      events := s.events - 1
      decrements := s.decrements + 1 } := by
  have hbal := h.balance
  have hcount := h.counter
  have hpos : 0 < s.events.toNat := Nat.pos_of_ne_zero fun hz => he (UInt32.toNat_inj.mp hz)
  have hev : (s.events - 1).toNat = s.events.toNat - 1 := toNat_decrement hpos
  have hne : s.pc i ≠ .consumed ∧ s.pc i ≠ .pushed := by
    rcases hi with hi | hi <;> simp [hi]
  refine ⟨h.counted, h.bound, ?_, ?_, h.log, fun j f => update_ne (h.running · f) (by simp) j⟩
  · simp only [State.goto]
    omega
  · simp only [State.goto]
    rw [hev, count_enter hne.1, count_elsewhere hne.2 (by simp)]
    omega

lemma inv_deQueue {v : T} {q : Queue T} (h : Inv s) (hi : s.pc i = .consumed)
    (hq : s.queue.deQueue = .ok (v, q)) :
    Inv { s.goto i .idle with queue := q, dequeued := s.dequeued ++ [(i, v)] } where
  counted := h.counted.deQueue hq
  bound := by
    have hbound := h.bound
    rw [(Queue.deQueue_ok hq).1, List.length_cons] at hbound
    exact Nat.lt_of_succ_lt hbound
  counter := h.counter
  balance := by
    have hbal := h.balance
    have hl := count_leave hi (show Pc.idle ≠ .consumed by simp)
    rw [(Queue.deQueue_ok hq).1, List.length_cons] at hbal
    simp only [State.goto]
    rw [count_elsewhere (c := Pc.pushed) (by simp [hi]) (by simp)]
    omega
  log := by
    simp only [State.goto, h.log, (Queue.deQueue_ok hq).1, List.map_append, List.map_singleton,
      List.append_assoc, List.singleton_append]
  running := fun j f => update_ne (h.running · f) (by simp) j

lemma inv_step {a : Action ι T} (h : Inv s) (hb : Bounded s a) (hs : step s a = some t) :
    Inv t := by
  cases a with
  | enQueue i m =>
    rw [step] at hs
    split_ifs at hs with hi
    obtain rfl := Option.some.inj hs
    exact inv_enQueue h hi hb
  | produce i =>
    rw [step] at hs
    split_ifs at hs with hi
    obtain rfl := Option.some.inj hs
    exact inv_produce h hi
  | signal i j =>
    cases j with
    | none =>
      rw [step] at hs
      split_ifs at hs with hi
      obtain rfl := Option.some.inj hs
      exact h.goto (by simp [hi.1]) (by simp) (by simp)
    | some j =>
      rw [step] at hs
      split_ifs at hs with hi
      obtain rfl := Option.some.inj hs
      have hij : j ≠ i := by
        rintro rfl
        rw [hi.1] at hi
        exact absurd hi.2 (by simp)
      have hj : (s.goto i .idle).pc j = .waiting := (Function.update_of_ne hij _ _).trans hi.2
      refine (h.goto (by simp [hi.1]) (by simp) (by simp)).goto ?_ (by simp) (by simp)
      simp [hj]
  | consume i =>
    rw [step] at hs
    split_ifs at hs with hi he
    · obtain rfl := Option.some.inj hs
      refine h.goto ?_ (by simp) (by simp)
      rcases hi with hi | hi <;> simp [hi]
    · obtain rfl := Option.some.inj hs
      exact inv_consume h hi he
  | wake i =>
    rw [step] at hs
    split_ifs at hs with hi
    obtain rfl := Option.some.inj hs
    exact h.goto (by simp [hi]) (by simp) (by simp)
  | deQueue i =>
    rw [step] at hs
    split_ifs at hs with hi
    obtain ⟨⟨v, q⟩, hq⟩ := h.deQueue_some hi
    rw [hq] at hs
    obtain rfl := Option.some.inj hs
    exact inv_deQueue h hi hq

lemma step_enQueue {m : T} (hs : step s (.enQueue i m) = some t) :
    s.pc i = .idle ∧ t.queue = s.queue.enQueue m ∧ t.dequeued = s.dequeued := by
  rw [step] at hs
  split_ifs at hs with hi
  obtain rfl := Option.some.inj hs
  exact ⟨hi, rfl, rfl⟩

lemma step_deQueue (h : Inv s) (hs : step s (.deQueue i) = some t) :
    ∃ v, s.queue.deQueue = .ok (v, t.queue) ∧ t.dequeued = s.dequeued ++ [(i, v)] := by
  rw [step] at hs
  split_ifs at hs with hi
  obtain ⟨⟨v, q⟩, hq⟩ := h.deQueue_some hi
  rw [hq] at hs
  obtain rfl := Option.some.inj hs
  exact ⟨v, hq, rfl⟩

lemma step_event {a : Action ι T} (hs : step s a = some t) (hen : ∀ i m, a ≠ .enQueue i m)
    (hde : ∀ i, a ≠ .deQueue i) : t.queue = s.queue ∧ t.dequeued = s.dequeued := by
  cases a with
  | enQueue i m => exact absurd rfl (hen i m)
  | deQueue i => exact absurd rfl (hde i)
  | produce i | wake i =>
    rw [step] at hs
    split_ifs at hs
    obtain rfl := Option.some.inj hs
    exact ⟨rfl, rfl⟩
  | signal i j =>
    cases j <;> rw [step] at hs <;> split_ifs at hs <;> obtain rfl := Option.some.inj hs
    · exact ⟨rfl, rfl⟩
    · exact ⟨rfl, rfl⟩
  | consume i =>
    rw [step] at hs
    split_ifs at hs <;> obtain rfl := Option.some.inj hs
    · exact ⟨rfl, rfl⟩
    · exact ⟨rfl, rfl⟩

lemma reaches_inv (h : Reaches step Bounded (State.init : State ι T) s) : Inv s :=
  h.invariant inv_init fun _ _ _ hs hb => inv_step hs hb

end Invariant

section Safety

/-- A `DeQueue` that is due finds a message and does not throw, the counter has not been taken
below zero, and what was enqueued has been returned once and in order, or is still in the queue. -/
structure Safe (s : State ι T) : Prop where
  available : ∀ i, s.pc i = .consumed → ∃ r, s.queue.deQueue = .ok r
  noThrow : ∀ i f, s.pc i ≠ .failed f
  counter : s.events.toNat + s.decrements = s.increments
  once : s.enqueued = s.dequeued.map Prod.snd ++ s.queue.nodes
  inOrder : s.dequeued.map Prod.snd <+: s.enqueued

theorem thread_queue_safe {s : State ι T} (h : Reaches step Bounded State.init s) : Safe s := by
  have hi := reaches_inv h
  refine ⟨fun i => hi.deQueue_some, hi.running, hi.counter, hi.log, ?_⟩
  rw [hi.log]
  exact List.prefix_append _ _

instance (s : State ι T) : (a : Action ι T) → Decidable (Bounded s a)
  | .enQueue _ _ => inferInstanceAs (Decidable (_ < _))
  | .produce _ | .signal _ _ | .consume _ | .wake _ | .deQueue _ => isTrue trivial

theorem thread_queue_safe_wait : ∃ s : State (Fin 2) ℕ,
    Reaches step Bounded State.init s ∧ s.dequeued = [(1, 5)] ∧ Safe s := by
  have h : (execute step Bounded (State.init : State (Fin 2) ℕ) [.consume 1, .enQueue 0 5,
      .produce 0, .signal 0 (some 1), .consume 1, .deQueue 1]).map State.dequeued
      = some [(1, 5)] := rfl
  obtain ⟨s, hs, hd⟩ := reaches_of_execute_map h
  exact ⟨s, hs, hd, thread_queue_safe hs⟩

end Safety

end Xty.Queues.ThreadQueue
