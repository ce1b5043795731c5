import Mathlib.Data.UInt
import Xty.General.Counting
import Xty.General.Runs
import Xty.Queues.Queue

/-! `xtyProcessMsgQueue` and its `xtyProcessEvent`, which tests its counter outside the lock. The
test, a semaphore operation and a lock-protected section are one step each. -/

namespace Xty.Queues.ProcessQueue

open Xty.General.Runs Xty.General.Counting

/-- Between `tested` and `consumed` a consumer takes the event that its unlocked test has read. -/
inductive Pc where
  | idle
  | pushed
  | posting
  | waiting
  | woken
  | tested
  | consumed
  | failed (f : Fault)
deriving DecidableEq, Repr

structure State (ι T : Type) where
  queue : Queue T
  events : UInt32
  semaphore : ℕ
  pc : ι → Pc
  enqueued : List T
  dequeued : List (ι × T)
  increments : ℕ
  decrements : ℕ

inductive Action (ι T : Type) where
  | enQueue (i : ι) (m : T)
  | produce (i : ι)
  | post (i : ι)
  | test (i : ι)
  | await (i : ι)
  | decrement (i : ι)
  | deQueue (i : ι)

variable {ι T : Type}

def State.init : State ι T := ⟨Queue.create, 0, 0, fun _ => .idle, [], [], 0, 0⟩

section Model

variable [DecidableEq ι]

def State.goto (s : State ι T) (i : ι) (c : Pc) : State ι T :=
  { s with pc := Function.update s.pc i c }

def step (s : State ι T) : Action ι T → Option (State ι T)
  | .enQueue i m =>
    if s.pc i = .idle then
      some { s.goto i .pushed with
        queue := s.queue.enQueue m
        enqueued := s.enqueued ++ [m] }
    else none
  | .produce i =>
    if s.pc i = .pushed then
      some { s.goto i .posting with
        events := s.events + 1
        increments := s.increments + 1 }
    else none
  | .post i =>
    if s.pc i = .posting then some { s.goto i .idle with semaphore := s.semaphore + 1 } else none
  | .test i =>
    if s.pc i = .idle ∨ s.pc i = .woken then
      if s.events = 0 then some (s.goto i .waiting) else some (s.goto i .tested)
    else none
  | .await i =>
    if s.pc i = .waiting ∧ 0 < s.semaphore then
      some { s.goto i .woken with semaphore := s.semaphore - 1 }
    else none
  | .decrement i =>
    if s.pc i = .tested then
      some { s.goto i .consumed with
        events := s.events - 1
        decrements := s.decrements + 1 }
    else none
  | .deQueue i =>
    if s.pc i = .consumed then
      match s.queue.deQueue with
      | .ok (v, q) => some { s.goto i .idle with queue := q, dequeued := s.dequeued ++ [(i, v)] }
      | .error f => some (s.goto i (.failed f))
    else none

end Model

/-- A decrement that is due finds an event, a `DeQueue` that is due finds a message, neither of them
has failed before, and what was enqueued has been returned once or is still in the queue. -/
structure Safe (s : State ι T) : Prop where
  positive : ∀ i, s.pc i = .tested → s.events ≠ 0
  counter : s.events.toNat + s.decrements = s.increments
  available : ∀ i, s.pc i = .consumed → ∃ r, s.queue.deQueue = .ok r
  noThrow : ∀ i f, s.pc i ≠ .failed f
  once : s.enqueued = s.dequeued.map Prod.snd ++ s.queue.nodes

/-- No other consumer has claimed the last event when a consumer passes the test, and fewer than
`2 ^ 32` messages are outstanding. -/
def Exclusive [Fintype ι] (s : State ι T) : Action ι T → Prop
  | .test _ => s.events ≠ 0 → count .tested s.pc < s.events.toNat
  | .enQueue _ _ => s.queue.nodes.length + 1 < 2 ^ 32
  | _ => True

structure Inv [Fintype ι] (s : State ι T) : Prop where
  counted : s.queue.Counted
  bound : s.queue.nodes.length < 2 ^ 32
  counter : s.events.toNat + s.decrements = s.increments
  claimed : count .tested s.pc ≤ s.events.toNat
  balance : s.queue.nodes.length = s.events.toNat + count .pushed s.pc + count .consumed s.pc
  log : s.enqueued = s.dequeued.map Prod.snd ++ s.queue.nodes
  running : ∀ i f, s.pc i ≠ .failed f

section Invariant

variable [Fintype ι] {s t : State ι T} {i : ι} {c : Pc}

lemma inv_init : Inv (State.init : State ι T) := by
  have hz : ∀ c, Pc.idle ≠ c → count c (State.init : State ι T).pc = 0 := fun c hc =>
    count_eq_zero fun _ => hc
  refine ⟨rfl, by simp [State.init, Queue.create], rfl, ?_, ?_, rfl, by simp [State.init]⟩
  · rw [hz _ (by simp)]
    exact Nat.zero_le _
  · rw [hz _ (by simp), hz _ (by simp)]
    rfl

lemma Inv.deQueue_some (h : Inv s) (hi : s.pc i = .consumed) :
    ∃ r, s.queue.deQueue = .ok r := by
  refine h.counted.deQueue_some ?_ h.bound
  have hbal := h.balance
  have hpos := count_pos hi
  omega

lemma Inv.positive (h : Inv s) (hi : s.pc i = .tested) : 0 < s.events.toNat :=
  (count_pos hi).trans_le h.claimed

lemma Inv.semaphore (h : Inv s) (n : ℕ) : Inv { s with semaphore := n } :=
  ⟨h.counted, h.bound, h.counter, h.claimed, h.balance, h.log, h.running⟩

lemma Inv.safe (h : Inv s) : Safe s where
  positive i hi hz := by
    have hpos := h.positive hi
    rw [hz] at hpos
    exact absurd hpos (lt_irrefl 0)
  counter := h.counter
  available _ := h.deQueue_some
  noThrow := h.running
  once := h.log

variable [DecidableEq ι]

lemma Inv.goto (h : Inv s) (hi : s.pc i ≠ .tested ∧ s.pc i ≠ .pushed ∧ s.pc i ≠ .consumed)
    (hc : c ≠ .tested ∧ c ≠ .pushed ∧ c ≠ .consumed) (hf : ∀ f, c ≠ .failed f) :
    Inv (s.goto i c) where
  counted := h.counted
  bound := h.bound
  counter := h.counter
  claimed := by
    rw [State.goto, count_elsewhere hi.1 hc.1]
    exact h.claimed
  balance := by
    rw [State.goto, count_elsewhere hi.2.1 hc.2.1, count_elsewhere hi.2.2 hc.2.2]
    exact h.balance
  log := h.log
  running j f := update_ne (h.running · f) (hf f) j

lemma inv_enQueue {m : T} (h : Inv s) (hi : s.pc i = .idle)
    (hb : s.queue.nodes.length + 1 < 2 ^ 32) :
    Inv { s.goto i .pushed with
      queue := s.queue.enQueue m
      enqueued := s.enqueued ++ [m] } where
  counted := h.counted.enQueue m
  bound := by
    rw [Queue.enQueue, List.length_append, List.length_singleton]
    exact hb
  counter := h.counter
  claimed := by
    rw [State.goto, count_elsewhere (by simp [hi]) (by simp)]
    exact h.claimed
  balance := by
    have hbal := h.balance
    simp only [State.goto, Queue.enQueue, List.length_append, List.length_singleton]
    rw [count_enter (by simp [hi]), count_elsewhere (by simp [hi]) (by simp)]
    omega
  log := by simp only [Queue.enQueue, h.log, List.append_assoc, State.goto]
  running j f := update_ne (h.running · f) (by simp) j

lemma inv_produce (h : Inv s) (hi : s.pc i = .pushed) :
    Inv { s.goto i .posting with
      events := s.events + 1
      increments := s.increments + 1 } := by
  have hbal := h.balance
  have hbound := h.bound
  have hcount := h.counter
  have hclaim := h.claimed
  have hl := count_leave hi (show Pc.posting ≠ .pushed by simp)
  have hev : (s.events + 1).toNat = s.events.toNat + 1 := toNat_increment (by omega)
  refine ⟨h.counted, h.bound, ?_, ?_, ?_, h.log,
    fun j f => update_ne (h.running · f) (by simp) j⟩
  · simp only [State.goto]
    omega
  · simp only [State.goto]
    rw [hev, count_elsewhere (by simp [hi]) (by simp)]
    omega
  · simp only [State.goto]
    rw [hev, count_elsewhere (c := Pc.consumed) (by simp [hi]) (by simp)]
    omega

lemma inv_test (h : Inv s) (hi : s.pc i = .idle ∨ s.pc i = .woken)
    (hb : count .tested s.pc < s.events.toNat) : Inv (s.goto i .tested) := by
  have hne : s.pc i ≠ .tested ∧ s.pc i ≠ .pushed ∧ s.pc i ≠ .consumed := by
    rcases hi with hi | hi <;> simp [hi]
  refine ⟨h.counted, h.bound, h.counter, ?_, ?_, h.log,
    fun j f => update_ne (h.running · f) (by simp) j⟩
  · rw [State.goto, count_enter hne.1]
    exact hb
  · rw [State.goto, count_elsewhere hne.2.1 (by simp), count_elsewhere hne.2.2 (by simp)]
    exact h.balance

lemma inv_decrement (h : Inv s) (hi : s.pc i = .tested) :
    Inv { s.goto i .consumed with
      events := s.events - 1
      decrements := s.decrements + 1 } := by
  have hbal := h.balance
  have hcount := h.counter
  have hclaim := h.claimed
  have hpos := h.positive hi
  have hl := count_leave hi (show Pc.consumed ≠ .tested by simp)
  have hev : (s.events - 1).toNat = s.events.toNat - 1 := toNat_decrement hpos
  refine ⟨h.counted, h.bound, ?_, ?_, ?_, h.log,
    fun j f => update_ne (h.running · f) (by simp) j⟩
  · simp only [State.goto]
    omega
  · simp only [State.goto]
    omega
  · simp only [State.goto]
    rw [hev, count_enter (by simp [hi]), count_elsewhere (by simp [hi]) (by simp)]
    omega

lemma inv_deQueue {v : T} {q : Queue T} (h : Inv s) (hi : s.pc i = .consumed)
    (hq : s.queue.deQueue = .ok (v, q)) :
    Inv { s.goto i .idle with queue := q, dequeued := s.dequeued ++ [(i, v)] } where
  counted := h.counted.deQueue hq
  bound := by
    have hbound := h.bound
    rw [(Queue.deQueue_ok hq).1, List.length_cons] at hbound
    exact Nat.lt_of_succ_lt hbound
  counter := h.counter
  claimed := by
    rw [State.goto, count_elsewhere (by simp [hi]) (by simp)]
    exact h.claimed
  balance := by
    have hbal := h.balance
    have hl := count_leave hi (show Pc.idle ≠ .consumed by simp)
    rw [(Queue.deQueue_ok hq).1, List.length_cons] at hbal
    simp only [State.goto]
    rw [count_elsewhere (c := Pc.pushed) (by simp [hi]) (by simp)]
    omega
  log := by
    simp only [State.goto, h.log, (Queue.deQueue_ok hq).1, List.map_append, List.map_singleton,
      List.append_assoc, List.singleton_append]
  running j f := update_ne (h.running · f) (by simp) j

lemma inv_step {a : Action ι T} (h : Inv s) (hb : Exclusive s a) (hs : step s a = some t) :
    Inv t := by
  cases a with
  | enQueue i m =>
    rw [step] at hs
    split_ifs at hs with hi
    obtain rfl := Option.some.inj hs
    exact inv_enQueue h hi hb
  | produce i =>
    rw [step] at hs
    split_ifs at hs with hi
    obtain rfl := Option.some.inj hs
    exact inv_produce h hi
  | post i =>
    rw [step] at hs
    split_ifs at hs with hi
    obtain rfl := Option.some.inj hs
    exact (h.goto (by simp [hi]) (by simp) (by simp)).semaphore _
  | test i =>
    rw [step] at hs
    split_ifs at hs with hi he
    · obtain rfl := Option.some.inj hs
      refine h.goto ?_ (by simp) (by simp)
      rcases hi with hi | hi <;> simp [hi]
    · obtain rfl := Option.some.inj hs
      exact inv_test h hi (hb he)
  | await i =>
    rw [step] at hs
    split_ifs at hs with hi
    obtain rfl := Option.some.inj hs
    exact (h.goto (by simp [hi.1]) (by simp) (by simp)).semaphore _
  | decrement i =>
    rw [step] at hs
    split_ifs at hs with hi
    obtain rfl := Option.some.inj hs
    exact inv_decrement h hi
  | deQueue i =>
    rw [step] at hs
    split_ifs at hs with hi
    obtain ⟨⟨v, q⟩, hq⟩ := h.deQueue_some hi
    rw [hq] at hs
    obtain rfl := Option.some.inj hs
    exact inv_deQueue h hi hq

end Invariant

section Safety

variable [Fintype ι] [DecidableEq ι]

theorem process_queue_safe {s : State ι T} (h : Reaches step Exclusive State.init s) : Safe s :=
  (h.invariant inv_init fun _ _ _ hs hb => inv_step hs hb).safe

instance (s : State ι T) : (a : Action ι T) → Decidable (Exclusive s a)
  | .test _ => inferInstanceAs (Decidable (_ → _))
  | .enQueue _ _ => inferInstanceAs (Decidable (_ < _))
  | .produce _ | .post _ | .await _ | .decrement _ | .deQueue _ => isTrue trivial

theorem process_queue_safe_turns : ∃ s : State (Fin 3) ℕ,
    Reaches step Exclusive State.init s ∧ s.dequeued = [(1, 5), (2, 6)] ∧ Safe s := by
  have h : (execute step Exclusive (State.init : State (Fin 3) ℕ) [.enQueue 0 5, .produce 0,
      .post 0, .test 1, .decrement 1, .enQueue 0 6, .deQueue 1, .produce 0, .post 0, .test 2,
      .decrement 2, .deQueue 2]).map State.dequeued = some [(1, 5), (2, 6)] := rfl
  obtain ⟨s, hs, hd⟩ := reaches_of_execute_map h
  exact ⟨s, hs, hd, process_queue_safe hs⟩

/-- Two consumers pass the test on one event. The counter goes from zero to `2 ^ 32 - 1`, and the
second `DeQueue` throws. -/
theorem two_consumers_fail : ∃ s : State (Fin 3) ℕ, Reaches step Free State.init s ∧
    s.events = 2 ^ 32 - 1 ∧ s.increments < s.decrements ∧ s.pc 2 = .failed .emptyQueue := by
  have h : (execute step Free (State.init : State (Fin 3) ℕ) [.enQueue 0 5, .produce 0, .post 0,
      .test 1, .test 2, .decrement 1, .decrement 2, .deQueue 1, .deQueue 2]).map
      (fun s => (s.events, s.increments, s.decrements, s.pc 2))
      = some (2 ^ 32 - 1, 1, 2, .failed .emptyQueue) := rfl
  obtain ⟨s, hs, hv⟩ := reaches_of_execute_map h
  simp only [Prod.mk.injEq] at hv
  obtain ⟨he, hi, hd, hp⟩ := hv
  exact ⟨s, hs, he, by omega, hp⟩

end Safety

end Xty.Queues.ProcessQueue
