import Xty.General.SpinLock
import Xty.Queues.LinkedQueue

/-! `EnQueue` and `DeQueue` under the lock of a message queue, one access to the queue at a time. -/

namespace Xty.Queues.LockedQueue

open Xty.General.Programs Xty.General.Runs Xty.General.SpinLock Xty.Queues.Linked

variable {T : Type}

section Points

inductive Call (T : Type) where
  | enQueue (v : T)
  | deQueue
deriving DecidableEq, Repr

def Call.operation : Call T → Operation T
  | .enQueue v => .enQueue v
  | .deQueue => .deQueue

/-- The next access of a thread in `EnQueue` or `DeQueue`, with the local variables that are still
needed. -/
inductive Point (T : Type) where
  | allocate (v : T)
  | readLast (node : Ptr)
  | writePrev (node last : Ptr)
  | writeNext (node : Ptr)
  | readLastAgain (node : Ptr)
  | linkLast (node last : Ptr)
  | linkSentinel (node : Ptr)
  | readCount
  | writeCount (n : UInt32)
  | enQueued
  | testCount
  | readFirst
  | readSecond (node : Ptr)
  | linkFirst (node second : Ptr)
  | readSecondAgain (node : Ptr)
  | linkSecond (node second : Ptr)
  | clearPrev (node : Ptr)
  | clearNext (node : Ptr)
  | readData (node : Ptr)
  | destroy (node : Ptr) (v : T)
  | readCountDown (v : T)
  | writeCountDown (v : T) (n : UInt32)
  | deQueued (v : T)
  | threw (f : Fault)
deriving DecidableEq, Repr

namespace Point

def access : Point T → QueueProgram T (Point T)
  | allocate v => do return readLast (← Linked.allocate v)
  | readLast node => do return writePrev node (← getPrev .sentinel)
  | writePrev node last => do
    setPrev node last
    return writeNext node
  | writeNext node => do
    setNext node .sentinel
    return readLastAgain node
  | readLastAgain node => do return linkLast node (← getPrev .sentinel)
  | linkLast node last => do
    setNext last node
    return linkSentinel node
  | linkSentinel node => do
    setPrev .sentinel node
    return readCount
  | readCount => do return writeCount (← getCount)
  | writeCount n => do
    setCount (n + 1)
    return enQueued
  | testCount => do if (← getCount) = 0 then return threw .emptyQueue else return readFirst
  | readFirst => do return readSecond (← getNext .sentinel)
  | readSecond node => do return linkFirst node (← getNext node)
  | linkFirst node second => do
    setNext .sentinel second
    return readSecondAgain node
  | readSecondAgain node => do return linkSecond node (← getNext node)
  | linkSecond node second => do
    setPrev second .sentinel
    return clearPrev node
  | clearPrev node => do
    setPrev node .null
    return clearNext node
  | clearNext node => do
    setNext node .null
    return readData node
  | readData node => do return destroy node (← getData node)
  | destroy node v => do
    Linked.destroy node
    return readCountDown v
  | readCountDown v => do return writeCountDown v (← getCount)
  | writeCountDown v n => do
    setCount (n - 1)
    return deQueued v
  | enQueued | deQueued _ | threw _ => fun _ => none

def outcome : Point T → Option (Outcome T)
  | enQueued => some .done
  | deQueued v => some (.returned v)
  | threw f => some (.threw f)
  | _ => none

def rank : Point T → ℕ
  | enQueued | deQueued _ | threw _ => 0
  | writeCount _ | writeCountDown .. => 1
  | readCount | readCountDown _ => 2
  | linkSentinel _ | destroy .. => 3
  | linkLast .. | readData _ => 4
  | readLastAgain _ | clearNext _ => 5
  | writeNext _ | clearPrev _ => 6
  | writePrev .. | linkSecond .. => 7
  | readLast _ | readSecondAgain _ => 8
  | allocate _ | linkFirst .. => 9
  | readSecond _ => 10
  | readFirst => 11
  | testCount => 12

lemma rank_access (l : Point T) (q : LinkedQueue T) (l' : Point T) (q' : LinkedQueue T)
    (h : l.access q = some (l', q')) : l'.rank < l.rank := by
  cases l with
  | testCount =>
    simp only [access, getCount, bind_apply, Option.bind_some] at h
    split_ifs at h <;> obtain ⟨rfl, _⟩ := Prod.mk.inj (Option.some.inj h) <;> simp [rank]
  | enQueued | deQueued | threw => cases h
  | _ =>
    rw [access, bind_apply] at h
    obtain ⟨_, _, h⟩ := Option.bind_eq_some_iff.mp h
    obtain ⟨rfl, _⟩ := Prod.mk.inj (Option.some.inj h)
    simp [rank]

end Point

/-- `PushMsg` and `PopMsg` unlock after a call that returns. The exception of `DeQueue` passes the
`UnLock` by. -/
def code : Code (LinkedQueue T) (Point T) (Call T) (Outcome T) where
  entry
    | .enQueue v => .allocate v
    | .deQueue => .testCount
  access := Point.access
  outcome := Point.outcome
  releases
    | .done | .returned _ => true
    | .threw _ => false
  rank := Point.rank
  rank_access := Point.rank_access

lemma run_congr {α : Type} {l : Point T} {m : QueueProgram T α} {f : α → Point T}
    {k : α → QueueProgram T (Outcome T)} (ha : l.access = m >>= fun a => pure (f a))
    (ho : l.outcome = none) (h : ∀ a, code.run (f a) = k a) : code.run l = m >>= k := by
  rw [Code.run_access ho]
  change l.access >>= code.run = _
  rw [ha, bind_assoc]
  exact bind_congr fun a => (pure_bind _ _).trans (h a)

lemma run_enQueue (v : T) : code.run (.allocate v) = (Operation.enQueue v).run := by
  rw [Operation.run, enQueue]
  simp only [bind_assoc]
  refine run_congr rfl rfl fun node => ?_
  refine run_congr rfl rfl fun last => ?_
  refine run_congr rfl rfl fun _ => ?_
  refine run_congr rfl rfl fun _ => ?_
  refine run_congr rfl rfl fun last => ?_
  refine run_congr rfl rfl fun _ => ?_
  refine run_congr rfl rfl fun _ => ?_
  refine run_congr rfl rfl fun count => ?_
  refine run_congr rfl rfl fun _ => ?_
  exact Code.run_over rfl

lemma run_deQueue : code.run (.testCount : Point T) = Operation.deQueue.run := by
  rw [Operation.run, deQueue, Code.run_access rfl]
  change (getCount >>= fun n => if n = 0 then _ else _) >>= _ = _
  rw [bind_assoc, bind_assoc]
  refine bind_congr fun count => ?_
  split_ifs
  · rw [pure_bind, pure_bind]
    exact Code.run_over rfl
  · simp only [pure_bind, bind_assoc]
    refine run_congr rfl rfl fun node => ?_
    refine run_congr rfl rfl fun second => ?_
    refine run_congr rfl rfl fun _ => ?_
    refine run_congr rfl rfl fun second => ?_
    refine run_congr rfl rfl fun _ => ?_
    refine run_congr rfl rfl fun _ => ?_
    refine run_congr rfl rfl fun _ => ?_
    refine run_congr rfl rfl fun value => ?_
    refine run_congr rfl rfl fun _ => ?_
    refine run_congr rfl rfl fun count => ?_
    refine run_congr rfl rfl fun _ => ?_
    exact Code.run_over rfl

lemma run_entry (c : Call T) : code.run (code.entry c) = c.operation.run := by
  cases c with
  | enQueue v => exact run_enQueue v
  | deQueue => exact run_deQueue

end Points

section History

abbrev History (T : Type) := List (Call T × Outcome T)

abbrev LockedState (ι T : Type) := State ι (LinkedQueue T) (Point T) (Call T)

def History.operations (g : History T) : List (Operation T) := g.map fun c => c.1.operation

def History.outcomes (g : History T) : List (Outcome T) := g.map Prod.snd

variable {g : History T} {s t : LinkedQueue T}

lemma runAll_of_serial (h : code.Serial s g t) : runAll g.operations s = some (g.outcomes, t) := by
  induction g generalizing s with
  | nil =>
    obtain rfl := h
    rfl
  | cons c g ih =>
    obtain ⟨o, a⟩ := c
    obtain ⟨u, hu, h⟩ := h
    rw [run_entry] at hu
    apply Yields.run_eq
    exact Yields.step hu (Yields.step (ih h) (Yields.pure ⟨rfl, rfl⟩))

lemma shows_of_serial [Inhabited T] (h : code.Serial create g t) (hfits : Fits g.operations []) :
    g.outcomes = (allOnList g.operations []).1 ∧ ∃ cells, Shows t cells ∧
      cells.length < 2 ^ 32 ∧ cells.map Prod.snd = (allOnList g.operations []).2 := by
  obtain ⟨outs, q, hrun, houts, hshows⟩ := runAll_spec g.operations create_shows hfits
  obtain ⟨rfl, rfl⟩ := Prod.mk.inj (Option.some.inj ((runAll_of_serial h).symm.trans hrun))
  exact ⟨houts, hshows⟩

end History

section Atomicity

variable {ι : Type} [DecidableEq ι]

/-- One thread at a time is in the queue, the calls that have ended did one after the other what a
list does, in the order in which they gave up the lock, and a call that has the lock goes on. After
an exception the lock is never free again and no call ends. -/
structure Atomic (equal : T → T → Bool) (s : LockedState ι T) (g : History T) : Prop where
  exclusive : ∀ i j, (s.pc i).holds = true → (s.pc j).holds = true → i = j
  word : s.word = 0 ↔ ∀ i, (s.pc i).holds = false
  outcomes : g.outcomes = (allOnList g.operations []).1
  refines : s.word = 0 → ∃ cells, Refines equal s.shared cells ∧
    cells.map Prod.snd = (allOnList g.operations []).2
  running : ∀ i o l, s.pc i = .inside o l →
    (code.step s (.access i)).isSome ∨ (code.step s (.unLock i)).isSome
  lost : (∃ i, s.pc i = .gone) ↔ ∃ f, .threw f ∈ g.outcomes
  forEver : (∃ f, .threw f ∈ g.outcomes) → ∀ s' g',
    Observed code.step code.record Free (s, g) (s', g') →
      s'.word = 1 ∧ s'.shared = s.shared ∧ g' = g

lemma threw_iff (g : History T) :
    (∃ c ∈ g, code.releases c.2 = false) ↔ ∃ f, .threw f ∈ g.outcomes := by
  rw [History.outcomes]
  constructor
  · rintro ⟨⟨o, a⟩, hc, hrel⟩
    cases a with
    | done | returned => cases hrel
    | threw f => exact ⟨f, List.mem_map.mpr ⟨_, hc, rfl⟩⟩
  · rintro ⟨f, hf⟩
    obtain ⟨c, hc, he⟩ := List.mem_map.mp hf
    exact ⟨c, hc, by rw [he]; rfl⟩

theorem locked_queue_atomic [Inhabited T] (equal : T → T → Bool) {s : LockedState ι T}
    {g : History T} (hfits : Fits g.operations [])
    (h : Observed code.step code.record Free (State.init create, []) (s, g)) :
    Atomic equal s g := by
  have hlaw := Code.lawful_of_observed h
  obtain ⟨t, hserial⟩ := hlaw.serial
  refine ⟨fun i j => hlaw.exclusive, hlaw.word_eq_zero_iff, (shows_of_serial hserial hfits).1,
    fun hword => ?_, fun i o l hi => ?_, ?_, fun hthrew s' g' hr => ?_⟩
  · obtain ⟨_, cells, hshows, hbound, hcells⟩ := shows_of_serial (hlaw.of_free hword).1 hfits
    exact ⟨cells, hshows.refines equal hbound, hcells⟩
  · refine hlaw.progress hi fun t ht => ?_
    obtain ⟨_, cells, hshows, hbound, _⟩ := shows_of_serial ht hfits
    obtain ⟨a, u, hrun, _⟩ := o.operation.run_spec hshows hbound
    rw [run_entry, hrun]
    simp
  · rw [hlaw.gone_iff, threw_iff]
  · rw [← threw_iff, ← hlaw.gone_iff] at hthrew
    obtain ⟨i, hi⟩ := hthrew
    exact hlaw.gone_for_ever hi hr

/-- The second thread spins while the first is in `EnQueue`, takes its message, and leaves the lock
behind when it comes back to an empty queue. -/
theorem locked_queue_atomic_abandoned : ∃ (s : LockedState (Fin 2) ℕ) (g : History ℕ),
    Observed code.step code.record Free (State.init create, []) (s, g) ∧
      g = [(.enQueue 5, .done), (.deQueue, .returned 5), (.deQueue, .threw .emptyQueue)] ∧
      s.pc 0 = .spinning (.enQueue 6) ∧ Atomic (fun a b => a == b) s g := by
  have h : (execute (observe code.step code.record) (fun _ _ => True)
      ((State.init create, []) : LockedState (Fin 2) ℕ × History ℕ)
      ([.lock 0 (.enQueue 5), .compareAndSwap 0, .lock 1 .deQueue, .access 0, .compareAndSwap 1] ++
        List.replicate 8 (.access 0) ++ [.unLock 0, .compareAndSwap 1] ++
        List.replicate 12 (.access 1) ++ [.unLock 1, .tryLock 1 .deQueue, .lock 0 (.enQueue 6),
          .access 1, .compareAndSwap 0, .unLock 1, .compareAndSwap 0])).map
      (fun x => (x.2, x.1.pc 0)) = some ([(.enQueue 5, .done), (.deQueue, .returned 5),
        (.deQueue, .threw .emptyQueue)], .spinning (.enQueue 6)) := by
    decide +kernel
  obtain ⟨⟨s, g⟩, hs, hv⟩ := reaches_of_execute_map h
  obtain ⟨rfl, hpc⟩ := Prod.mk.inj hv
  exact ⟨s, _, hs, rfl, hpc, locked_queue_atomic _ (by simp [Fits, History.operations,
    Call.operation, Operation.onList]) hs⟩

end Atomicity

end Xty.Queues.LockedQueue
