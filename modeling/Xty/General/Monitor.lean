import Xty.General.Counting
import Xty.General.Runs

/-! Threads that take the units of a resource under a lock, and wait for a signal as long as there
is none. The thread that has given a unit back sends its signal without the lock. -/

namespace Xty.General.Monitor

open Xty.General.Counting Xty.General.Runs

/-- A thread that has been `woken` waits for the lock, and is `testing true` when it has it. -/
inductive Pc where
  | outside
  | testing (again : Bool)
  | taken
  | asleep
  | woken
  | giving
  | given
  | signalling
deriving DecidableEq, Repr

structure Resource (R γ δ : Type) where
  units : R → ℕ
  take : R → Option R
  give : R → γ → R
  /-- What a thread does to the resource without the lock. -/
  alter : R → δ → R
  take_none : ∀ r, take r = none → units r = 0
  take_some : ∀ r t, take r = some t → units t + 1 = units r
  give_le : ∀ r x, units (give r x) ≤ units r + 1
  alter_eq : ∀ r x, units (alter r x) = units r

structure MonitorState (ι R : Type) where
  resource : R
  lock : Option ι
  pc : ι → Pc

inductive Action (ι γ δ : Type) where
  | beginTake (i : ι)
  | test (i : ι)
  | wake (i : ι)
  | relock (i : ι)
  | beginGive (i : ι)
  | give (i : ι) (x : γ)
  | unlock (i : ι)
  | signal (i : ι) (j : Option ι)
  | alter (x : δ)

variable {ι R γ δ : Type}

def MonitorState.init (r : R) : MonitorState ι R := ⟨r, none, fun _ => .outside⟩

section Steps

variable [DecidableEq ι]

def MonitorState.goto (s : MonitorState ι R) (i : ι) (c : Pc) : MonitorState ι R :=
  { s with pc := Function.update s.pc i c }

def MonitorState.enter (s : MonitorState ι R) (i : ι) (c : Pc) : MonitorState ι R :=
  { s.goto i c with lock := some i }

def MonitorState.leave (s : MonitorState ι R) (i : ι) (c : Pc) : MonitorState ι R :=
  { s.goto i c with lock := none }

@[simp] lemma goto_resource (s : MonitorState ι R) (i : ι) (c : Pc) :
    (s.goto i c).resource = s.resource :=
  rfl

lemma asleep_goto {s : MonitorState ι R} {i : ι} {b : Pc} (hb : b ≠ .asleep)
    (h : ∃ j, (s.goto i b).pc j = .asleep) : ∃ j, s.pc j = .asleep := by
  obtain ⟨j, hj⟩ := h
  by_cases hij : j = i
  · subst hij
    simp [MonitorState.goto, hb] at hj
  · simp only [MonitorState.goto, Function.update_of_ne hij] at hj
    exact ⟨j, hj⟩

variable [Fintype ι]

/-- A signal wakes one of the threads that are asleep, if there is one. -/
def Resource.step (M : Resource R γ δ) (s : MonitorState ι R) :
    Action ι γ δ → Option (MonitorState ι R)
  | .beginTake i =>
    if s.pc i = .outside ∧ s.lock = none then some (s.enter i (.testing false)) else none
  | .test i =>
    if s.pc i = .testing false ∨ s.pc i = .testing true then
      match M.take s.resource with
      | some r => some { s.goto i .taken with resource := r }
      | none => some (s.leave i .asleep)
    else none
  | .wake i => if s.pc i = .asleep then some (s.goto i .woken) else none
  | .relock i => if s.pc i = .woken ∧ s.lock = none then some (s.enter i (.testing true)) else none
  | .beginGive i => if s.pc i = .outside ∧ s.lock = none then some (s.enter i .giving) else none
  | .give i x =>
    if s.pc i = .giving then some { s.goto i .given with resource := M.give s.resource x } else none
  | .unlock i =>
    if s.pc i = .taken then some (s.leave i .outside)
    else if s.pc i = .given then some (s.leave i .signalling)
    else none
  | .signal i (some j) =>
    if s.pc i = .signalling ∧ s.pc j = .asleep then some ((s.goto i .outside).goto j .woken)
    else none
  | .signal i none =>
    if s.pc i = .signalling ∧ ∀ j, s.pc j ≠ .asleep then some (s.goto i .outside) else none
  | .alter x => some { s with resource := M.alter s.resource x }

end Steps

def Pc.weight (c : Pc) : ℕ :=
  (if c = .given then 1 else 0) + (if c = .signalling then 1 else 0) +
    (if c = .woken then 1 else 0) + if c = .testing true then 1 else 0

variable [Fintype ι]

def MonitorState.signalsDue (s : MonitorState ι R) : ℕ := count .given s.pc + count .signalling s.pc

def MonitorState.notRetested (s : MonitorState ι R) : ℕ :=
  count .woken s.pc + count (.testing true) s.pc

def Resource.NoneLost (M : Resource R γ δ) (s : MonitorState ι R) : Prop :=
  (∃ i, s.pc i = .asleep) → M.units s.resource ≤ s.signalsDue + s.notRetested

section Invariant

variable [DecidableEq ι] {M : Resource R γ δ} {s t : MonitorState ι R} {i j : ι} {a b : Pc} {r : R}

lemma due_goto (s : MonitorState ι R) (i : ι) (b : Pc) :
    (s.goto i b).signalsDue + (s.goto i b).notRetested + (s.pc i).weight
      = s.signalsDue + s.notRetested + b.weight := by
  have h := fun c => count_update c b s.pc i
  have h₁ := h .given
  have h₂ := h .signalling
  have h₃ := h .woken
  have h₄ := h (.testing true)
  simp only [MonitorState.signalsDue, MonitorState.notRetested, MonitorState.goto, Pc.weight]
  omega

lemma NoneLost.move (h : M.NoneLost s) (l : Option ι) (hb : b ≠ .asleep)
    (hr : M.units r + (s.pc i).weight ≤ M.units s.resource + b.weight) :
    M.NoneLost ⟨r, l, (s.goto i b).pc⟩ := by
  intro hs
  have hold := h (asleep_goto hb hs)
  have hdue := due_goto s i b
  change M.units r ≤ (s.goto i b).signalsDue + (s.goto i b).notRetested
  omega

lemma NoneLost.sleep (hr : M.units s.resource = 0) : M.NoneLost (s.leave i .asleep) := fun _ =>
  hr.trans_le (Nat.zero_le _)

lemma NoneLost.signal (h : M.NoneLost s) (hi : s.pc i = .signalling) (hj : s.pc j = .asleep) :
    M.NoneLost ((s.goto i .outside).goto j .woken) := by
  intro _
  have hold := h ⟨j, hj⟩
  have hij : j ≠ i := by
    rintro rfl
    rw [hi] at hj
    cases hj
  have hfirst := due_goto s i .outside
  have hsecond := due_goto (s.goto i .outside) j .woken
  have hj' : (s.goto i .outside).pc j = .asleep := (Function.update_of_ne hij _ _).trans hj
  rw [hi] at hfirst
  rw [hj'] at hsecond
  simp [Pc.weight] at hfirst hsecond
  change M.units s.resource ≤ _
  omega

lemma NoneLost.step {x : Action ι γ δ} (h : M.NoneLost s) (hs : M.step s x = some t) :
    M.NoneLost t := by
  cases x with
  | beginTake i =>
    rw [Resource.step] at hs
    split_ifs at hs with hi
    obtain rfl := Option.some.inj hs
    exact NoneLost.move h (some i) (by simp) (by simp [hi.1, Pc.weight])
  | test i =>
    rw [Resource.step] at hs
    split_ifs at hs with hi
    cases htake : M.take s.resource with
    | none =>
      rw [htake] at hs
      obtain rfl := Option.some.inj hs
      exact NoneLost.sleep (M.take_none _ htake)
    | some r =>
      rw [htake] at hs
      obtain rfl := Option.some.inj hs
      have hunits := M.take_some _ _ htake
      refine NoneLost.move h s.lock (by simp) ?_
      rcases hi with hi | hi <;> simp [hi, Pc.weight] <;> omega
  | wake i =>
    rw [Resource.step] at hs
    split_ifs at hs with hi
    obtain rfl := Option.some.inj hs
    exact NoneLost.move h s.lock (by simp) (by simp [hi, Pc.weight])
  | relock i =>
    rw [Resource.step] at hs
    split_ifs at hs with hi
    obtain rfl := Option.some.inj hs
    exact NoneLost.move h (some i) (by simp) (by simp [hi.1, Pc.weight])
  | beginGive i =>
    rw [Resource.step] at hs
    split_ifs at hs with hi
    obtain rfl := Option.some.inj hs
    exact NoneLost.move h (some i) (by simp) (by simp [hi.1, Pc.weight])
  | give i y =>
    rw [Resource.step] at hs
    split_ifs at hs with hi
    obtain rfl := Option.some.inj hs
    refine NoneLost.move h s.lock (by simp) ?_
    simpa [hi, Pc.weight] using M.give_le s.resource y
  | unlock i =>
    rw [Resource.step] at hs
    split_ifs at hs with hi hi
    · obtain rfl := Option.some.inj hs
      exact NoneLost.move h none (by simp) (by simp [hi, Pc.weight])
    · obtain rfl := Option.some.inj hs
      exact NoneLost.move h none (by simp) (by simp [hi, Pc.weight])
  | signal i j =>
    cases j with
    | some j =>
      rw [Resource.step] at hs
      split_ifs at hs with hi
      obtain rfl := Option.some.inj hs
      exact NoneLost.signal h hi.1 hi.2
    | none =>
      rw [Resource.step] at hs
      split_ifs at hs with hi
      obtain rfl := Option.some.inj hs
      intro hsleep
      obtain ⟨j, hj⟩ := asleep_goto (by simp) hsleep
      exact absurd hj (hi.2 j)
  | alter y =>
    obtain rfl := Option.some.inj hs
    intro hsleep
    exact (M.alter_eq _ _).trans_le (h hsleep)

lemma noneLost_of_reaches (h : Reaches M.step Free (MonitorState.init r) s) : M.NoneLost s := by
  refine Reaches.invariant h ?_ fun _ _ _ hs _ hstep => NoneLost.step hs hstep
  rintro ⟨i, hi⟩
  cases hi

end Invariant

end Xty.General.Monitor
