import Xty.General.SpinLock

/-! `Create` and `Destroy` of `xtyError`, `xtyLog`, `xtyPool`, `xtySharedPool` and `xtyConfParse`,
which test the pointer to their only object before and after they take the lock. -/

namespace Xty.Facility.Singletons

open Xty.General.Programs Xty.General.Runs Xty.General.SpinLock

/-- The pointer, and the objects that exist. The objects are numbered as they are made, and `gone`
are those that have been destructed. -/
structure Singleton where
  pointer : Option ℕ
  alive : List ℕ
  gone : List ℕ
  made : ℕ
deriving DecidableEq, Repr

inductive Call where
  | create
  | destroy
deriving DecidableEq, Repr

inductive Point where
  | testNull
  | construct
  | store (p : ℕ)
  | constructed (p : ℕ)
  | present
  | testPresent
  | load
  | destruct (p : ℕ)
  | clear (p : ℕ)
  | destructed (p : ℕ)
  | absent
deriving DecidableEq, Repr

inductive Outcome where
  | constructed (p : ℕ)
  | present
  | destructed (p : ℕ)
  | absent
deriving DecidableEq, Repr

section Points

def initial : Singleton := ⟨none, [], [], 0⟩

def Point.access : Point → Program Singleton Point
  | testNull => fun s => some (if s.pointer = none then construct else present, s)
  | construct => fun s =>
    some (store s.made, { s with alive := s.alive ++ [s.made], made := s.made + 1 })
  | store p => fun s => some (constructed p, { s with pointer := some p })
  | testPresent => fun s => some (if s.pointer = none then absent else load, s)
  | load => fun s => s.pointer.map fun p => (destruct p, s)
  -- an object that does not exist cannot be destructed
  | destruct p => fun s =>
    if p ∈ s.alive then some (clear p, { s with alive := s.alive.erase p, gone := s.gone ++ [p] })
    else none
  | clear p => fun s => some (destructed p, { s with pointer := none })
  | constructed _ | present | destructed _ | absent => fun _ => none

def Point.outcome : Point → Option Outcome
  | constructed p => some (.constructed p)
  | present => some .present
  | destructed p => some (.destructed p)
  | absent => some .absent
  | _ => none

def Point.rank : Point → ℕ
  | constructed _ | present | destructed _ | absent => 0
  | store _ | clear _ => 1
  | construct | destruct _ => 2
  | testNull | load => 3
  | testPresent => 4

lemma Point.rank_access (l : Point) (s : Singleton) (l' : Point) (s' : Singleton)
    (h : l.access s = some (l', s')) : l'.rank < l.rank := by
  cases l with
  | constructed | present | destructed | absent => cases h
  | testNull | testPresent =>
    obtain ⟨rfl, rfl⟩ := Prod.mk.inj (Option.some.inj h)
    split_ifs <;> simp [rank]
  | construct | store | clear =>
    obtain ⟨rfl, rfl⟩ := Prod.mk.inj (Option.some.inj h)
    simp [rank]
  | load =>
    obtain ⟨p, _, hp⟩ := Option.map_eq_some_iff.mp h
    obtain ⟨rfl, rfl⟩ := Prod.mk.inj hp
    simp [rank]
  | destruct p =>
    change (if p ∈ s.alive then _ else none) = _ at h
    split_ifs at h
    obtain ⟨rfl, rfl⟩ := Prod.mk.inj (Option.some.inj h)
    simp [rank]

def code : Code Singleton Point Call Outcome where
  entry
    | .create => .testNull
    | .destroy => .testPresent
  access := Point.access
  outcome := Point.outcome
  releases _ := true
  rank := Point.rank
  rank_access := Point.rank_access

end Points

section Protection

/-- Objects are made and destructed in turn, and the pointer leads to the one that exists. -/
structure Settled (s : Singleton) : Prop where
  pointer : s.alive = s.pointer.toList
  inTurn : s.gone ++ s.alive = List.range s.made

def Halfway : Point → Singleton → Prop
  | .construct, s => Settled s ∧ s.pointer = none
  | .store p, s => s.pointer = none ∧ s.alive = [p] ∧ s.gone ++ [p] = List.range s.made
  | .load, s => Settled s ∧ s.pointer ≠ none
  | .destruct p, s => Settled s ∧ s.pointer = some p
  | .clear p, s => s.pointer = some p ∧ s.alive = [] ∧ s.gone = List.range s.made
  | _, s => Settled s

lemma settled_initial : Settled initial := ⟨rfl, rfl⟩

lemma code_protects : code.Protects Settled Halfway where
  entry o s h := by cases o <;> exact h
  leave l s a h ha := by
    cases l with
    | constructed | present | destructed | absent => exact h
    | _ => cases ha
  access l s l' s' h ha := by
    cases l with
    | constructed | present | destructed | absent => cases ha
    | testNull | testPresent =>
      obtain ⟨rfl, rfl⟩ := Prod.mk.inj (Option.some.inj ha)
      split_ifs with hp
      · first | exact ⟨h, hp⟩ | exact h
      · first | exact ⟨h, hp⟩ | exact h
    | construct =>
      obtain ⟨rfl, rfl⟩ := Prod.mk.inj (Option.some.inj ha)
      obtain ⟨⟨halive, hturn⟩, hp⟩ := h
      have hnil : s.alive = [] := by simp [halive, hp]
      rw [hnil, List.append_nil] at hturn
      exact ⟨hp, by simp [hnil], by simp [hturn, List.range_succ]⟩
    | store p =>
      obtain ⟨rfl, rfl⟩ := Prod.mk.inj (Option.some.inj ha)
      obtain ⟨_, halive, hturn⟩ := h
      exact ⟨halive, halive ▸ hturn⟩
    | load =>
      obtain ⟨p, hp, he⟩ := Option.map_eq_some_iff.mp ha
      obtain ⟨rfl, rfl⟩ := Prod.mk.inj he
      exact ⟨h.1, hp⟩
    | destruct p =>
      change (if p ∈ s.alive then _ else none) = _ at ha
      split_ifs at ha
      obtain ⟨rfl, rfl⟩ := Prod.mk.inj (Option.some.inj ha)
      obtain ⟨⟨halive, hturn⟩, hp⟩ := h
      have hsingle : s.alive = [p] := by simp [halive, hp]
      rw [hsingle] at hturn
      exact ⟨hp, by simp [hsingle], hturn⟩
    | clear p =>
      obtain ⟨rfl, rfl⟩ := Prod.mk.inj (Option.some.inj ha)
      obtain ⟨_, halive, hturn⟩ := h
      exact ⟨halive, by simp [halive, hturn]⟩

end Protection

section History

inductive Effect where
  | constructed (p : ℕ)
  | destructed (p : ℕ)
deriving DecidableEq, Repr

def effects : List (Call × Outcome) → List Effect :=
  List.filterMap fun c =>
    match c.2 with
    | .constructed p => some (.constructed p)
    | .destructed p => some (.destructed p)
    | .present | .absent => none

/-- The effects that calls one after the other have when they have left these objects. -/
def alternating (s : Singleton) : List Effect :=
  (s.gone.flatMap fun p => [.constructed p, .destructed p]) ++ s.alive.map .constructed

variable {s t : Singleton} {g : List (Call × Outcome)}

lemma run_present {p : ℕ} (h : s.pointer = some p) :
    code.run .testNull s = some (.present, s) := by
  have htest : Point.access .testNull s = some (.present, s) :=
    congrArg (fun l => some (l, s)) (if_neg (by simp [h]))
  rw [Code.run_step rfl htest]
  exact Code.run_done rfl

lemma run_construct (h : s.pointer = none) : code.run .testNull s =
    some (.constructed s.made,
      { s with pointer := some s.made, alive := s.alive ++ [s.made], made := s.made + 1 }) := by
  have htest : Point.access .testNull s = some (.construct, s) :=
    congrArg (fun l => some (l, s)) (if_pos h)
  have hconstruct : Point.access .construct s =
      some (.store s.made, { s with alive := s.alive ++ [s.made], made := s.made + 1 }) := rfl
  rw [Code.run_step rfl htest, Code.run_step rfl hconstruct]
  exact (Code.run_step rfl rfl).trans (Code.run_done rfl)

lemma run_absent (h : s.pointer = none) : code.run .testPresent s = some (.absent, s) := by
  have htest : Point.access .testPresent s = some (.absent, s) :=
    congrArg (fun l => some (l, s)) (if_pos h)
  rw [Code.run_step rfl htest]
  exact Code.run_done rfl

lemma run_destruct {p : ℕ} (h : s.pointer = some p) (hp : p ∈ s.alive) :
    code.run .testPresent s = some (.destructed p,
      { s with pointer := none, alive := s.alive.erase p, gone := s.gone ++ [p] }) := by
  have htest : Point.access .testPresent s = some (.load, s) :=
    congrArg (fun l => some (l, s)) (if_neg (by simp [h]))
  have hload : Point.access .load s = some (.destruct p, s) :=
    congrArg (Option.map fun p => (Point.destruct p, s)) h
  have hdestruct : Point.access (.destruct p) s =
      some (.clear p, { s with alive := s.alive.erase p, gone := s.gone ++ [p] }) := if_pos hp
  rw [Code.run_step rfl htest, Code.run_step rfl hload, Code.run_step rfl hdestruct]
  exact (Code.run_step rfl rfl).trans (Code.run_done rfl)

lemma effects_append (g g' : List (Call × Outcome)) :
    effects (g ++ g') = effects g ++ effects g' := List.filterMap_append

lemma run_settled {o : Call} {a : Outcome} (hs : Settled s)
    (hr : code.run (code.entry o) s = some (a, t)) :
    Settled t ∧ alternating s ++ effects [(o, a)] = alternating t := by
  obtain ⟨halive, hturn⟩ := hs
  cases hp : s.pointer with
  | none =>
    have hnil : s.alive = [] := by simp [halive, hp]
    rw [hnil, List.append_nil] at hturn
    cases o with
    | create =>
      obtain ⟨rfl, rfl⟩ := Prod.mk.inj (Option.some.inj ((run_construct hp).symm.trans hr))
      exact ⟨⟨by simp [hnil], by simp [hnil, hturn, List.range_succ]⟩,
        by simp [alternating, effects, hnil]⟩
    | destroy =>
      obtain ⟨rfl, rfl⟩ := Prod.mk.inj (Option.some.inj ((run_absent hp).symm.trans hr))
      exact ⟨⟨halive, by simpa [hnil] using hturn⟩, by simp [effects]⟩
  | some p =>
    have hsingle : s.alive = [p] := by simp [halive, hp]
    rw [hsingle] at hturn
    cases o with
    | create =>
      obtain ⟨rfl, rfl⟩ := Prod.mk.inj (Option.some.inj ((run_present hp).symm.trans hr))
      exact ⟨⟨halive, hsingle ▸ hturn⟩, by simp [effects]⟩
    | destroy =>
      have hmem : p ∈ s.alive := by simp [hsingle]
      obtain ⟨rfl, rfl⟩ := Prod.mk.inj (Option.some.inj ((run_destruct hp hmem).symm.trans hr))
      exact ⟨⟨by simp [hsingle], by simpa [hsingle] using hturn⟩,
        by simp [alternating, effects, hsingle]⟩

lemma serial_settled (h : code.Serial s g t) (hs : Settled s) :
    Settled t ∧ alternating s ++ effects g = alternating t := by
  induction g generalizing s with
  | nil =>
    obtain rfl := h
    exact ⟨hs, List.append_nil _⟩
  | cons c g ih =>
    obtain ⟨o, a⟩ := c
    obtain ⟨u, hu, h⟩ := h
    have hstep := run_settled hs hu
    obtain ⟨ht, heff⟩ := ih h hstep.1
    refine ⟨ht, ?_⟩
    rw [← heff, ← hstep.2, List.append_assoc, ← effects_append]
    rfl

end History

section Safety

variable {ι : Type}

abbrev SingletonState (ι : Type) := State ι Singleton Point Call

lemma Halfway.cases {l : Point} {s : Singleton} (h : Halfway l s) : Settled s ∨
    (∃ p, l = .store p ∧ s.pointer = none ∧ s.alive = [p] ∧ s.gone ++ [p] = List.range s.made) ∨
      ∃ p, l = .clear p ∧ s.pointer = some p ∧ s.alive = [] ∧ s.gone = List.range s.made := by
  cases l with
  | store p => exact .inr (.inl ⟨p, rfl, h⟩)
  | clear p => exact .inr (.inr ⟨p, rfl, h⟩)
  | construct | load | destruct => exact .inl h.1
  | testNull | constructed | present | testPresent | destructed | absent => exact .inl h

lemma protected_cases {s : SingletonState ι} (h : Code.Protected Settled Halfway s) :
    Settled s.shared ∨
      (∃ i o p, s.pc i = .inside o (.store p) ∧ s.shared.pointer = none ∧ s.shared.alive = [p] ∧
        s.shared.gone ++ [p] = List.range s.shared.made) ∨
      ∃ i o p, s.pc i = .inside o (.clear p) ∧ s.shared.pointer = some p ∧ s.shared.alive = [] ∧
        s.shared.gone = List.range s.shared.made := by
  by_cases hin : ∀ i o l, s.pc i ≠ .inside o l
  · exact .inl (h.elsewhere hin)
  · push Not at hin
    obtain ⟨i, o, l, hi⟩ := hin
    rcases (h.inside i o l hi).cases with hs | ⟨p, rfl, hs⟩ | ⟨p, rfl, hs⟩
    · exact .inl hs
    · exact .inr (.inl ⟨i, o, p, hi, hs⟩)
    · exact .inr (.inr ⟨i, o, p, hi, hs⟩)

lemma run_total {s : Singleton} (h : Settled s) (o : Call) :
    code.run (code.entry o) s ≠ none := by
  cases hp : s.pointer with
  | none =>
    cases o with
    | create => exact ne_of_eq_of_ne (run_construct hp) (by simp)
    | destroy => exact ne_of_eq_of_ne (run_absent hp) (by simp)
  | some p =>
    cases o with
    | create => exact ne_of_eq_of_ne (run_present hp) (by simp)
    | destroy => exact ne_of_eq_of_ne (run_destruct hp (by simp [h.pointer, hp])) (by simp)

variable [DecidableEq ι]

/-- A call takes the lock only after its first test, which it makes without the lock. -/
def Tested (s : SingletonState ι) : Action ι Call → Prop
  | .lock _ .create => s.shared.pointer = none
  | .lock _ .destroy => s.shared.pointer ≠ none
  | .tryLock _ _ => False
  | _ => True

/-- There is never more than one object, and each is constructed once and destructed at most once.
The pointer is null or leads to the object, unless a thread is at `construct` or `clear`. -/
structure Sound (s : SingletonState ι) (g : List (Call × Outcome)) : Prop where
  single : s.shared.alive.length ≤ 1
  once : s.shared.gone ++ s.shared.alive = List.range s.shared.made
  settled : s.word = 0 → s.shared.alive = s.shared.pointer.toList
  effects : s.word = 0 → effects g = alternating s.shared
  dangling : ∀ p, s.shared.pointer = some p → p ∉ s.shared.alive →
    ∃ i o, s.pc i = .inside o (.clear p)
  unpublished : ∀ p ∈ s.shared.alive, s.shared.pointer = none →
    ∃ i o, s.pc i = .inside o (.store p)
  running : ∀ i o l, s.pc i = .inside o l →
    (code.step s (.access i)).isSome ∨ (code.step s (.unLock i)).isSome

theorem singleton_sound {s : SingletonState ι} {g : List (Call × Outcome)}
    (h : Observed code.step code.record Tested (State.init initial, []) (s, g)) : Sound s g := by
  obtain ⟨hlaw, hprot⟩ := Code.protected_of_observed code_protects settled_initial h
  have hcases := protected_cases hprot
  refine ⟨?_, ?_, fun hword => (hprot.of_free hlaw hword).pointer, fun hword => ?_,
    fun p hp hdead => ?_, fun p hp hnull => ?_, fun i o l hi => ?_⟩
  · rcases hcases with hs | ⟨_, _, p, _, _, halive, _⟩ | ⟨_, _, p, _, _, halive, _⟩
    · rw [hs.pointer]
      cases s.shared.pointer <;> simp
    · simp [halive]
    · simp [halive]
  · rcases hcases with hs | ⟨_, _, p, _, _, halive, hturn⟩ | ⟨_, _, p, _, _, halive, hturn⟩
    · exact hs.inTurn
    · rw [halive, hturn]
    · rw [halive, hturn, List.append_nil]
  · have heff := (serial_settled (hlaw.of_free hword).1 settled_initial).2
    simpa [alternating, initial] using heff
  · rcases hcases with hs | ⟨_, _, _, _, hnull, _⟩ | ⟨i, o, q, hi, hq, _⟩
    · exact absurd (by simp [hs.pointer, hp]) hdead
    · rw [hnull] at hp
      cases hp
    · obtain rfl := Option.some.inj (hq.symm.trans hp)
      exact ⟨i, o, hi⟩
  · rcases hcases with hs | ⟨i, o, q, hi, _, halive, _⟩ | ⟨_, _, q, _, hq, _⟩
    · simp [hs.pointer, hnull] at hp
    · rw [halive, List.mem_singleton] at hp
      exact ⟨i, o, hp ▸ hi⟩
    · rw [hnull] at hq
      cases hq
  · exact hlaw.progress hi fun t ht => run_total (serial_settled ht settled_initial).1 o

instance (s : SingletonState ι) : (a : Action ι Call) → Decidable (Tested s a)
  | .lock _ .create => inferInstanceAs (Decidable (_ = _))
  | .lock _ .destroy => inferInstanceAs (Decidable (_ ≠ _))
  | .tryLock _ _ => isFalse id
  | .compareAndSwap _ | .access _ | .unLock _ => isTrue trivial

/-- Two threads pass the first test, and only one constructs. A third destructs the object while
the pointer still leads to it. -/
theorem singleton_sound_three : ∃ (s : SingletonState (Fin 3)) (g : List (Call × Outcome)),
    Observed code.step code.record Tested (State.init initial, []) (s, g) ∧
      g = [(.create, .constructed 0), (.create, .present)] ∧ s.shared = ⟨some 0, [], [0], 1⟩ ∧
        Sound s g := by
  have h : (execute (observe code.step code.record) (fun x a => Tested x.1 a)
      ((State.init initial, []) : SingletonState (Fin 3) × List (Call × Outcome))
      [.lock 0 .create, .lock 1 .create, .compareAndSwap 1, .access 1, .compareAndSwap 0,
        .access 1, .access 1, .unLock 1, .compareAndSwap 0, .access 0, .unLock 0,
        .lock 2 .destroy, .compareAndSwap 2, .access 2, .access 2, .access 2]).map
      (fun x => (x.2, x.1.shared)) =
        some ([(.create, .constructed 0), (.create, .present)], ⟨some 0, [], [0], 1⟩) := by
    decide
  obtain ⟨⟨s, g⟩, hs, hv⟩ := reaches_of_execute_map h
  obtain ⟨rfl, hshared⟩ := Prod.mk.inj hv
  exact ⟨s, _, hs, rfl, hshared, singleton_sound hs⟩

end Safety

end Xty.Facility.Singletons
