import Mathlib.Data.UInt
import Xty.General.Runs

/-! `xtyProcessEvent` and its `xtySemaphore`: any number of events with a producer and a consumer
each. A lock-protected section is one step, and so are an unlocked test and a semaphore
operation. -/

namespace Xty.Queues.ProcessEvent

open Xty.General.Runs

def semProjID : ℕ := 1
def semDefaultVal : ℕ := 0

/-- A token carries the event that it was posted for, which `semop` does not see. -/
structure Semaphore (ι : Type) where
  key : ℕ
  tokens : List (Option ι)

abbrev Semaphores (ι : Type) := List (Semaphore ι)

inductive Consumer where
  | idle
  | waiting
  | woken
  | tested
deriving DecidableEq, Repr

structure Event where
  events : UInt32
  semID : ℕ
  posting : Bool
  consumer : Consumer
deriving DecidableEq, Repr

structure State (ι : Type) where
  semaphores : Semaphores ι
  event : ι → Option Event

inductive Action (ι : Type) where
  | construct (i : ι)
  | produce (i : ι)
  | post (i : ι)
  | test (i : ι)
  | await (i : ι)
  | decrement (i : ι)

variable {ι : Type}

def Action.event : Action ι → ι
  | .construct i | .produce i | .post i | .test i | .await i | .decrement i => i

namespace Semaphores

def semget (K : Semaphores ι) (key : ℕ) : ℕ × Semaphores ι :=
  match K.findIdx? fun S => S.key = key with
  | some id => (id, K)
  | none => (K.length, K ++ [⟨key, []⟩])

def setval (K : Semaphores ι) (id v : ℕ) : Semaphores ι :=
  K.modify id fun S => { S with tokens := List.replicate v none }

def wakeUp (K : Semaphores ι) (id : ℕ) (i : ι) : Semaphores ι :=
  K.modify id fun S => { S with tokens := S.tokens ++ [some i] }

def wait (K : Semaphores ι) (id : ℕ) : Semaphores ι :=
  K.modify id fun S => { S with tokens := S.tokens.tail }

def tokens (K : Semaphores ι) (id : ℕ) : List (Option ι) := (K[id]?.map Semaphore.tokens).getD []

end Semaphores

def State.init (K : Semaphores ι) : State ι := ⟨K, fun _ => none⟩

section Model

variable [DecidableEq ι]

def State.set (s : State ι) (i : ι) (e : Event) : State ι :=
  { s with event := Function.update s.event i (some e) }

def construct (ftok : ℕ → ℕ) (s : State ι) (i : ι) : State ι :=
  let (id, K) := s.semaphores.semget (ftok semProjID)
  { s.set i ⟨0, id, false, .idle⟩ with semaphores := K.setval id semDefaultVal }

def operate (s : State ι) (e : Event) : Action ι → Option (State ι)
  | .construct _ => none
  | .produce i =>
    if e.posting = false then some (s.set i { e with events := e.events + 1, posting := true })
    else none
  | .post i =>
    if e.posting = true then
      some { s.set i { e with posting := false } with
        semaphores := s.semaphores.wakeUp e.semID i }
    else none
  | .test i =>
    if e.consumer = .idle ∨ e.consumer = .woken then
      some (s.set i { e with consumer := if e.events = 0 then .waiting else .tested })
    else none
  | .await i =>
    if e.consumer = .waiting ∧ s.semaphores.tokens e.semID ≠ [] then
      some { s.set i { e with consumer := .woken } with semaphores := s.semaphores.wait e.semID }
    else none
  | .decrement i =>
    if e.consumer = .tested then
      some (s.set i { e with events := e.events - 1, consumer := .idle })
    else none

def step (ftok : ℕ → ℕ) (s : State ι) (a : Action ι) : Option (State ι) :=
  match s.event a.event with
  | some e => operate s e a
  | none =>
    match a with
    | .construct i => some (construct ftok s i)
    | .produce _ | .post _ | .test _ | .await _ | .decrement _ => none

/-- A step on one event leaves what is possible on the others. -/
def Apart (ftok : ℕ → ℕ) (s : State ι) (a : Action ι) (t : State ι) : Prop :=
  ∀ b : Action ι, b.event ≠ a.event → ((step ftok s b).isSome ↔ (step ftok t b).isSome)

/-- A consumer that waits although there are events finds a token of its event, unless the
producer has still to post it. -/
def Passable (s : State ι) : Prop :=
  ∀ i e, s.event i = some e → e.events ≠ 0 → e.consumer = .waiting →
    some i ∈ s.semaphores.tokens e.semID ∨ e.posting = true

def Alone (s : State ι) : Action ι → Prop
  | .construct i => ∀ j, j ≠ i → s.event j = none
  | .produce _ | .post _ | .test _ | .await _ | .decrement _ => True

def NonInterfering (ftok : ℕ → ℕ) (C : State ι → Action ι → Prop) : Prop :=
  ∀ K s, Reaches (step ftok) C (State.init K) s →
    (∀ a t, C s a → step ftok s a = some t → Apart ftok s a t) ∧ Passable s

end Model

section Tokens

variable {K : Semaphores ι} {id : ℕ} {i : ι} {e : Event}

lemma tokens_modify (h : id < K.length) (f : List (Option ι) → List (Option ι)) :
    Semaphores.tokens (K.modify id fun S => { S with tokens := f S.tokens }) id
      = f (K.tokens id) := by
  simp [Semaphores.tokens, h]

lemma length_modify (f : Semaphore ι → Semaphore ι) : (K.modify id f).length = K.length :=
  List.length_modify _ _ _

lemma semget_lt (K : Semaphores ι) (key : ℕ) : (K.semget key).1 < (K.semget key).2.length := by
  rw [Semaphores.semget]
  split
  · next id hid => exact (List.findIdx?_eq_some_iff_getElem.mp hid).1
  · simp

/-- As long as the consumer waits, every event has its token, or will have it. -/
structure Sound (K : Semaphores ι) (i : ι) (e : Event) : Prop where
  room : e.semID < K.length
  own : ∀ x ∈ K.tokens e.semID, x = some i
  announced : e.consumer = .waiting →
    e.events.toNat ≤ (K.tokens e.semID).length + if e.posting = true then 1 else 0

lemma sound_construct (ftok : ℕ → ℕ) (K : Semaphores ι) (i : ι) :
    Sound ((K.semget (ftok semProjID)).2.setval (K.semget (ftok semProjID)).1 semDefaultVal) i
      ⟨0, (K.semget (ftok semProjID)).1, false, .idle⟩ where
  room := by
    rw [Semaphores.setval, length_modify]
    exact semget_lt K _
  own := by
    rw [Semaphores.setval, tokens_modify (semget_lt K _) fun _ => List.replicate semDefaultVal none]
    simp [semDefaultVal]
  announced := by simp

lemma Sound.wakeUp (h : Sound K i e) (hp : e.posting = true) :
    Sound (K.wakeUp e.semID i) i { e with posting := false } where
  room := by
    rw [Semaphores.wakeUp, length_modify]
    exact h.room
  own := by
    rw [Semaphores.wakeUp, tokens_modify h.room fun l => l ++ [some i]]
    simpa [or_imp, forall_and] using h.own
  announced hw := by
    have hold := h.announced hw
    rw [if_pos hp] at hold
    rw [Semaphores.wakeUp, tokens_modify h.room fun l => l ++ [some i]]
    simpa using hold

lemma Sound.wait (h : Sound K i e) :
    Sound (K.wait e.semID) i { e with consumer := .woken } where
  room := by
    rw [Semaphores.wait, length_modify]
    exact h.room
  own := by
    rw [Semaphores.wait, tokens_modify h.room List.tail]
    exact fun x hx => h.own x (List.mem_of_mem_tail hx)
  announced hw := by simp at hw

lemma Sound.produce (h : Sound K i e) (hp : e.posting = false) :
    Sound K i { e with events := e.events + 1, posting := true } where
  room := h.room
  own := h.own
  announced hw := by
    have hold := h.announced hw
    have hle : (e.events + 1).toNat ≤ e.events.toNat + 1 := by
      rw [UInt32.toNat_add]
      exact Nat.mod_le _ _
    simp [hp] at hold
    simp
    omega

lemma Sound.test (h : Sound K i e) :
    Sound K i { e with consumer := if e.events = 0 then .waiting else .tested } where
  room := h.room
  own := h.own
  announced hw := by
    have hz : e.events = 0 := by
      by_contra hne
      simp [hne] at hw
    simp [hz]

lemma Sound.decrement (h : Sound K i e) :
    Sound K i { e with events := e.events - 1, consumer := .idle } :=
  ⟨h.room, h.own, fun hw => by simp at hw⟩

end Tokens

structure Solo (s : State ι) : Prop where
  alone : ∀ i j e, s.event i = some e → j ≠ i → s.event j = none
  sound : ∀ i e, s.event i = some e → Sound s.semaphores i e

lemma Solo.passable {s : State ι} (h : Solo s) : Passable s := by
  intro i e he hne hw
  have hsound := h.sound i e he
  by_cases hp : e.posting = true
  · exact Or.inr hp
  · have hpos : 0 < (s.semaphores.tokens e.semID).length := by
      have hle := hsound.announced hw
      have he0 : e.events.toNat ≠ 0 := fun hz => hne (UInt32.toNat_inj.mp hz)
      rw [if_neg hp] at hle
      omega
    obtain ⟨x, hx⟩ := List.exists_mem_of_length_pos hpos
    exact Or.inl (hsound.own x hx ▸ hx)

section Steps

variable [DecidableEq ι] {ftok : ℕ → ℕ} {s t : State ι} {i : ι} {a : Action ι} {e : Event}
  {K : Semaphores ι}

lemma solo_set (halone : ∀ j, j ≠ i → s.event j = none) (he : Sound K i e) :
    Solo { s.set i e with semaphores := K } := by
  have hother : ∀ j, j ≠ i → (s.set i e).event j = none := fun j hj =>
    (Function.update_of_ne hj _ _).trans (halone j hj)
  have honly : ∀ j f, (s.set i e).event j = some f → j = i ∧ f = e := by
    intro j f hf
    by_cases hj : j = i
    · subst hj
      simp only [State.set, Function.update_self] at hf
      exact ⟨rfl, (Option.some.inj hf).symm⟩
    · rw [hother j hj] at hf
      cases hf
  refine ⟨fun j k f hf hk => ?_, fun j f hf => ?_⟩
  · obtain ⟨rfl, _⟩ := honly j f hf
    exact hother k hk
  · obtain ⟨rfl, rfl⟩ := honly j f hf
    exact he

lemma Solo.operate (h : Solo s) (he : s.event a.event = some e) (ht : operate s e a = some t) :
    Solo t := by
  have halone := fun j => h.alone _ j e he
  have hsound := h.sound _ e he
  cases a with
  | construct i => cases ht
  | produce i =>
    rw [ProcessEvent.operate] at ht
    split_ifs at ht with hp
    obtain rfl := Option.some.inj ht
    exact solo_set halone (hsound.produce hp)
  | post i =>
    rw [ProcessEvent.operate] at ht
    split_ifs at ht with hp
    obtain rfl := Option.some.inj ht
    exact solo_set halone (hsound.wakeUp hp)
  | test i =>
    rw [ProcessEvent.operate] at ht
    split at ht
    · obtain rfl := Option.some.inj ht
      exact solo_set halone hsound.test
    · cases ht
  | await i =>
    rw [ProcessEvent.operate] at ht
    split_ifs at ht
    obtain rfl := Option.some.inj ht
    exact solo_set halone hsound.wait
  | decrement i =>
    rw [ProcessEvent.operate] at ht
    split_ifs at ht
    obtain rfl := Option.some.inj ht
    exact solo_set halone hsound.decrement

lemma step_cases (h : step ftok s a = some t) :
    (∃ i, a = .construct i ∧ s.event i = none ∧ t = construct ftok s i) ∨
      ∃ e, s.event a.event = some e ∧ operate s e a = some t := by
  unfold step at h
  cases he : s.event a.event with
  | some e =>
    rw [he] at h
    exact Or.inr ⟨e, rfl, h⟩
  | none =>
    rw [he] at h
    cases a with
    | construct i => exact Or.inl ⟨i, rfl, he, (Option.some.inj h).symm⟩
    | produce i | post i | test i | await i | decrement i => cases h

lemma Solo.others (h : Solo s) (hc : Alone s a) (ht : step ftok s a = some t) :
    ∀ j, j ≠ a.event → s.event j = none := by
  rcases step_cases ht with ⟨i, rfl, _, _⟩ | ⟨e, he, _⟩
  · exact hc
  · exact fun j hj => h.alone _ j e he hj

lemma Solo.step (h : Solo s) (hc : Alone s a) (ht : step ftok s a = some t) : Solo t := by
  rcases step_cases ht with ⟨i, rfl, _, rfl⟩ | ⟨e, he, ht⟩
  · exact solo_set hc (sound_construct ftok s.semaphores i)
  · exact h.operate he ht

lemma step_other {j : ι} (hj : j ≠ a.event) (h : step ftok s a = some t) :
    t.event j = s.event j := by
  rcases step_cases h with ⟨i, rfl, _, rfl⟩ | ⟨e, _, ht⟩
  · exact Function.update_of_ne hj _ _
  · cases a with
    | construct i => cases ht
    | produce i | post i | test i | await i | decrement i =>
      rw [operate] at ht
      split at ht
      · obtain rfl := Option.some.inj ht
        exact Function.update_of_ne hj _ _
      · cases ht

lemma step_isSome_of_none {b : Action ι} (hs : s.event b.event = none)
    (ht : t.event b.event = none) : (step ftok s b).isSome ↔ (step ftok t b).isSome := by
  cases b <;> simp only [Action.event] at hs ht <;> simp [step, Action.event, hs, ht]

lemma nonInterfering_alone (ftok : ℕ → ℕ) : NonInterfering ftok (@Alone ι) := by
  intro K s h
  have hsolo : Solo s := by
    refine h.invariant ⟨fun i j e he => ?_, fun i e he => ?_⟩ fun _ _ _ hs hc ht => hs.step hc ht
    · cases he
    · cases he
  refine ⟨fun a t hc ht b hb => ?_, hsolo.passable⟩
  have hnone := hsolo.others hc ht b.event hb
  exact step_isSome_of_none hnone ((step_other hb ht).trans hnone)

lemma token_taken (ftok : ℕ → ℕ) {i j : ι} (hij : i ≠ j) :
    ∃ s : State ι, Reaches (step ftok) Free (State.init []) s ∧
      s.event i = some ⟨1, 0, false, .waiting⟩ ∧ s.semaphores.tokens 0 = [] := by
  have h : (execute (step ftok) Free (State.init []) [.construct i, .construct j, .test i, .test j,
      .produce i, .post i, .await j]).map (fun s => (s.event i, s.semaphores.tokens 0))
      = some (some ⟨1, 0, false, .waiting⟩, []) := by
    simp [execute, Free, step, operate, construct, State.set, State.init, Semaphores.semget,
      Semaphores.setval, Semaphores.wakeUp, Semaphores.wait, Semaphores.tokens, semDefaultVal,
      Action.event, hij, hij.symm]
  obtain ⟨s, hs, he⟩ := reaches_of_execute_map h
  exact ⟨s, hs, (Prod.mk.inj he).1, (Prod.mk.inj he).2⟩

end Steps

section Interference

/-- The second part: the events of a program never interfere just when there is at most one. -/
theorem process_events_apart (ι : Type) [DecidableEq ι] (ftok : ℕ → ℕ) :
    NonInterfering ftok (@Alone ι) ∧
      (NonInterfering ftok (@Free (State ι) (Action ι)) ↔ Subsingleton ι) := by
  refine ⟨nonInterfering_alone ftok, fun h => ⟨fun i j => by_contra fun hij => ?_⟩, ?_⟩
  · obtain ⟨s, hs, he, ht⟩ := token_taken ftok hij
    rcases (h [] s hs).2 i _ he (by decide) rfl with hmem | hpost
    · rw [ht] at hmem
      cases hmem
    · cases hpost
  · intro hsub K s hs
    have halone : ∀ (s : State ι) a, Alone s a := by
      intro s a
      cases a with
      | construct i => exact fun j hj => absurd (Subsingleton.elim j i) hj
      | produce i | post i | test i | await i | decrement i => trivial
    obtain ⟨hstep, hpass⟩ := nonInterfering_alone ftok K s (hs.mono fun s a _ => halone s a)
    exact ⟨fun a t _ => hstep a t (halone s a), hpass⟩

/-- The construction of the second event clears the token of the first one. The other way round,
the consumer of the second event takes that token, and the first one waits for good. -/
theorem events_share_semaphore :
    (∃ (s t : State (Fin 2)) (a : Action (Fin 2)), Reaches (step id) Free (State.init []) s ∧
      step id s a = some t ∧ ¬ Apart id s a t) ∧
    ∃ s : State (Fin 2), Reaches (step id) Free (State.init []) s ∧ ¬ Passable s := by
  refine ⟨?_, ?_⟩
  · have h : (execute (step id) Free (State.init []) [Action.construct (0 : Fin 2), .test 0,
        .produce 0, .post 0]).map (fun s => ((step id s (.await 0)).isSome,
          (step id s (.construct 1)).map fun t => (step id t (.await 0)).isSome))
        = some (true, some false) := by decide
    obtain ⟨s, hs, he⟩ := reaches_of_execute_map h
    obtain ⟨hbefore, hafter⟩ := Prod.mk.inj he
    obtain ⟨t, ht, hafter⟩ := Option.map_eq_some_iff.mp hafter
    refine ⟨s, t, .construct 1, hs, ht, fun hapart => ?_⟩
    have h := (hapart (.await 0) (by decide)).mp hbefore
    rw [hafter] at h
    cases h
  · obtain ⟨s, hs, he, ht⟩ := token_taken id (show (0 : Fin 2) ≠ 1 by decide)
    refine ⟨s, hs, fun hpass => ?_⟩
    rcases hpass 0 _ he (by decide) rfl with hmem | hpost
    · rw [ht] at hmem
      cases hmem
    · cases hpost

end Interference

end Xty.Queues.ProcessEvent
