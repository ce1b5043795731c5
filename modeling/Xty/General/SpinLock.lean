import Xty.General.Programs
import Xty.General.Runs

/-! Threads that run pieces of code under a lock word, one access to the memory at a time. -/

namespace Xty.General.SpinLock

open Xty.General.Programs Xty.General.Runs

/-- The code under the lock has the points `Λ`, and `rank` bounds the accesses from each of them.
After an outcome that is an exception the lock is not released. -/
structure Code (σ Λ Ω α : Type) where
  entry : Ω → Λ
  access : Λ → Program σ Λ
  outcome : Λ → Option α
  releases : α → Bool
  rank : Λ → ℕ
  rank_access : ∀ l s l' s', access l s = some (l', s') → rank l' < rank l

inductive Pc (Λ Ω : Type) where
  | outside
  | spinning (o : Ω)
  | inside (o : Ω) (l : Λ)
  | gone
deriving DecidableEq

structure State (ι σ Λ Ω : Type) where
  word : UInt32
  shared : σ
  pc : ι → Pc Λ Ω

inductive Action (ι Ω : Type) where
  | lock (i : ι) (o : Ω)
  | compareAndSwap (i : ι)
  | tryLock (i : ι) (o : Ω)
  | access (i : ι)
  | unLock (i : ι)

variable {ι σ Λ Ω α : Type}

def State.init (s : σ) : State ι σ Λ Ω := ⟨0, s, fun _ => .outside⟩

def Pc.holds : Pc Λ Ω → Bool
  | .outside | .spinning _ => false
  | .inside .. | .gone => true

namespace Code

variable (C : Code σ Λ Ω α)

section Steps

variable [DecidableEq ι]

def enter (s : State ι σ Λ Ω) (i : ι) (o : Ω) : State ι σ Λ Ω :=
  { s with word := 1, pc := Function.update s.pc i (.inside o (C.entry o)) }

def step (s : State ι σ Λ Ω) : Action ι Ω → Option (State ι σ Λ Ω)
  | .lock i o =>
    match s.pc i with
    | .outside => some { s with pc := Function.update s.pc i (.spinning o) }
    | .spinning _ | .inside .. | .gone => none
  | .compareAndSwap i =>
    match s.pc i with
    | .spinning o => if s.word = 0 then some (C.enter s i o) else some s
    | .outside | .inside .. | .gone => none
  | .tryLock i o =>
    match s.pc i with
    | .outside => if s.word = 0 then some (C.enter s i o) else some s
    | .spinning _ | .inside .. | .gone => none
  | .access i =>
    match s.pc i with
    | .inside o l =>
      if (C.outcome l).isNone then
        (C.access l s.shared).map fun r =>
          { s with shared := r.2, pc := Function.update s.pc i (.inside o r.1) }
      else none
    | .outside | .spinning _ | .gone => none
  | .unLock i =>
    match s.pc i with
    | .inside _ l =>
      (C.outcome l).map fun a =>
        if C.releases a then { s with word := 0, pc := Function.update s.pc i .outside }
        else { s with pc := Function.update s.pc i .gone }
    | .outside | .spinning _ | .gone => none

def record (s : State ι σ Λ Ω) (a : Action ι Ω) (_ : State ι σ Λ Ω) (g : List (Ω × α)) :
    List (Ω × α) :=
  match a with
  | .unLock i =>
    match s.pc i with
    | .inside o l => g ++ ((C.outcome l).map fun a => (o, a)).toList
    | .outside | .spinning _ | .gone => g
  | .lock .. | .compareAndSwap _ | .tryLock .. | .access _ => g

end Steps

section Meaning

def runFrom : ℕ → Λ → Program σ α
  | 0, _ => fun _ => none
  | fuel + 1, l =>
    match C.outcome l with
    | some a => return a
    | none => do runFrom fuel (← C.access l)

/-- What the code does from a point, if no other thread comes between its accesses. -/
def run (l : Λ) : Program σ α := C.runFrom (C.rank l + 1) l

variable {C} {l : Λ} {s : σ}

lemma runFrom_eq {n m : ℕ} (hn : C.rank l < n) (hm : C.rank l < m) :
    C.runFrom n l = C.runFrom m l := by
  induction n generalizing l m with
  | zero => omega
  | succ n ih =>
    obtain ⟨m, rfl⟩ := Nat.exists_eq_add_of_lt (Nat.zero_lt_of_lt hm)
    rw [Nat.zero_add, runFrom, runFrom]
    split
    · rfl
    · funext s
      rw [bind_apply, bind_apply]
      cases hacc : C.access l s with
      | none => rfl
      | some r =>
        have hrank := C.rank_access l s r.1 r.2 hacc
        rw [Option.bind_some, Option.bind_some, ih (m := 0 + m) (by omega) (by omega), Nat.zero_add]

lemma run_over {a : α} (h : C.outcome l = some a) : C.run l = Pure.pure a := by
  rw [run, runFrom, h]

lemma run_access (h : C.outcome l = none) : C.run l = C.access l >>= C.run := by
  rw [run, runFrom, h]
  funext s
  change (C.access l >>= fun l' => C.runFrom (C.rank l) l') s = _
  rw [bind_apply, bind_apply]
  cases hacc : C.access l s with
  | none => rfl
  | some r =>
    have hrank := C.rank_access l s r.1 r.2 hacc
    rw [Option.bind_some, Option.bind_some, run, runFrom_eq hrank (Nat.lt_succ_self _)]

lemma run_step {l' : Λ} {s' : σ} (h : C.outcome l = none) (ha : C.access l s = some (l', s')) :
    C.run l s = C.run l' s' := by
  rw [run_access h, bind_apply, ha]
  rfl

lemma run_done {a : α} (h : C.outcome l = some a) : C.run l s = some (a, s) := by
  rw [run_over h]
  rfl

end Meaning

section Atomicity

variable {C}

/-- The calls one after the other, each from its entry to its end. -/
def Serial (C : Code σ Λ Ω α) : σ → List (Ω × α) → σ → Prop
  | s, [], t => t = s
  | s, (o, a) :: rest, t => ∃ u, C.run (C.entry o) s = some (a, u) ∧ Serial C u rest t

lemma Serial.append {s t u : σ} {g : List (Ω × α)} {o : Ω} {a : α} (h : C.Serial s g t)
    (hr : C.run (C.entry o) t = some (a, u)) : C.Serial s (g ++ [(o, a)]) u := by
  induction g generalizing s with
  | nil =>
    obtain rfl := h
    exact ⟨u, hr, rfl⟩
  | cons p g ih =>
    obtain ⟨v, hv, h⟩ := h
    exact ⟨v, hv, ih h⟩

def Released (C : Code σ Λ Ω α) (g : List (Ω × α)) : Prop := ∀ c ∈ g, C.releases c.2 = true

/-- The lock is free, or one thread has it and what is left of its code does to the memory as it is
what the whole code does to the memory as it was. A thread that is gone has it for ever. -/
inductive Lawful (C : Code σ Λ Ω α) (s₀ : σ) (s : State ι σ Λ Ω) (g : List (Ω × α)) : Prop where
  | free (hword : s.word = 0) (hnone : ∀ j, (s.pc j).holds = false)
    (hserial : C.Serial s₀ g s.shared) (hg : C.Released g) : Lawful C s₀ s g
  | inside {i : ι} {o : Ω} {l : Λ} {t : σ} (hword : s.word = 1) (hpc : s.pc i = .inside o l)
    (hnone : ∀ j, j ≠ i → (s.pc j).holds = false) (hserial : C.Serial s₀ g t)
    (hrun : C.run l s.shared = C.run (C.entry o) t) (hg : C.Released g) : Lawful C s₀ s g
  | gone {i : ι} (hword : s.word = 1) (hpc : s.pc i = .gone)
    (hnone : ∀ j, j ≠ i → (s.pc j).holds = false) (hserial : C.Serial s₀ g s.shared)
    (hg : ∃ c ∈ g, C.releases c.2 = false) : Lawful C s₀ s g

variable {s₀ : σ} {s t : State ι σ Λ Ω} {g : List (Ω × α)} {i j : ι} {o : Ω}

lemma Lawful.holder (h : C.Lawful s₀ s g) (hi : (s.pc i).holds = true) :
    s.word = 1 ∧ ∀ j, j ≠ i → (s.pc j).holds = false := by
  have unique : ∀ k, (∀ j, j ≠ k → (s.pc j).holds = false) → i = k := by
    intro k hk
    by_contra hne
    rw [hk i hne] at hi
    cases hi
  cases h with
  | free _ hnone =>
    rw [hnone i] at hi
    cases hi
  | inside hword _ hnone | gone hword _ hnone => exact ⟨hword, unique _ hnone ▸ hnone⟩

lemma Lawful.exclusive (h : C.Lawful s₀ s g) (hi : (s.pc i).holds = true)
    (hj : (s.pc j).holds = true) : i = j := by
  by_contra hne
  rw [(h.holder hj).2 i hne] at hi
  cases hi

lemma Lawful.word_eq_zero_iff (h : C.Lawful s₀ s g) :
    s.word = 0 ↔ ∀ i, (s.pc i).holds = false := by
  refine ⟨fun hword i => ?_, fun hnone => ?_⟩
  · rw [Bool.eq_false_iff]
    intro hi
    rw [(h.holder hi).1] at hword
    cases hword
  · cases h with
    | free hword => exact hword
    | @inside i _ _ _ _ hpc | @gone i _ hpc =>
      have := hnone i
      rw [hpc] at this
      cases this

lemma Lawful.of_free (h : C.Lawful s₀ s g) (hword : s.word = 0) :
    C.Serial s₀ g s.shared ∧ C.Released g := by
  cases h with
  | free _ _ hserial hg => exact ⟨hserial, hg⟩
  | inside hone | gone hone =>
    rw [hone] at hword
    cases hword

lemma Lawful.serial (h : C.Lawful s₀ s g) : ∃ t, C.Serial s₀ g t := by
  cases h with
  | free _ _ hserial | inside _ _ _ hserial | gone _ _ _ hserial => exact ⟨_, hserial⟩

lemma Lawful.of_inside (h : C.Lawful s₀ s g) {l : Λ} (hi : s.pc i = .inside o l) :
    s.word = 1 ∧ (∀ j, j ≠ i → (s.pc j).holds = false) ∧
      ∃ t, C.Serial s₀ g t ∧ C.run l s.shared = C.run (C.entry o) t ∧ C.Released g := by
  have hhold : (s.pc i).holds = true := by
    rw [hi]
    rfl
  obtain ⟨hword, hothers⟩ := h.holder hhold
  refine ⟨hword, hothers, ?_⟩
  cases h with
  | free hzero =>
    rw [hzero] at hword
    cases hword
  | @inside k p m t _ hpc hnone hserial hrun hg =>
    have hk : i = k := by
      by_contra hne
      rw [hnone i hne] at hhold
      cases hhold
    subst hk
    rw [hpc] at hi
    cases hi
    exact ⟨t, hserial, hrun, hg⟩
  | @gone k _ hpc hnone =>
    have hk : i = k := by
      by_contra hne
      rw [hnone i hne] at hhold
      cases hhold
    subst hk
    rw [hpc] at hi
    cases hi

lemma Lawful.gone_iff (h : C.Lawful s₀ s g) :
    (∃ i, s.pc i = .gone) ↔ ∃ c ∈ g, C.releases c.2 = false := by
  have absurd_released : C.Released g → ¬ ∃ c ∈ g, C.releases c.2 = false := by
    rintro hg ⟨c, hc, hrel⟩
    rw [hg c hc] at hrel
    cases hrel
  cases h with
  | free _ hnone _ hg =>
    refine iff_of_false ?_ (absurd_released hg)
    rintro ⟨i, hi⟩
    have := hnone i
    rw [hi] at this
    cases this
  | @inside k _ _ _ _ hpc hnone _ _ hg =>
    refine iff_of_false ?_ (absurd_released hg)
    rintro ⟨i, hi⟩
    have hne : i ≠ k := by
      rintro rfl
      rw [hpc] at hi
      cases hi
    have := hnone i hne
    rw [hi] at this
    cases this
  | @gone k _ hpc _ _ hg => exact iff_of_true ⟨k, hpc⟩ hg

variable [DecidableEq ι]

lemma holds_update {c : Pc Λ Ω} (h : ∀ k, k ≠ i → k ≠ j → (s.pc k).holds = false)
    (hj : j = i ∨ c.holds = false) :
    ∀ k, k ≠ i → (Function.update s.pc j c k).holds = false := by
  intro k hk
  by_cases hkj : k = j
  · subst hkj
    rw [Function.update_self]
    exact hj.resolve_left hk
  · rw [Function.update_of_ne hkj]
    exact h k hk hkj

lemma Lawful.enter (h : C.Lawful s₀ s g) (hword : s.word = 0) (o : Ω) :
    C.Lawful s₀ (C.enter s i o) g := by
  have hnone := h.word_eq_zero_iff.mp hword
  obtain ⟨hserial, hg⟩ := h.of_free hword
  refine .inside (i := i) rfl (Function.update_self _ _ _) ?_ hserial rfl hg
  exact holds_update (fun k _ _ => hnone k) (.inl rfl)

lemma Lawful.spin (h : C.Lawful s₀ s g) (hi : s.pc i = .outside) (o : Ω) :
    C.Lawful s₀ { s with pc := Function.update s.pc i (.spinning o) } g := by
  have hmove : ∀ j, (s.pc j).holds = true → j ≠ i := by
    rintro j hj rfl
    rw [hi] at hj
    cases hj
  cases h with
  | free hword hnone hserial hg =>
    refine .free hword (fun j => ?_) hserial hg
    by_cases hj : j = i
    · subst hj
      simp [Pc.holds]
    · simpa [hj] using hnone j
  | @inside k p l t hword hpc hnone hserial hrun hg =>
    have hk := hmove k (by rw [hpc]; rfl)
    exact .inside (i := k) hword ((Function.update_of_ne hk _ _).trans hpc)
      (holds_update (fun j hj _ => hnone j hj) (.inr rfl)) hserial hrun hg
  | @gone k hword hpc hnone hserial hg =>
    have hk := hmove k (by rw [hpc]; rfl)
    exact .gone (i := k) hword ((Function.update_of_ne hk _ _).trans hpc)
      (holds_update (fun j hj _ => hnone j hj) (.inr rfl)) hserial hg

lemma Lawful.access (h : C.Lawful s₀ s g) {l : Λ} {r : Λ × σ} (hi : s.pc i = .inside o l)
    (hout : C.outcome l = none) (hr : C.access l s.shared = some r) :
    C.Lawful s₀ { s with shared := r.2, pc := Function.update s.pc i (.inside o r.1) } g := by
  obtain ⟨hword, hothers, t, hserial, hrun, hg⟩ := h.of_inside hi
  rw [run_access hout, bind_apply, hr, Option.bind_some] at hrun
  exact .inside (i := i) hword (Function.update_self _ _ _)
    (holds_update (fun k hk _ => hothers k hk) (.inl rfl)) hserial hrun hg

lemma Lawful.leave (h : C.Lawful s₀ s g) {l : Λ} {a : α} (hi : s.pc i = .inside o l)
    (hout : C.outcome l = some a) : C.Lawful s₀ (if C.releases a
      then { s with word := 0, pc := Function.update s.pc i .outside }
      else { s with pc := Function.update s.pc i .gone }) (g ++ [(o, a)]) := by
  obtain ⟨hword, hothers, t, hserial, hrun, hg⟩ := h.of_inside hi
  rw [run_over hout, pure_apply] at hrun
  have hnew := hserial.append hrun.symm
  split_ifs with hrel
  · refine .free rfl (fun j => ?_) hnew (List.forall_mem_append.mpr ⟨hg, by simpa using hrel⟩)
    by_cases hj : j = i
    · subst hj
      simp [Pc.holds]
    · simpa [hj] using hothers j hj
  · exact .gone (i := i) hword (Function.update_self _ _ _)
      (holds_update (fun k hk _ => hothers k hk) (.inl rfl)) hnew
      ⟨(o, a), by simp, Bool.eq_false_iff.mpr hrel⟩

lemma Lawful.step (h : C.Lawful s₀ s g) {x : Action ι Ω} (hs : C.step s x = some t) :
    C.Lawful s₀ t (C.record s x t g) := by
  cases x with
  | lock i o =>
    rw [Code.step] at hs
    split at hs
    · next hi =>
      obtain rfl := Option.some.inj hs
      exact h.spin hi o
    all_goals cases hs
  | compareAndSwap i | tryLock i =>
    rw [Code.step] at hs
    split at hs
    · split_ifs at hs with hword
      · obtain rfl := Option.some.inj hs
        exact h.enter hword _
      · obtain rfl := Option.some.inj hs
        exact h
    all_goals cases hs
  | access i =>
    rw [Code.step] at hs
    split at hs
    · next hi =>
      split_ifs at hs with hout
      obtain ⟨r, hr, rfl⟩ := Option.map_eq_some_iff.mp hs
      exact h.access hi (Option.isNone_iff_eq_none.mp hout) hr
    all_goals cases hs
  | unLock i =>
    rw [Code.step] at hs
    split at hs
    · next hi =>
      obtain ⟨a, ha, rfl⟩ := Option.map_eq_some_iff.mp hs
      have hleave := h.leave hi ha
      simpa [record, hi, ha] using hleave
    all_goals cases hs

omit [DecidableEq ι] in
lemma lawful_init (s₀ : σ) : C.Lawful s₀ (State.init s₀ : State ι σ Λ Ω) [] :=
  .free rfl (fun _ => rfl) rfl (by simp [Released])

/-- In every interleaving the calls take effect one after the other, in the order in which they give
up the lock. -/
lemma lawful_of_observed {D : State ι σ Λ Ω → Action ι Ω → Prop}
    (h : Observed C.step C.record D ((State.init s₀ : State ι σ Λ Ω), []) (s, g)) :
    C.Lawful s₀ s g :=
  h.invariant (I := fun x => C.Lawful s₀ x.1 x.2) (lawful_init s₀) fun _ _ _ _ hi _ ha => hi.step ha

lemma Lawful.progress (h : C.Lawful s₀ s g) {l : Λ} (hi : s.pc i = .inside o l)
    (htotal : ∀ t, C.Serial s₀ g t → C.run (C.entry o) t ≠ none) :
    (C.step s (.access i)).isSome ∨ (C.step s (.unLock i)).isSome := by
  obtain ⟨_, _, t, hserial, hrun, _⟩ := h.of_inside hi
  have hne := htotal t hserial
  rw [← hrun] at hne
  cases hout : C.outcome l with
  | some a => exact .inr (by simp [Code.step, hi, hout])
  | none =>
    rw [run_access hout, bind_apply] at hne
    cases hacc : C.access l s.shared with
    | none =>
      rw [hacc] at hne
      exact absurd rfl hne
    | some r => exact .inl (by simp [Code.step, hi, hout, hacc])

lemma Lawful.step_gone (h : C.Lawful s₀ s g) (hi : s.pc i = .gone) {x : Action ι Ω}
    (hs : C.step s x = some t) :
    t.pc i = .gone ∧ t.shared = s.shared ∧ C.record s x t g = g := by
  have hhold : (s.pc i).holds = true := by
    rw [hi]
    rfl
  obtain ⟨hword, hothers⟩ := h.holder hhold
  have hmove : ∀ j, s.pc j = .outside → i ≠ j := by
    rintro j hj rfl
    rw [hi] at hj
    cases hj
  have hinside : ∀ j o l, s.pc j ≠ .inside o l := by
    intro j o l hj
    have hij := h.exclusive hhold (j := j) (by rw [hj]; rfl)
    rw [← hij, hi] at hj
    cases hj
  cases x with
  | lock j o =>
    rw [Code.step] at hs
    split at hs
    · next hj =>
      obtain rfl := Option.some.inj hs
      exact ⟨(Function.update_of_ne (hmove j hj) _ _).trans hi, rfl, rfl⟩
    all_goals cases hs
  | compareAndSwap j | tryLock j =>
    rw [Code.step] at hs
    split at hs
    · rw [if_neg (by simp [hword])] at hs
      obtain rfl := Option.some.inj hs
      exact ⟨hi, rfl, rfl⟩
    all_goals cases hs
  | access j | unLock j =>
    rw [Code.step] at hs
    split at hs
    · next hj => exact absurd hj (hinside _ _ _)
    all_goals cases hs

lemma Lawful.gone_for_ever {g' : List (Ω × α)} (h : C.Lawful s₀ s g) (hi : s.pc i = .gone)
    (hr : Observed C.step C.record Free (s, g) (t, g')) :
    t.word = 1 ∧ t.shared = s.shared ∧ g' = g := by
  have hinv := hr.invariant
    (I := fun x => C.Lawful s₀ x.1 x.2 ∧ x.1.pc i = .gone ∧ x.1.shared = s.shared ∧ x.2 = g)
    ⟨h, hi, rfl, rfl⟩ fun u k x v hu _ hs => by
      obtain ⟨hlaw, hgone, hshared, hlog⟩ := hu
      obtain ⟨hgone', hshared', hlog'⟩ := hlaw.step_gone hgone hs
      exact ⟨hlaw.step hs, hgone', hshared'.trans hshared, hlog'.trans hlog⟩
  obtain ⟨hlaw, hgone, hshared, hlog⟩ := hinv
  refine ⟨(hlaw.holder (i := i) ?_).1, hshared, hlog⟩
  rw [hgone]
  rfl

end Atomicity

section Protection

/-- What the lock protects meets `I` whenever nobody has it, and `J` at the points in between. -/
structure Protects (C : Code σ Λ Ω α) (I : σ → Prop) (J : Λ → σ → Prop) : Prop where
  entry : ∀ o s, I s → J (C.entry o) s
  access : ∀ l s l' s', J l s → C.access l s = some (l', s') → J l' s'
  leave : ∀ l s a, J l s → C.outcome l = some a → I s

structure Protected (I : σ → Prop) (J : Λ → σ → Prop) (s : State ι σ Λ Ω) : Prop where
  inside : ∀ i o l, s.pc i = .inside o l → J l s.shared
  elsewhere : (∀ i o l, s.pc i ≠ .inside o l) → I s.shared

variable {C} {I : σ → Prop} {J : Λ → σ → Prop} {s₀ : σ} {s t : State ι σ Λ Ω} {g : List (Ω × α)}
  {i j : ι} {o p : Ω} {l m : Λ}

lemma Protected.of_free (h : Protected I J s) (hlaw : C.Lawful s₀ s g) (hword : s.word = 0) :
    I s.shared := by
  refine h.elsewhere fun i o l hi => ?_
  have hhold := hlaw.word_eq_zero_iff.mp hword i
  rw [hi] at hhold
  cases hhold

variable [DecidableEq ι]

lemma inside_update {c : Pc Λ Ω} (h : Function.update s.pc i c j = .inside p m) :
    (j = i ∧ c = .inside p m) ∨ (j ≠ i ∧ s.pc j = .inside p m) := by
  by_cases hji : j = i
  · subst hji
    rw [Function.update_self] at h
    exact .inl ⟨rfl, h⟩
  · rw [Function.update_of_ne hji] at h
    exact .inr ⟨hji, h⟩

lemma Protected.enter (hC : C.Protects I J) (hI : I s.shared)
    (hnone : ∀ j o l, s.pc j ≠ .inside o l) (i : ι) (o : Ω) :
    Protected I J (C.enter s i o) := by
  refine ⟨fun j p m hj => ?_, fun hout => absurd (Function.update_self _ _ _) (hout i o _)⟩
  rcases inside_update hj with ⟨rfl, hc⟩ | ⟨_, hj⟩
  · cases hc
    exact hC.entry _ _ hI
  · exact absurd hj (hnone j p m)

lemma Protected.access (hC : C.Protects I J) (h : Protected I J s) (hlaw : C.Lawful s₀ s g)
    (hi : s.pc i = .inside o l) {r : Λ × σ} (hr : C.access l s.shared = some r) :
    Protected I J { s with shared := r.2, pc := Function.update s.pc i (.inside o r.1) } := by
  have hnew := hC.access _ _ _ _ (h.inside i o l hi) hr
  refine ⟨fun j p m hj => ?_, fun hout => absurd (Function.update_self _ _ _) (hout i o r.1)⟩
  rcases inside_update hj with ⟨rfl, hc⟩ | ⟨hji, hj⟩
  · cases hc
    exact hnew
  · exact absurd (hlaw.exclusive (by rw [hj]; rfl) (by rw [hi]; rfl)) hji

lemma Protected.leave (hC : C.Protects I J) (h : Protected I J s) (hlaw : C.Lawful s₀ s g)
    (hi : s.pc i = .inside o l) {a : α} (ha : C.outcome l = some a) {c : Pc Λ Ω}
    (hc : ∀ p m, c ≠ .inside p m) (w : UInt32) :
    Protected I J { s with word := w, pc := Function.update s.pc i c } := by
  refine ⟨fun j p m hj => ?_, fun _ => hC.leave _ _ _ (h.inside i o l hi) ha⟩
  rcases inside_update hj with ⟨_, hcj⟩ | ⟨hji, hj⟩
  · exact absurd hcj (hc p m)
  · exact absurd (hlaw.exclusive (by rw [hj]; rfl) (by rw [hi]; rfl)) hji

lemma Protected.step (hC : C.Protects I J) (h : Protected I J s) (hlaw : C.Lawful s₀ s g)
    {x : Action ι Ω} (hs : C.step s x = some t) : Protected I J t := by
  have hfree : s.word = 0 → ∀ j o l, s.pc j ≠ .inside o l := by
    intro hword j p m hj
    have hhold := hlaw.word_eq_zero_iff.mp hword j
    rw [hj] at hhold
    cases hhold
  cases x with
  | lock i o =>
    rw [Code.step] at hs
    split at hs
    · next hi =>
      obtain rfl := Option.some.inj hs
      refine ⟨fun j p m hj => ?_, fun hout => h.elsewhere fun j p m hj => ?_⟩
      · rcases inside_update hj with ⟨_, hc⟩ | ⟨_, hj⟩
        · cases hc
        · exact h.inside j p m hj
      · have hji : j ≠ i := by
          rintro rfl
          rw [hi] at hj
          cases hj
        exact hout j p m ((Function.update_of_ne hji _ _).trans hj)
    all_goals cases hs
  | compareAndSwap i | tryLock i =>
    rw [Code.step] at hs
    split at hs
    · split_ifs at hs with hword
      · obtain rfl := Option.some.inj hs
        exact .enter hC (h.of_free hlaw hword) (hfree hword) i _
      · obtain rfl := Option.some.inj hs
        exact h
    all_goals cases hs
  | access i =>
    rw [Code.step] at hs
    split at hs
    · next hi =>
      split_ifs at hs
      obtain ⟨r, hr, rfl⟩ := Option.map_eq_some_iff.mp hs
      exact h.access hC hlaw hi hr
    all_goals cases hs
  | unLock i =>
    rw [Code.step] at hs
    split at hs
    · next hi =>
      obtain ⟨a, ha, rfl⟩ := Option.map_eq_some_iff.mp hs
      split_ifs
      · exact h.leave hC hlaw hi ha (by simp) 0
      · exact h.leave hC hlaw hi ha (by simp) s.word
    all_goals cases hs

/-- The rule of the lock: an invariant that the code restores before it gives up the lock holds in
every interleaving while the lock is free. -/
lemma protected_of_observed {D : State ι σ Λ Ω → Action ι Ω → Prop} (hC : C.Protects I J)
    (hI : I s₀) (h : Observed C.step C.record D ((State.init s₀ : State ι σ Λ Ω), []) (s, g)) :
    C.Lawful s₀ s g ∧ Protected I J s :=
  h.invariant (I := fun x => C.Lawful s₀ x.1 x.2 ∧ Protected I J x.1)
    ⟨lawful_init s₀, ⟨by simp [State.init], fun _ => hI⟩⟩
    fun _ _ _ _ hi _ ha => ⟨hi.1.step ha, hi.2.step hC hi.1 ha⟩

end Protection

end Code

end Xty.General.SpinLock
