import Mathlib.Tactic

/-! Runs of a partial step function whose steps all meet a condition, and their invariants. -/

namespace Xty.General.Runs

variable {σ α : Type}

def Reaches (step : σ → α → Option σ) (C : σ → α → Prop) : σ → σ → Prop :=
  Relation.ReflTransGen fun s t => ∃ a, C s a ∧ step s a = some t

def Free : σ → α → Prop := fun _ _ => True

variable {step : σ → α → Option σ} {C D : σ → α → Prop} {I : σ → Prop} {s t : σ}

lemma Reaches.invariant (h : Reaches step C s t) (hs : I s)
    (hstep : ∀ s a t, I s → C s a → step s a = some t → I t) : I t := by
  induction h with
  | refl => exact hs
  | tail _ hst ih =>
    obtain ⟨a, hc, ha⟩ := hst
    exact hstep _ a _ ih hc ha

lemma Reaches.mono (h : Reaches step C s t) (hCD : ∀ s a, C s a → D s a) :
    Reaches step D s t := by
  refine Relation.ReflTransGen.mono ?_ _ _ h
  rintro _ _ ⟨a, hc, ha⟩
  exact ⟨a, hCD _ _ hc, ha⟩

def execute (step : σ → α → Option σ) (C : σ → α → Prop) [∀ s a, Decidable (C s a)] :
    σ → List α → Option σ
  | s, [] => some s
  | s, a :: as => if C s a then (step s a).bind fun t => execute step C t as else none

lemma reaches_of_execute [∀ s a, Decidable (C s a)] {as : List α}
    (h : execute step C s as = some t) : Reaches step C s t := by
  induction as generalizing s with
  | nil =>
    obtain rfl := Option.some.inj h
    exact Relation.ReflTransGen.refl
  | cons a as ih =>
    rw [execute] at h
    split_ifs at h with hc
    obtain ⟨u, hu, ht⟩ := Option.bind_eq_some_iff.mp h
    exact Relation.ReflTransGen.head ⟨a, hc, hu⟩ (ih ht)

lemma reaches_of_execute_map [∀ s a, Decidable (C s a)] {β : Type} {f : σ → β} {as : List α} {b : β}
    (h : (execute step C s as).map f = some b) : ∃ t, Reaches step C s t ∧ f t = b := by
  obtain ⟨t, ht, hb⟩ := Option.map_eq_some_iff.mp h
  exact ⟨t, reaches_of_execute ht, hb⟩

instance (s : σ) (a : α) : Decidable (Free s a) := isTrue trivial

section Observation

variable {γ : Type} {record : σ → α → σ → γ → γ} {x y : σ × γ}

/-- The same steps, with a log that the steps are recorded in. -/
def observe (step : σ → α → Option σ) (record : σ → α → σ → γ → γ) (x : σ × γ) (a : α) :
    Option (σ × γ) :=
  (step x.1 a).map fun t => (t, record x.1 a t x.2)

def Observed (step : σ → α → Option σ) (record : σ → α → σ → γ → γ) (C : σ → α → Prop) :
    σ × γ → σ × γ → Prop :=
  Reaches (observe step record) fun x a => C x.1 a

lemma observe_some {a : α} (h : observe step record x a = some y) :
    step x.1 a = some y.1 ∧ y.2 = record x.1 a y.1 x.2 := by
  obtain ⟨t, ht, rfl⟩ := Option.map_eq_some_iff.mp h
  exact ⟨ht, rfl⟩

lemma Observed.run (h : Observed step record C x y) : Reaches step C x.1 y.1 := by
  induction h with
  | refl => exact Relation.ReflTransGen.refl
  | tail _ hst ih =>
    obtain ⟨a, hc, ha⟩ := hst
    exact ih.tail ⟨a, hc, (observe_some ha).1⟩

lemma Reaches.observed {s t : σ} (h : Reaches step C s t) (g : γ) :
    ∃ g', Observed step record C (s, g) (t, g') := by
  induction h with
  | refl => exact ⟨g, Relation.ReflTransGen.refl⟩
  | @tail t u _ hst ih =>
    obtain ⟨g', hg⟩ := ih
    obtain ⟨a, hc, ha⟩ := hst
    refine ⟨record t a u g', hg.tail ⟨a, hc, ?_⟩⟩
    rw [observe, ha, Option.map_some]

lemma Observed.invariant {I : σ × γ → Prop} (h : Observed step record C x y) (hx : I x)
    (hstep : ∀ s g a t, I (s, g) → C s a → step s a = some t → I (t, record s a t g)) : I y := by
  refine Reaches.invariant h hx ?_
  rintro ⟨s, g⟩ a ⟨t, g'⟩ hi hc ha
  obtain ⟨hst, hg⟩ := observe_some ha
  change g' = record s a t g at hg
  exact hg ▸ hstep s g a t hi hc hst

end Observation

end Xty.General.Runs
