import Xty.General.Runs

/-! Runs that a measure bounds, and where they end. -/

namespace Xty.General.Runs

variable {σ α : Type} {step : σ → α → Option σ} {C : σ → α → Prop} {I F : σ → Prop} {μ : σ → ℕ}

def Decreasing (step : σ → α → Option σ) (C : σ → α → Prop) (I : σ → Prop) (μ : σ → ℕ) : Prop :=
  ∀ s a t, I s → C s a → step s a = some t → I t ∧ μ t < μ s

/-- A state in which no step can be made is one that the runs are meant to end in. -/
def Progressing (step : σ → α → Option σ) (C : σ → α → Prop) (I F : σ → Prop) : Prop :=
  ∀ s, I s → F s ∨ ∃ a t, C s a ∧ step s a = some t

lemma Decreasing.length_le [∀ s a, Decidable (C s a)] (h : Decreasing step C I μ) {s t : σ}
    {as : List α} (hs : I s) (hrun : execute step C s as = some t) : as.length + μ t ≤ μ s := by
  induction as generalizing s with
  | nil =>
    obtain rfl := Option.some.inj hrun
    simp
  | cons a as ih =>
    rw [execute] at hrun
    split_ifs at hrun with hc
    obtain ⟨u, hu, hrun⟩ := Option.bind_eq_some_iff.mp hrun
    obtain ⟨hI, hlt⟩ := h s a u hs hc hu
    have hle := ih hI hrun
    rw [List.length_cons]
    omega

section WellFounded

variable {β : Type} {r : β → β → Prop} {ν : σ → β}

def Descending (step : σ → α → Option σ) (C : σ → α → Prop) (I : σ → Prop) (r : β → β → Prop)
    (ν : σ → β) : Prop :=
  ∀ s a t, I s → C s a → step s a = some t → I t ∧ r (ν t) (ν s)

def Endless (step : σ → α → Option σ) (C : σ → α → Prop) (s : σ) : Prop :=
  ∃ f : ℕ → σ, f 0 = s ∧ ∀ k, ∃ a, C (f k) a ∧ step (f k) a = some (f (k + 1))

def Stuck (step : σ → α → Option σ) (C : σ → α → Prop) (s : σ) : Prop :=
  ∀ a, C s a → step s a = none

lemma Descending.not_endless (h : Descending step C I r ν) (hr : WellFounded r) {s : σ}
    (hs : I s) : ¬ Endless step C s := by
  induction hb : ν s using hr.induction generalizing s with
  | h b ih =>
    subst hb
    rintro ⟨f, rfl, hf⟩
    obtain ⟨a, hc, ha⟩ := hf 0
    obtain ⟨hI, hlt⟩ := h _ a _ hs hc ha
    exact ih _ hlt hI rfl ⟨fun k => f (k + 1), rfl, fun k => hf (k + 1)⟩

lemma Descending.ends (h : Descending step C I r ν) (hr : WellFounded r)
    (hprog : Progressing step C I F) {s : σ} (hs : I s) : ∃ t, Reaches step C s t ∧ F t := by
  induction hb : ν s using hr.induction generalizing s with
  | h b ih =>
    subst hb
    rcases hprog s hs with hF | ⟨a, u, hc, ha⟩
    · exact ⟨s, Relation.ReflTransGen.refl, hF⟩
    · obtain ⟨hI, hlt⟩ := h s a u hs hc ha
      obtain ⟨t, ht, hF⟩ := ih (ν u) hlt hI rfl
      exact ⟨t, Relation.ReflTransGen.head ⟨a, hc, ha⟩ ht, hF⟩

lemma progressing_stuck : Progressing step C I (Stuck step C) := by
  intro s _
  refine or_iff_not_imp_left.mpr fun hs => ?_
  simp only [Stuck, not_forall] at hs
  obtain ⟨a, hc, ha⟩ := hs
  obtain ⟨t, ht⟩ := Option.ne_none_iff_exists'.mp ha
  exact ⟨a, t, hc, ht⟩

end WellFounded

lemma Decreasing.ends (h : Decreasing step C I μ) (hprog : Progressing step C I F) {s : σ}
    (hs : I s) : ∃ t, Reaches step C s t ∧ F t :=
  Descending.ends (r := (· < ·)) h wellFounded_lt hprog hs

end Xty.General.Runs
