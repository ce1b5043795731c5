import Mathlib.Tactic

/-! Partial state programs, their total correctness, and loops with a variant. A program that
yields nothing has touched memory it may not touch or has run out of fuel. -/

namespace Xty.General.Programs

abbrev Program (σ α : Type) := StateT σ Option α

variable {σ α β : Type}

lemma pure_apply (a : α) (s : σ) : (Pure.pure a : Program σ α) s = some (a, s) := rfl

lemma bind_apply (m : Program σ α) (f : α → Program σ β) (s : σ) :
    (m >>= f) s = (m s).bind fun p => f p.1 p.2 := rfl

def Yields (m : Program σ α) (s : σ) (Q : α → σ → Prop) : Prop :=
  ∃ a s', m s = some (a, s') ∧ Q a s'

lemma Yields.of_eq {m : Program σ α} {s s' : σ} {a : α} {Q : α → σ → Prop}
    (h : m s = some (a, s')) (hq : Q a s') : Yields m s Q := ⟨a, s', h, hq⟩

lemma Yields.run_eq {m : Program σ α} {s s' : σ} {a : α}
    (h : Yields m s fun b t => b = a ∧ t = s') : m s = some (a, s') := by
  obtain ⟨_, _, hr, rfl, rfl⟩ := h
  exact hr

lemma Yields.iff_of_eq {m : Program σ α} {s s' : σ} {a : α} {Q : α → σ → Prop}
    (h : m s = some (a, s')) : Yields m s Q ↔ Q a s' := by
  constructor
  · rintro ⟨b, t, hr, hq⟩
    obtain ⟨rfl, rfl⟩ := Prod.mk.inj (Option.some.inj (h.symm.trans hr))
    exact hq
  · exact Yields.of_eq h

lemma Yields.pure {s : σ} {a : α} {Q : α → σ → Prop} (h : Q a s) :
    Yields (Pure.pure a : Program σ α) s Q := ⟨a, s, rfl, h⟩

lemma Yields.bind {m : Program σ α} {f : α → Program σ β} {s : σ} {P : α → σ → Prop}
    {Q : β → σ → Prop} (hm : Yields m s P) (hf : ∀ a s', P a s' → Yields (f a) s' Q) :
    Yields (m >>= f) s Q := by
  obtain ⟨a, s', hr, hp⟩ := hm
  obtain ⟨b, s'', hr', hq⟩ := hf a s' hp
  refine ⟨b, s'', ?_, hq⟩
  rw [bind_apply, hr]
  exact hr'

lemma Yields.step {m : Program σ α} {f : α → Program σ β} {s s' : σ} {a : α}
    {Q : β → σ → Prop} (hm : m s = some (a, s')) (hf : Yields (f a) s' Q) :
    Yields (m >>= f) s Q :=
  Yields.bind (P := fun b t => b = a ∧ t = s') ⟨a, s', hm, rfl, rfl⟩ (by
    rintro _ _ ⟨rfl, rfl⟩
    exact hf)

lemma Yields.mono {m : Program σ α} {s : σ} {P Q : α → σ → Prop} (h : Yields m s P)
    (hpq : ∀ a s', P a s' → Q a s') : Yields m s Q := by
  obtain ⟨a, s', hr, hp⟩ := h
  exact ⟨a, s', hr, hpq a s' hp⟩

def loop (cond : β → Program σ Bool) (body : β → Program σ β) : ℕ → β → Program σ β
  | 0, _ => fun _ => none
  | fuel + 1, b => do
    if ← cond b then loop cond body fuel (← body b)
    else return b

lemma loop_stop {cond : β → Program σ Bool} {body : β → Program σ β} {fuel : ℕ} {b : β} {s s' : σ}
    (h : cond b s = some (false, s')) : loop cond body (fuel + 1) b s = some (b, s') := by
  apply Yields.run_eq
  rw [loop]
  exact Yields.step h (Yields.pure ⟨rfl, rfl⟩)

lemma loop_yields {cond : β → Program σ Bool} {body : β → Program σ β} {I : ℕ → β → σ → Prop}
    {Q : β → σ → Prop}
    (round : ∀ n b s, I n b s → Yields (cond b) s fun t s' =>
      if t = true then Yields (body b) s' fun b' s'' => ∃ k < n, I k b' s'' else Q b s')
    {n fuel : ℕ} {b : β} {s : σ} (hn : n < fuel) (h : I n b s) :
    Yields (loop cond body fuel b) s Q := by
  induction fuel generalizing n b s with
  | zero => omega
  | succ fuel ih =>
    rw [loop]
    apply (round n b s h).bind
    rintro (_ | _) s' hs'
    · exact Yields.pure hs'
    · apply Yields.bind hs'
      rintro b' s'' ⟨k, hk, hI⟩
      exact ih (by omega) hI

section Preservation

def Preserves (I : σ → Prop) (m : Program σ α) : Prop := ∀ s r, I s → m s = some r → I r.2

variable {I : σ → Prop} {m m' : Program σ α} {f : α → Program σ β}

lemma Preserves.pure (a : α) : Preserves I (Pure.pure a : Program σ α) := by
  rintro s _ hs ⟨⟩
  exact hs

lemma Preserves.bind (hm : Preserves I m) (hf : ∀ a, Preserves I (f a)) :
    Preserves I (m >>= f) := by
  intro s r hs h
  obtain ⟨⟨a, s'⟩, ha, hr⟩ := Option.bind_eq_some_iff.mp h
  exact hf a s' r (hm s _ hs ha) hr

lemma Preserves.ite {p : Prop} [Decidable p] (hm : Preserves I m) (hm' : Preserves I m') :
    Preserves I (if p then m else m') := by
  split_ifs
  · exact hm
  · exact hm'

lemma Yields.preserve {s : σ} {Q : α → σ → Prop} (h : Yields m s Q) (hm : Preserves I m)
    (hs : I s) : Yields m s fun a s' => Q a s' ∧ I s' := by
  obtain ⟨a, s', hr, hq⟩ := h
  exact ⟨a, s', hr, hq, hm s _ hs hr⟩

end Preservation

section Checks

def require (c : σ → Bool) : Program σ Unit := fun s => if c s = true then some ((), s) else none

lemma Yields.require {c : σ → Bool} {m : Program σ α} {s : σ} {Q : α → σ → Prop} (hc : c s = true)
    (hm : Yields m s Q) : Yields (require c >>= fun _ => m) s Q :=
  Yields.step (if_pos hc) hm

/-- Whatever the first program yields, the second one yields too. It may lack checks. -/
def Erases (m m' : Program σ α) : Prop := ∀ s r, m s = some r → m' s = some r

lemma Erases.refl (m : Program σ α) : Erases m m := fun _ _ h => h

lemma Erases.bind {m m' : Program σ α} {f f' : α → Program σ β} (hm : Erases m m')
    (hf : ∀ a, Erases (f a) (f' a)) : Erases (m >>= f) (m' >>= f') := by
  intro s r h
  rw [bind_apply] at h
  obtain ⟨⟨a, s'⟩, ha, hr⟩ := Option.bind_eq_some_iff.mp h
  rw [bind_apply, hm s _ ha]
  exact hf a s' r hr

lemma Erases.first {m m' : Program σ α} {f : α → Program σ β} (hm : Erases m m') :
    Erases (m >>= f) (m' >>= f) := hm.bind fun _ => refl _

lemma Erases.rest {m : Program σ α} {f f' : α → Program σ β} (hf : ∀ a, Erases (f a) (f' a)) :
    Erases (m >>= f) (m >>= f') := (refl m).bind hf

lemma Erases.require {m m' : Program σ α} (c : σ → Bool) (hm : Erases m m') :
    Erases (require c >>= fun _ => m) m' := by
  intro s r h
  rw [bind_apply, Programs.require] at h
  split_ifs at h
  · exact hm s r h
  · cases h

lemma Erases.checked (m : Program σ α) (c : α → σ → Bool) :
    Erases (m >>= fun a => Programs.require (c a) >>= fun _ => pure a) m := by
  intro s r h
  have hr := (refl m).bind (fun a => (refl (pure a)).require (c a)) s r h
  rwa [bind_pure] at hr

lemma Erases.ite {p : Prop} [Decidable p] {m m' n n' : Program σ α} (hm : Erases m m')
    (hn : Erases n n') : Erases (if p then m else n) (if p then m' else n') := by
  split_ifs
  · exact hm
  · exact hn

lemma Erases.loop {cond : β → Program σ Bool} {body body' : β → Program σ β}
    (h : ∀ b, Erases (body b) (body' b)) (fuel : ℕ) (b : β) :
    Erases (loop cond body fuel b) (loop cond body' fuel b) := by
  induction fuel generalizing b with
  | zero => exact Erases.refl _
  | succ fuel ih =>
    rw [Programs.loop, Programs.loop]
    exact Erases.rest fun _ => ((h b).bind ih).ite (Erases.refl _)

lemma Yields.erase {m m' : Program σ α} {s : σ} {Q : α → σ → Prop} (h : Yields m s Q)
    (he : Erases m m') : Yields m' s Q := by
  obtain ⟨a, s', hm, hq⟩ := h
  exact ⟨a, s', he s _ hm, hq⟩

lemma Yields.agrees {m m' : Program σ α} {s : σ} {Q : α → σ → Prop} (h : Yields m s Q)
    (he : Erases m m') : ∃ r, m s = some r ∧ m' s = some r := by
  obtain ⟨a, s', hm, _⟩ := h
  exact ⟨(a, s'), hm, he s _ hm⟩

end Checks

end Xty.General.Programs
