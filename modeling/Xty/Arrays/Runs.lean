import Xty.Arrays.Contents

/-! Runs of statements about arrays: what the arrays hold, and which elements are never
destructed. -/

namespace Xty.Arrays

open Xty.General.Programs Xty.General.Objects Xty.General.Cursor

variable {ι T : Type}

def Leaked (s : ArrayState ι T) : Prop :=
  ∃ a, (s.storage.slots a).isSome ∧ ∀ x, ¬ s.Owns x a.block

section

variable {P : Platform} {s : ArrayState ι T} {l : Lists ι T}

lemma represents_initial : Represents P (initial : ArrayState ι T) fun _ => none :=
  ⟨fun _ => rfl, fun _ _ _ h => absurd h (ArrayState.not_owns rfl _), ledger_empty⟩

lemma not_leaked_initial : ¬ Leaked (initial : ArrayState ι T) := by
  rintro ⟨a, h, _⟩
  cases h

lemma Represents.balanced_iff (h : Represents P s l) (hend : ∀ x, l x = none) :
    Balanced s.storage ↔ ¬ Leaked s := by
  rw [h.ledger.balanced_iff, Leaked, not_exists]
  refine forall_congr' fun a => ?_
  have hfree : ∀ x, ¬ s.Owns x a.block := fun x => ArrayState.not_owns (h.vacant (hend x)) _
  rw [and_iff_left hfree, Option.not_isSome_iff_eq_none]

end

variable [DecidableEq ι]

/-- At some statement of the run another array is assigned to one that has elements. -/
def Overwrites : List (Action ι T) → Lists ι T → Prop
  | [], _ => False
  | p :: ps, l => p.Abandons l ∨ ∃ o l', p.onLists l = some (o, l') ∧ Overwrites ps l'

/-- The process ends at a statement of the run that does not get its storage. Up to there the
outcomes are `os`. -/
def Stops (P : Platform) (ps : List (Action ι T)) (s : ArrayState ι T) (os os' : List (Outcome T)) :
    Prop :=
  ∃ k p s', ps[k]? = some p ∧ runAll P (ps.take k) s = some (os.take k, s') ∧ p.Refused P s' ∧
    os' = os.take k ++ [.exited]

section

variable {P : Platform} {s s' : ArrayState ι T} {l l' : Lists ι T} {x : ι} {left : Prop}
  {p : Action ι T} {ps : List (Action ι T)} {o : Outcome T} {os : List (Outcome T)}

lemma Answers.leaked_iff (h : Represents P s l) (ha : Answers P s s' x l' left) :
    Leaked s' ↔ Leaked s ∨ left := by
  have ht := ha.touches
  rw [← ha.leaves]
  constructor
  · rintro ⟨a, hlive, hfree⟩
    by_cases hx : s.Owns x a.block
    · exact Or.inr ⟨a, hlive, hx, hfree x⟩
    · refine Or.inl ⟨a, ?_, fun y hy => ?_⟩
      · rwa [← ht.others a hx (hfree x)]
      · have hyx : y ≠ x := fun he => hx (he ▸ hy)
        exact hfree y ((ht.owns hyx).mpr hy)
  · rintro (⟨a, hlive, hfree⟩ | ⟨a, hlive, hx, hx'⟩)
    · have hx' : ¬ s'.Owns x a.block := by
        intro hb
        rcases ht.place _ hb with hb | hb
        · exact hfree x hb
        · obtain ⟨u, hu⟩ := Option.isSome_iff_exists.mp hlive
          have hin := h.ledger.inside a u hu
          rw [List.getD_eq_default _ _ hb] at hin
          exact absurd hin (Nat.not_lt_zero _)
      refine ⟨a, by rwa [ht.others a (hfree x) hx'], fun y hy => ?_⟩
      by_cases hyx : y = x
      · exact hx' (hyx ▸ hy)
      · exact hfree y ((ht.owns hyx).mp hy)
    · refine ⟨a, hlive, fun y hy => ?_⟩
      by_cases hyx : y = x
      · exact hx' (hyx ▸ hy)
      · exact hyx (h.apart y x _ ((ht.owns hyx).mp hy) hx)

lemma overwrites_cons (ho : p.onLists l = some (o, l')) :
    Overwrites (p :: ps) l ↔ p.Abandons l ∨ Overwrites ps l' := by
  rw [Overwrites, ho]
  simp

lemma Outcome.eq_exited (h : o.ends = true) : o = .exited := by
  cases o <;> first | rfl | cases h

lemma runAll_step {q : List (Outcome T)} {s1 s2 : ArrayState ι T} (hrun : p.run P s = some (o, s1))
    (ho : o.ends = false) (hq : runAll P ps s1 = some (q, s2)) :
    runAll P (p :: ps) s = some (o :: q, s2) := by
  apply Yields.run_eq
  rw [runAll]
  apply Yields.step hrun
  rw [if_neg (by rw [ho]; exact Bool.false_ne_true)]
  exact Yields.step hq (Yields.pure ⟨rfl, rfl⟩)

lemma runAll_agrees (h : Represents P s l) (hr : runLists ps l = some (os, l')) :
    Yields (runAll P ps) s fun os' s' =>
      (os' = os ∧ Represents P s' l' ∧ (Leaked s' ↔ Leaked s ∨ Overwrites ps l)) ∨
        Stops P ps s os os' := by
  induction ps generalizing s l os l' with
  | nil =>
    cases hr
    exact Yields.pure (Or.inl ⟨rfl, h, by simp [Overwrites]⟩)
  | cons p ps ih =>
    obtain ⟨⟨o, l1⟩, ho, hr⟩ := Option.bind_eq_some_iff.mp hr
    obtain ⟨⟨os1, l2⟩, hr1, hr⟩ := Option.bind_eq_some_iff.mp hr
    cases hr
    obtain ⟨o', s1, hrun, ⟨hend, hno⟩ | ⟨hgo, rfl, x, ha⟩⟩ := action_agrees p h ho
    · rw [runAll]
      apply Yields.step hrun
      rw [if_pos hend, Outcome.eq_exited hend]
      exact Yields.pure (Or.inr ⟨0, p, s, rfl, rfl, hno, rfl⟩)
    · obtain ⟨os', s2, hrun', hpost⟩ := ih ha.represents hr1
      refine Yields.of_eq (runAll_step hrun hgo hrun') ?_
      obtain ⟨rfl, h2, hleak⟩ | ⟨k, q, s3, hq, hrun3, hno, rfl⟩ := hpost
      · refine Or.inl ⟨rfl, h2, ?_⟩
        rw [hleak, ha.leaked_iff h, overwrites_cons ho, or_assoc]
      · exact Or.inr ⟨k + 1, q, s3, hq, runAll_step hrun hgo hrun3, hno, rfl⟩

/-- In every run the arrays give the answers of lists, and at its end they hold what the lists are,
each in storage of its own, unless an allocator ends the process. -/
theorem arrays_are_lists (P : Platform) (ps : List (Action ι T)) (os : List (Outcome T))
    (l : Lists ι T) (h : runLists ps (fun _ => none) = some (os, l)) :
    Yields (runAll P ps) initial fun os' s =>
      (os' = os ∧ Represents P s l) ∨ Stops P ps initial os os' :=
  (runAll_agrees represents_initial h).mono fun _ _ => Or.imp_left fun hd => ⟨hd.1, hd.2.1⟩

/-- After a run that ends with the destruction of all arrays, every element has been destructed
exactly once if and only if no other array was assigned to one with elements. -/
theorem destructed_once_iff (P : Platform) (ps : List (Action ι T)) (os : List (Outcome T))
    (l : Lists ι T) (h : runLists ps (fun _ => none) = some (os, l)) (hend : ∀ x, l x = none) :
    Yields (runAll P ps) initial fun os' s =>
      (os' = os ∧ (Balanced s.storage ↔ ¬ Overwrites ps fun _ => none)) ∨
        Stops P ps initial os os' := by
  apply (runAll_agrees represents_initial h).mono
  rintro os' s (⟨rfl, hr, hleak⟩ | hstop)
  · refine Or.inl ⟨rfl, ?_⟩
    rw [hr.balanced_iff hend, hleak, or_iff_right not_leaked_initial]
  · exact Or.inr hstop

end

def roomy : Platform where
  elementSize := 8
  positive := by decide
  fits := by decide
  grants _ _ bytes := 2 * bytes < addressSpace
  bounded _ _ _ h := of_decide_eq_true h

/-- The fifth value is pushed from the array that has to grow for it. -/
def aliasedGrowth : List (Action ℕ ℕ) :=
  [.create 0 (some 0), .pushBack 0 (.value 7), .pushBack 0 (.value 8), .pushBack 0 (.value 9),
    .pushBack 0 (.value 10), .pushBack 0 (.element 0 1), .copyConstruct 1 0, .write 1 4 11,
    .assign 0 0, .read 0 4, .read 0 5, .popBack 1, .destroy 1, .clear 0, .destroy 0]

def aliasedOutcomes : List (Outcome ℕ) :=
  List.replicate 9 .done ++ [.value 8, .thrown] ++ List.replicate 4 .done

theorem aliased_growth_answers : ∃ l, Yields (runAll roomy aliasedGrowth) initial fun os s =>
    (os = aliasedOutcomes ∧ Represents roomy s l) ∨
      Stops roomy aliasedGrowth initial aliasedOutcomes os :=
  ⟨_, arrays_are_lists roomy aliasedGrowth _ _ rfl⟩

theorem aliased_growth_destructed : Yields (runAll roomy aliasedGrowth) initial fun os s =>
    (os = aliasedOutcomes ∧ (Balanced s.storage ↔ ¬ Overwrites aliasedGrowth fun _ => none)) ∨
      Stops roomy aliasedGrowth initial aliasedOutcomes os :=
  destructed_once_iff roomy aliasedGrowth aliasedOutcomes _ rfl fun x => by
    by_cases h0 : x = 0 <;> by_cases h1 : x = 1 <;> simp [Function.update, h0, h1]

def overwritten : List (Action ℕ ℕ) :=
  [.create 0 (some 0), .create 1 (some 0), .pushBack 0 (.value 7), .pushBack 1 (.value 8),
    .assign 0 1, .destroy 0, .destroy 1]

theorem overwritten_element_lost : Yields (runAll roomy overwritten) initial fun _ s =>
    s.arrays 0 = none ∧ s.arrays 1 = none ∧ s.storage.constructed = 3 ∧
      s.storage.destructed = [2, 1] ∧ ¬ Balanced s.storage := by
  have hrun : (runAll roomy overwritten initial).map (fun r => (r.2.arrays 0, r.2.arrays 1,
      r.2.storage.constructed, r.2.storage.destructed)) = some (none, none, 3, [2, 1]) := by
    decide +kernel
  obtain ⟨⟨os, s⟩, hr, hv⟩ := Option.map_eq_some_iff.mp hrun
  simp only [Prod.mk.injEq] at hv
  obtain ⟨h0, h1, hc, hd⟩ := hv
  refine Yields.of_eq hr ⟨h0, h1, hc, hd, fun hb => ?_⟩
  have hcount := hb 0 (by rw [hc]; decide)
  rw [hd] at hcount
  exact absurd hcount (by decide)

end Xty.Arrays
