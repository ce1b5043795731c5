import Xty.General.Measures
import Xty.Queues.ThreadQueue

/-! No thread is left waiting in `PopMsg` while a message is in the queue. -/

namespace Xty.Queues.ThreadQueue

open Xty.General.Runs Xty.General.Counting

/-- After a `DeQueue` the thread has still to read the message, and may then call `PopMsg` again. -/
def Pc.work : Pc → ℕ
  | .waiting | .failed _ => 0
  | .idle | .woken => 1
  | .signalling => 3
  | .consumed => 7
  | .pushed => 11

def Pc.told : Pc → ℕ
  | .signalling | .woken => 1
  | .idle | .pushed | .waiting | .consumed | .failed _ => 0

variable {ι T : Type}

/-- Nothing is pushed, and no wait ends without a signal; calls of `PopMsg` may begin. -/
def NoPush (_ : State ι T) : Action ι T → Prop
  | .enQueue .. | .wake _ => False
  | .produce _ | .signal .. | .consume _ | .deQueue _ => True

/-- The calls that have begun go on. -/
def Proceeds (s : State ι T) : Action ι T → Prop
  | .enQueue .. | .wake _ => False
  | .produce _ | .signal .. | .deQueue _ => True
  | .consume i => s.pc i ≠ .idle

def Rested (s : State ι T) : Prop := ∀ i, s.pc i = .idle ∨ s.pc i = .waiting

lemma Proceeds.noPush {s : State ι T} {a : Action ι T} (h : Proceeds s a) : NoPush s a := by
  cases a with
  | enQueue | wake => exact h
  | produce | signal | consume | deQueue => trivial

lemma signal_pc [DecidableEq ι] {s : State ι T} {i j : ι} (hi : s.pc i = .signalling)
    (hj : s.pc j = .waiting) :
    (s.goto i .idle).pc j = .waiting := by
  refine (Function.update_of_ne ?_ _ _).trans hj
  rintro rfl
  rw [hi] at hj
  cases hj

section Sums

variable [Fintype ι]

def State.work (s : State ι T) : ℕ := ∑ i, (s.pc i).work + 7 * s.events.toNat

/-- As long as a thread waits, there is a signal to come or a woken thread for each event. -/
def Announced (s : State ι T) : Prop :=
  ∀ j, s.pc j = .waiting → s.events.toNat ≤ ∑ i, (s.pc i).told

lemma announced_init : Announced (State.init : State ι T) := nofun

variable [DecidableEq ι] {s t : State ι T} {i : ι} {a : Action ι T} {c : Pc}

lemma work_move (hpc : t.pc = Function.update s.pc i c) :
    t.work + (s.pc i).work + 7 * s.events.toNat = s.work + c.work + 7 * t.events.toNat := by
  have hsum := sum_update Pc.work s.pc i c
  rw [State.work, State.work, hpc]
  omega

lemma work_enQueue {m : T} (hs : step s (.enQueue i m) = some t) : t.work = s.work + 10 := by
  rw [step] at hs
  split_ifs at hs with hi
  obtain rfl := Option.some.inj hs
  have hmove := work_move (s := s) (t := { s.goto i .pushed with
    queue := s.queue.enQueue m
    enqueued := s.enqueued ++ [m] }) (c := .pushed) rfl
  simp only [hi, Pc.work, State.goto] at hmove ⊢
  omega

lemma work_deQueue (h : Inv s) (hs : step s (.deQueue i) = some t) : t.work + 6 = s.work := by
  rw [step] at hs
  split_ifs at hs with hi
  obtain ⟨⟨v, q⟩, hq⟩ := h.deQueue_some hi
  rw [hq] at hs
  obtain rfl := Option.some.inj hs
  have hmove := work_move (s := s) (t := { s.goto i .idle with
    queue := q
    dequeued := s.dequeued ++ [(i, v)] }) (c := .idle) rfl
  simp only [hi, Pc.work, State.goto] at hmove ⊢
  omega

lemma work_event (hs : step s a = some t) (ha : NoPush s a) (hde : ∀ i, a ≠ .deQueue i) :
    t.work < s.work := by
  cases a with
  | enQueue | wake => exact ha.elim
  | deQueue i => exact absurd rfl (hde i)
  | produce i =>
    rw [step] at hs
    split_ifs at hs with hi
    obtain rfl := Option.some.inj hs
    have hmove := work_move (s := s) (t := { s.goto i .signalling with
      events := s.events + 1
      increments := s.increments + 1 }) (c := .signalling) rfl
    have hle := toNat_increment_le s.events
    simp only [hi, Pc.work, State.goto] at hmove ⊢
    omega
  | signal i j =>
    cases j with
    | none =>
      rw [step] at hs
      split_ifs at hs with hi
      obtain rfl := Option.some.inj hs
      have hmove := work_move (s := s) (t := s.goto i .idle) (c := .idle) rfl
      simp only [hi.1, Pc.work, State.goto] at hmove ⊢
      omega
    | some j =>
      rw [step] at hs
      split_ifs at hs with hi
      obtain rfl := Option.some.inj hs
      have hfirst := work_move (s := s) (t := s.goto i .idle) (c := .idle) rfl
      have hsecond := work_move (s := s.goto i .idle) (t := (s.goto i .idle).goto j .woken)
        (c := .woken) rfl
      rw [signal_pc hi.1 hi.2] at hsecond
      simp only [hi.1, Pc.work, State.goto] at hfirst hsecond ⊢
      omega
  | consume i =>
    rw [step] at hs
    split_ifs at hs with hi he
    · obtain rfl := Option.some.inj hs
      have hmove := work_move (s := s) (t := s.goto i .waiting) (c := .waiting) rfl
      rcases hi with hi | hi <;>
      · simp only [hi, Pc.work, State.goto] at hmove ⊢
        omega
    · obtain rfl := Option.some.inj hs
      have hmove := work_move (s := s) (t := { s.goto i .consumed with
        events := s.events - 1
        decrements := s.decrements + 1 }) (c := .consumed) rfl
      have hpos := toNat_pos he
      have hdec := toNat_decrement hpos
      rcases hi with hi | hi <;>
      · simp only [hi, Pc.work, State.goto] at hmove ⊢
        omega

end Sums

section Announcing

variable [Fintype ι] [DecidableEq ι] {s t : State ι T} {i : ι} {a : Action ι T} {c : Pc}

lemma Announced.move (h : Announced s) (hpc : t.pc = Function.update s.pc i c) (hc : c ≠ .waiting)
    (he : t.events.toNat + (s.pc i).told ≤ s.events.toNat + c.told) : Announced t := by
  intro j hj
  have hsum := sum_update Pc.told s.pc i c
  rw [hpc] at hj ⊢
  by_cases hji : j = i
  · rw [hji, Function.update_self] at hj
    exact absurd hj hc
  · rw [Function.update_of_ne hji] at hj
    have hold := h j hj
    omega

lemma Announced.step (h : Announced s) (hs : ThreadQueue.step s a = some t) : Announced t := by
  cases a with
  | enQueue i m =>
    rw [ThreadQueue.step] at hs
    split_ifs at hs with hi
    obtain rfl := Option.some.inj hs
    exact h.move rfl (by simp) (by simp [hi, Pc.told, State.goto])
  | produce i =>
    rw [ThreadQueue.step] at hs
    split_ifs at hs with hi
    obtain rfl := Option.some.inj hs
    have hle := toNat_increment_le s.events
    exact h.move rfl (by simp) (by simpa [hi, Pc.told, State.goto] using hle)
  | signal i j =>
    cases j with
    | none =>
      rw [ThreadQueue.step] at hs
      split_ifs at hs with hi
      obtain rfl := Option.some.inj hs
      -- a signal that wakes nobody is one that nobody waits for
      intro j hj
      change Function.update s.pc i .idle j = _ at hj
      by_cases hji : j = i
      · rw [hji, Function.update_self] at hj
        cases hj
      · rw [Function.update_of_ne hji] at hj
        exact absurd hj (hi.2 j)
    | some j =>
      rw [ThreadQueue.step] at hs
      split_ifs at hs with hi
      obtain rfl := Option.some.inj hs
      intro _ _
      have hold := h j hi.2
      have hfirst : ∑ k, ((s.goto i .idle).pc k).told + 1 = ∑ k, (s.pc k).told := by
        have hsum := sum_update Pc.told s.pc i .idle
        rwa [hi.1] at hsum
      have hsecond : ∑ k, (((s.goto i .idle).goto j .woken).pc k).told
          = ∑ k, ((s.goto i .idle).pc k).told + 1 := by
        have hsum := sum_update Pc.told (s.goto i .idle).pc j .woken
        rwa [signal_pc hi.1 hi.2] at hsum
      exact hold.trans_eq (hfirst.symm.trans hsecond.symm)
  | consume i =>
    rw [ThreadQueue.step] at hs
    split_ifs at hs with hi he
    · obtain rfl := Option.some.inj hs
      intro _ _
      simp [State.goto, he]
    · obtain rfl := Option.some.inj hs
      have hpos := toNat_pos he
      have hdec := toNat_decrement hpos
      refine h.move rfl (by simp) ?_
      rcases hi with hi | hi <;>
      · simp only [hi, Pc.told]
        omega
  | wake i =>
    rw [ThreadQueue.step] at hs
    split_ifs at hs with hi
    obtain rfl := Option.some.inj hs
    exact h.move rfl (by simp) (by simp [hi, Pc.told, State.goto])
  | deQueue i =>
    rw [ThreadQueue.step] at hs
    split_ifs at hs with hi
    split at hs <;>
    · obtain rfl := Option.some.inj hs
      exact h.move rfl (by simp) (by simp [hi, Pc.told, State.goto])

omit [DecidableEq ι] in
lemma Announced.empty (h : Announced s) (hi : Inv s) (hr : Rested s) {j : ι}
    (hj : s.pc j = .waiting) : s.queue.nodes = [] := by
  have hevents := h j hj
  have htold : ∑ i, (s.pc i).told = 0 := by
    refine Finset.sum_eq_zero fun i _ => ?_
    rcases hr i with hi | hi <;> rw [hi] <;> rfl
  have hno : ∀ c, c ≠ .idle → c ≠ .waiting → count c s.pc = 0 := by
    intro c hidle hwait
    refine count_eq_zero fun i hi => ?_
    rcases hr i with hr | hr <;> rw [hi] at hr
    · exact hidle hr
    · exact hwait hr
  have hbal := hi.balance
  rw [hno .pushed (by simp) (by simp), hno .consumed (by simp) (by simp)] at hbal
  exact List.eq_nil_of_length_eq_zero (by omega)

lemma signal_enabled (hi : s.pc i = .signalling) :
    ∃ j t, ThreadQueue.step s (.signal i j) = some t := by
  by_cases hw : ∃ j, s.pc j = .waiting
  · obtain ⟨j, hj⟩ := hw
    exact ⟨some j, _, if_pos ⟨hi, hj⟩⟩
  · exact ⟨none, _, if_pos ⟨hi, not_exists.mp hw⟩⟩

lemma consume_enabled (hi : s.pc i = .idle ∨ s.pc i = .woken) :
    ∃ t, ThreadQueue.step s (.consume i) = some t := by
  rw [ThreadQueue.step, if_pos hi]
  split_ifs
  · exact ⟨_, rfl⟩
  · exact ⟨_, rfl⟩

lemma deQueue_enabled (hi : s.pc i = .consumed) :
    ∃ t, ThreadQueue.step s (.deQueue i) = some t := by
  rw [ThreadQueue.step, if_pos hi]
  split
  · exact ⟨_, rfl⟩
  · exact ⟨_, rfl⟩

lemma Inv.proceeds (h : Inv s) :
    Rested s ∨ ∃ a t, Proceeds s a ∧ ThreadQueue.step s a = some t := by
  refine or_iff_not_imp_left.mpr fun hr => ?_
  simp only [Rested, not_forall, not_or] at hr
  obtain ⟨i, hidle, hwait⟩ := hr
  cases hi : s.pc i with
  | idle => exact absurd hi hidle
  | waiting => exact absurd hi hwait
  | failed f => exact absurd hi (h.running i f)
  | pushed => exact ⟨.produce i, _, trivial, if_pos hi⟩
  | signalling =>
    obtain ⟨j, t, ht⟩ := signal_enabled hi
    exact ⟨.signal i j, t, trivial, ht⟩
  | woken =>
    obtain ⟨t, ht⟩ := consume_enabled (.inr hi)
    exact ⟨.consume i, t, hidle, ht⟩
  | consumed =>
    obtain ⟨t, ht⟩ := deQueue_enabled hi
    exact ⟨.deQueue i, t, trivial, ht⟩

end Announcing

section Result

variable [Fintype ι] [DecidableEq ι] {s : State ι T}

lemma Rested.stays (h : Rested s) {a : Action ι T} (ha : Proceeds s a) : step s a = none := by
  have hne : ∀ i c, c ≠ .idle → c ≠ .waiting → s.pc i ≠ c := by
    intro i c hidle hwait hi
    rcases h i with h | h <;> rw [hi] at h
    · exact hidle h
    · exact hwait h
  cases a with
  | enQueue | wake => exact ha.elim
  | produce i => exact if_neg (hne i .pushed (by simp) (by simp))
  | signal i j =>
    cases j <;> exact if_neg fun hg => hne i .signalling (by simp) (by simp) hg.1
  | consume i => exact if_neg fun hg => hg.elim ha (hne i .woken (by simp) (by simp))
  | deQueue i => exact if_neg (hne i .consumed (by simp) (by simp))

def Waits (s : State ι T) : Prop := Inv s ∧ Announced s

lemma waits_decreasing : Decreasing step NoPush (Waits (ι := ι) (T := T)) State.work := by
  rintro s a t ⟨hi, hw⟩ ha hs
  have hb : Bounded s a := by
    cases a with
    | enQueue => exact ha.elim
    | produce | signal | consume | wake | deQueue => trivial
  refine ⟨⟨inv_step hi hb hs, hw.step hs⟩, ?_⟩
  cases a with
  | enQueue | wake => exact ha.elim
  | deQueue i =>
    have hwork := work_deQueue hi hs
    omega
  | produce | signal | consume => exact work_event hs trivial (by simp)

instance (s : State ι T) : (a : Action ι T) → Decidable (NoPush s a)
  | .enQueue .. | .wake _ => isFalse id
  | .produce _ | .signal .. | .consume _ | .deQueue _ => isTrue trivial

/-- Without a new `PushMsg`, the threads can only make so many steps, and the calls that have begun
cannot stand still before each of them is over or waits. Then either nobody waits, or the queue is
empty. -/
theorem calls_come_to_rest (h : Reaches step Bounded (State.init : State ι T) s) :
    (∀ as t, execute step NoPush s as = some t → as.length ≤ s.work) ∧
    (∃ t, Reaches step Proceeds s t ∧ Rested t) ∧
    ∀ t, Reaches step NoPush s t →
      (Rested t ↔ ∀ a, Proceeds t a → step t a = none) ∧
      (Rested t → t.queue.nodes = [] ∨ ∀ i, t.pc i ≠ .waiting) := by
  have hs : Waits s := by
    refine h.invariant (I := Waits) ⟨inv_init, announced_init⟩ ?_
    rintro u a v ⟨hi, hw⟩ hb ha
    exact ⟨inv_step hi hb ha, hw.step ha⟩
  have hdec : Decreasing step Proceeds Waits (State.work (ι := ι) (T := T)) :=
    fun u a v hu ha => waits_decreasing u a v hu ha.noPush
  have hprog : Progressing step Proceeds Waits (Rested (ι := ι) (T := T)) :=
    fun u hu => hu.1.proceeds
  refine ⟨fun as t ht => ?_, hdec.ends hprog hs, fun t ht => ?_⟩
  · exact (Nat.le_add_right _ _).trans (waits_decreasing.length_le hs ht)
  · have hinv : Waits t := ht.invariant hs fun u a v hu ha hst =>
      (waits_decreasing u a v hu ha hst).1
    refine ⟨⟨fun hr a ha => hr.stays ha, fun hstuck => ?_⟩, fun hr => ?_⟩
    · rcases hinv.1.proceeds with hr | ⟨a, u, ha, hu⟩
      · exact hr
      · rw [hstuck a ha] at hu
        cases hu
    · refine or_iff_not_imp_right.mpr fun hw => ?_
      simp only [not_forall, not_not] at hw
      obtain ⟨j, hj⟩ := hw
      exact hinv.2.empty hinv.1 hr hj

theorem calls_come_to_rest_pushed : ∃ s : State (Fin 2) ℕ, Reaches step Bounded State.init s ∧
    s.pc = ![.pushed, .waiting] ∧ (∃ t, Reaches step Proceeds s t ∧ Rested t) ∧
      ∀ as t, execute step NoPush s as = some t → as.length ≤ 11 := by
  have h : (execute step Bounded (State.init : State (Fin 2) ℕ) [.consume 1, .enQueue 0 5]).map
      (fun s => (s.pc, s.work)) = some (![.pushed, .waiting], 11) := by
    decide
  obtain ⟨s, hs, hw⟩ := reaches_of_execute_map h
  obtain ⟨hpc, hwork⟩ := Prod.mk.inj hw
  obtain ⟨hbound, hends, _⟩ := calls_come_to_rest hs
  exact ⟨s, hs, hpc, hends, fun as t ht => hwork ▸ hbound as t ht⟩

end Result

end Xty.Queues.ThreadQueue
