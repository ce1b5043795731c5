import Xty.Queues.Waiting
import Xty.Session.RecvThread

/-! The receive thread and the threads that call `RecvMsg` hand over all that has been received. -/

namespace Xty.Session.RecvThread

open Xty.General.Runs Xty.General.Counting
open Xty.Message Xty.Queues
open Xty.Server (EntityArray)

def ReceiverPc.work : ReceiverPc → ℕ
  | .receiving | .undefined => 0
  | .decoded _ => 11
  | .prepared .. => 12
  | .acquired .. => 13
  | .acquiring _ => 14

def ReaderPc.work : ReaderPc → ℕ
  | .outside | .undefined => 0
  | .copied .. => 1
  | .copiedName .. => 2
  | .copiedIP .. => 3
  | .copiedHead .. => 4
  | .popped _ => 5

variable {κ : Type}

/-- Nothing new comes from the socket, and no wait ends without a signal. -/
def Hands (_ : State κ) : Action κ → Prop
  | .recv .. | .wake _ => False
  | .acquire | .prepare _ | .decode | .enQueue | .produce | .signal _ | .consume _ | .deQueue _
  | .copy _ | .release _ => True

/-- The receive thread pushes only when it is done with a chunk, and a thread that copies a message
is not in `PopMsg`. -/
def Place (r : ReceiverPc) (f : κ → ReaderPc) : Option κ → ThreadQueue.Pc → Prop
  | none, c => c = .idle ∨ (c = .pushed ∨ c = .signalling) ∧ r = .receiving
  | some k, c => c = .idle ∨ (c = .waiting ∨ c = .woken ∨ c = .consumed) ∧ f k = .outside

structure Settled (s : State κ) : Prop where
  receiver : s.receiver = .receiving
  pushing : s.queue.pc none = .idle
  readers : ∀ k, s.reader k = .outside ∧ s.queue.pc (some k) = .waiting

lemma Hands.decodesToData {s : State κ} {a : Action κ} (ha : Hands s a) : DecodesToData s a := by
  cases a with
  | recv => exact ha.elim
  | acquire | prepare | decode | enQueue | produce | signal | consume | wake | deQueue | copy
  | release => trivial

lemma clear_subset {s : State κ} {i p : ℕ} (hp : s.clear i p ≠ none) :
    s.memory p ≠ none ∧ s.entities.owned i ≠ some p := by
  rw [State.clear] at hp
  cases ho : s.entities.owned i with
  | none =>
    rw [ho] at hp
    exact ⟨hp, (Option.some_ne_none p).symm⟩
  | some q =>
    simp only [ho, Function.update_apply] at hp
    split_ifs at hp with hpq
    · exact absurd rfl hp
    · exact ⟨hp, fun he => hpq (Option.some.inj he).symm⟩

section Places

variable {r r' : ReceiverPc} {f : κ → ReaderPc} {pc : Option κ → ThreadQueue.Pc} {k : κ}

lemma placed_update [DecidableEq κ] {i : Option κ} {c : ThreadQueue.Pc}
    (h : ∀ j, Place r f j (pc j)) (hc : Place r f i c) (j : Option κ) :
    Place r f j (Function.update pc i c j) := by
  by_cases hj : j = i
  · rw [hj, Function.update_self]
    exact hc
  · rw [Function.update_of_ne hj]
    exact h j

lemma placed_receiver (h : ∀ j, Place r f j (pc j)) (hr : pc none = .idle) (j : Option κ) :
    Place r' f j (pc j) := by
  cases j with
  | none => exact .inl hr
  | some k => exact h (some k)

lemma placed_reader [DecidableEq κ] {c : ReaderPc} (h : ∀ j, Place r f j (pc j))
    (hk : pc (some k) = .idle) (j : Option κ) : Place r (Function.update f k c) j (pc j) := by
  cases j with
  | none => exact h none
  | some i =>
    by_cases hi : i = k
    · exact .inl (hi ▸ hk)
    · rw [Place, Function.update_of_ne hi]
      exact h (some i)

lemma idle_of_receiver (h : ∀ j, Place r f j (pc j)) (hr : r ≠ .receiving) : pc none = .idle := by
  rcases h none with hidle | ⟨_, hrec⟩
  · exact hidle
  · exact absurd hrec hr

lemma idle_of_reader (h : ∀ j, Place r f j (pc j)) (hk : f k ≠ .outside) :
    pc (some k) = .idle := by
  rcases h (some k) with hidle | ⟨_, hout⟩
  · exact hidle
  · exact absurd hout hk

end Places

section Steps

variable [Fintype κ]

def State.work (s : State κ) : ℕ :=
  s.receiver.work + s.queue.work + ∑ k, (s.reader k).work

structure Tidy (s : State κ) : Prop where
  announced : ThreadQueue.Announced s.queue
  placed : ∀ i, Place s.receiver s.reader i (s.queue.pc i)
  live : ∀ p, s.memory p ≠ none → s.entities.owned 0 = some p

lemma tidy_init : Tidy (State.init : State κ) where
  announced := ThreadQueue.announced_init
  placed i := by cases i <;> exact .inl rfl
  live _ h := absurd rfl h

lemma Tidy.clear {s : State κ} (hs : Tidy s) (p : ℕ) : s.clear 0 p = none := by
  by_contra hp
  obtain ⟨hmem, hown⟩ := clear_subset hp
  exact hown (hs.live p hmem)

variable [DecidableEq κ] {s t : State κ} {h : Holder κ} {a : Action κ}

lemma copy_work {c : ReaderPc} {load : ℕ → Option DataMsg} {d : ReaderPc}
    (hc : c.copy load = some d) : d.work < c.work := by
  cases c with
  | outside | copied | undefined => cases hc
  | popped p | copiedHead p | copiedIP p | copiedName p =>
    obtain rfl := Option.some.inj hc
    cases load p <;> simp [ReaderPc.work]

lemma work_reader {k : κ} {c : ReaderPc} (hr : t.receiver = s.receiver)
    (hf : t.reader = Function.update s.reader k c)
    (hc : c.work + t.queue.work < (s.reader k).work + s.queue.work) : t.work < s.work := by
  have hsum := sum_update ReaderPc.work s.reader k c
  rw [State.work, State.work, hr, hf]
  omega

lemma work_recv {b : RecvBuf} {d : RecvData} (ht : RecvThread.step s (.recv b d) = some t) :
    t.work ≤ s.work + 14 := by
  rw [RecvThread.step] at ht
  split at ht
  · next hr =>
    split_ifs at ht
    split at ht
    · obtain rfl := Option.some.inj ht
      simp only [State.work, hr, ReceiverPc.work]
      omega
    all_goals
      obtain rfl := Option.some.inj ht
      exact Nat.le_add_right _ _
  all_goals cases ht

lemma HeldBy.work_step (hs : HeldBy s h) (ha : Hands s a) (ht : RecvThread.step s a = some t) :
    t.work < s.work := by
  cases a with
  | recv | wake => exact ha.elim
  | acquire =>
    rw [RecvThread.step] at ht
    split at ht
    · next c hr =>
      obtain ⟨r, _, rfl⟩ := Option.map_eq_some_iff.mp ht
      simp [State.work, hr, ReceiverPc.work]
    all_goals cases ht
  | prepare p =>
    rw [RecvThread.step] at ht
    split at ht
    · next c i hr =>
      split at ht
      · split_ifs at ht
        obtain rfl := Option.some.inj ht
        simp [State.work, hr, ReceiverPc.work]
      · obtain rfl := Option.some.inj ht
        simp [State.work, hr, ReceiverPc.work]
    all_goals cases ht
  | decode =>
    rw [RecvThread.step] at ht
    split at ht
    · next c p hr =>
      split at ht <;>
      · obtain rfl := Option.some.inj ht
        simp [State.work, hr, ReceiverPc.work]
    all_goals cases ht
  | enQueue =>
    rw [RecvThread.step] at ht
    split at ht
    · next p hr =>
      obtain ⟨q, hq, rfl⟩ := Option.map_eq_some_iff.mp ht
      have hwork := ThreadQueue.work_enQueue hq
      simp only [State.work, hr, ReceiverPc.work]
      omega
    all_goals cases ht
  | produce | signal =>
    obtain ⟨q, hq, rfl⟩ := Option.map_eq_some_iff.mp ht
    have hwork := ThreadQueue.work_event hq trivial (by simp)
    simpa [State.work] using hwork
  | consume k =>
    rw [RecvThread.step] at ht
    split_ifs at ht
    obtain ⟨q, hq, rfl⟩ := Option.map_eq_some_iff.mp ht
    have hwork := ThreadQueue.work_event hq trivial (by simp)
    simpa [State.work] using hwork
  | deQueue k =>
    obtain ⟨q, hq, rfl⟩ := Option.map_eq_some_iff.mp ht
    have hwork := ThreadQueue.work_deQueue hs.queue hq
    obtain ⟨p, hok, _⟩ := ThreadQueue.step_deQueue hs.queue hq
    simp only [hok]
    refine work_reader (k := k) (c := .popped p) rfl rfl ?_
    simp only [ReaderPc.work]
    omega
  | copy k =>
    obtain ⟨c, hc, rfl⟩ := Option.map_eq_some_iff.mp ht
    exact work_reader rfl rfl (Nat.add_lt_add_right (copy_work hc) _)
  | release k =>
    rw [RecvThread.step] at ht
    split at ht
    · next q x hr =>
      obtain rfl := Option.some.inj ht
      refine work_reader (k := k) (c := .outside) rfl rfl ?_
      simp [hr, ReaderPc.work]
    all_goals cases ht

end Steps

section Keeping

variable [Fintype κ] [DecidableEq κ] {s t : State κ} {h : Holder κ} {a : Action κ}

lemma Tidy.queue {q : ThreadQueue.State (Option κ) ℕ}
    {b : ThreadQueue.Action (Option κ) ℕ} (hs : Tidy s) (hq : ThreadQueue.step s.queue b = some q)
    (hp : ∀ i, Place s.receiver s.reader i (q.pc i)) : Tidy { s with queue := q } :=
  ⟨hs.announced.step hq, hp, hs.live⟩

lemma Tidy.step (hs : Tidy s) (hh : HeldBy s h) (hd : DecodesToData s a)
    (ht : RecvThread.step s a = some t) : Tidy t := by
  cases a with
  | recv b d =>
    rw [RecvThread.step] at ht
    split at ht
    · next hr =>
      split_ifs at ht with hidle
      split at ht
      · obtain rfl := Option.some.inj ht
        exact { hs with placed := placed_receiver hs.placed hidle }
      all_goals
        obtain rfl := Option.some.inj ht
        exact hs
    all_goals cases ht
  | acquire =>
    rw [RecvThread.step] at ht
    split at ht
    · next c hr =>
      obtain ⟨⟨i, A⟩, hA, rfl⟩ := Option.map_eq_some_iff.mp ht
      have hidle := idle_of_receiver hs.placed (by rw [hr]; simp)
      refine ⟨hs.announced, placed_receiver hs.placed hidle, fun p hp => ?_⟩
      exact (EntityArray.acquire_owned hA).trans (hs.live p hp)
    all_goals cases ht
  | prepare p =>
    rw [RecvThread.step] at ht
    split at ht
    · next c i hr =>
      have hidle := idle_of_receiver hs.placed (by rw [hr]; simp)
      have hrec := hh.receiver
      rw [hr] at hrec
      obtain ⟨_, rfl, hdec⟩ := hrec.acquired
      obtain ⟨o, he, _⟩ := hh.entity
      split at ht
      · split_ifs at ht
        obtain rfl := Option.some.inj ht
        refine ⟨hs.announced, placed_receiver hs.placed hidle, fun q hq => ?_⟩
        change Function.update (s.clear 0) p _ q ≠ none at hq
        rw [Function.update_apply] at hq
        split_ifs at hq with hqp
        · rw [hqp]
          exact EntityArray.hold_owned (by rw [he]; rfl)
        · exact absurd (hs.clear q) hq
      · next hprep =>
        obtain ⟨m, hm⟩ := hdec.prepare
        rw [hm] at hprep
        cases hprep
    all_goals cases ht
  | decode =>
    rw [RecvThread.step] at ht
    split at ht
    · next c p hr =>
      have hidle := idle_of_receiver hs.placed (by rw [hr]; simp)
      split at ht
      · obtain rfl := Option.some.inj ht
        refine ⟨hs.announced, placed_receiver hs.placed hidle, fun q hq => hs.live q ?_⟩
        rintro hnone
        change Function.update s.memory p _ q ≠ none at hq
        rw [Function.update_apply] at hq
        split_ifs at hq with hqp
        · rw [← hqp, hnone] at hq
          exact hq rfl
        · exact hq hnone
      all_goals
        obtain rfl := Option.some.inj ht
        exact { hs with placed := placed_receiver hs.placed hidle }
    all_goals cases ht
  | enQueue =>
    rw [RecvThread.step] at ht
    split at ht
    · next p hr =>
      obtain ⟨q, hq, rfl⟩ := Option.map_eq_some_iff.mp ht
      have hidle := idle_of_receiver hs.placed (by rw [hr]; simp)
      refine ⟨hs.announced.step hq, ?_, hs.live⟩
      rw [ThreadQueue.step, if_pos hidle] at hq
      obtain rfl := Option.some.inj hq
      exact placed_update (placed_receiver hs.placed hidle) (.inr ⟨.inl rfl, rfl⟩)
    all_goals cases ht
  | produce =>
    obtain ⟨q, hq, rfl⟩ := Option.map_eq_some_iff.mp ht
    refine hs.queue hq ?_
    rw [ThreadQueue.step] at hq
    split_ifs at hq with hi
    obtain rfl := Option.some.inj hq
    refine placed_update hs.placed (.inr ⟨.inr rfl, ?_⟩)
    rcases hs.placed none with hidle | ⟨_, hrec⟩
    · rw [hi] at hidle
      cases hidle
    · exact hrec
  | signal j =>
    obtain ⟨q, hq, rfl⟩ := Option.map_eq_some_iff.mp ht
    refine hs.queue hq ?_
    cases j with
    | none =>
      rw [Option.map_none, ThreadQueue.step] at hq
      split_ifs at hq
      obtain rfl := Option.some.inj hq
      exact placed_update hs.placed (.inl rfl)
    | some k =>
      rw [Option.map_some, ThreadQueue.step] at hq
      split_ifs at hq with hi
      obtain rfl := Option.some.inj hq
      refine placed_update (placed_update hs.placed (.inl rfl)) (.inr ⟨.inr (.inl rfl), ?_⟩)
      rcases hs.placed (some k) with hidle | ⟨_, hout⟩
      · rw [hi.2] at hidle
        cases hidle
      · exact hout
  | consume k =>
    rw [RecvThread.step] at ht
    split_ifs at ht with hout
    obtain ⟨q, hq, rfl⟩ := Option.map_eq_some_iff.mp ht
    refine hs.queue hq ?_
    rw [ThreadQueue.step] at hq
    split_ifs at hq
    · obtain rfl := Option.some.inj hq
      exact placed_update hs.placed (.inr ⟨.inl rfl, hout⟩)
    · obtain rfl := Option.some.inj hq
      exact placed_update hs.placed (.inr ⟨.inr (.inr rfl), hout⟩)
  | wake k =>
    obtain ⟨q, hq, rfl⟩ := Option.map_eq_some_iff.mp ht
    refine hs.queue hq ?_
    rw [ThreadQueue.step] at hq
    split_ifs at hq with hi
    obtain rfl := Option.some.inj hq
    refine placed_update hs.placed (.inr ⟨.inr (.inl rfl), ?_⟩)
    rcases hs.placed (some k) with hidle | ⟨_, hout⟩
    · rw [hi] at hidle
      cases hidle
    · exact hout
  | deQueue k =>
    obtain ⟨q, hq, rfl⟩ := Option.map_eq_some_iff.mp ht
    have hann := hs.announced.step hq
    rw [ThreadQueue.step] at hq
    split_ifs at hq with hi
    obtain ⟨⟨p, q'⟩, hok⟩ := hh.queue.deQueue_some hi
    simp only [hok] at hq ⊢
    obtain rfl := Option.some.inj hq
    refine ⟨hann, placed_reader (placed_update hs.placed (.inl rfl)) ?_, hs.live⟩
    exact Function.update_self _ _ _
  | copy k =>
    obtain ⟨c, hc, rfl⟩ := Option.map_eq_some_iff.mp ht
    have hidle : s.queue.pc (some k) = .idle := by
      refine idle_of_reader hs.placed fun hout => ?_
      rw [hout] at hc
      cases hc
    exact { hs with placed := placed_reader hs.placed hidle }
  | release k =>
    rw [RecvThread.step] at ht
    split at ht
    · next p m hr =>
      obtain rfl := Option.some.inj ht
      have hidle := idle_of_reader hs.placed (by rw [hr]; simp : s.reader k ≠ .outside)
      refine ⟨hs.announced, placed_reader hs.placed hidle, fun q hq => ?_⟩
      exact (EntityArray.release_owned _ _).trans (hs.live q hq)
    all_goals cases ht

end Keeping

section Readers

variable [Fintype κ] {s : State κ} {h : Holder κ}

def Reading (s : State κ) : Prop :=
  s.queue.pc none = .idle ∧ ∀ k, s.reader k = .outside ∧ s.queue.pc (some k) = .waiting

lemma Reading.empty [Nonempty κ] (hr : Reading s) (hs : HeldBy s h) (ht : Tidy s) :
    h.nodes = [] := by
  obtain ⟨k⟩ := ‹Nonempty κ›
  have hrested : ThreadQueue.Rested s.queue := by
    rintro (_ | k)
    · exact .inl hr.1
    · exact .inr (hr.2 k).2
  rw [← hs.nodes]
  exact ht.announced.empty hs.queue hrested (hr.2 k).2

lemma Reading.idle (hr : Reading s) (hs : HeldBy s h) : h.thread = none := by
  have hreader := hs.reader
  cases h with
  | reading k p m =>
    have hk : (s.reader k).Copies p m := hreader
    rw [(hr.2 k).1] at hk
    exact hk.elim
  | copied k p m =>
    have hk : s.reader k = .copied p m := hreader
    rw [(hr.2 k).1] at hk
    cases hk
  | nobody | acquired | prepared | decoded | queued => rfl

lemma Settled.copied [Nonempty κ] (hr : Settled s) (hs : HeldBy s h) (ht : Tidy s) :
    s.copies.map (fun c => MsgObject.data c.2) = s.decoded := by
  have hread : Reading s := ⟨hr.pushing, hr.readers⟩
  have hnodes := hread.empty hs ht
  have hidle := hread.idle hs
  have hrec := hs.receiver
  rw [hr.receiver] at hrec
  have hpending : h.pending = [] := by
    cases h with
    | nobody | acquired | prepared | copied => rfl
    | decoded => cases hrec
    | queued => cases hnodes
    | reading => cases hidle
  rw [hs.decoded, hpending, List.append_nil, List.map_map]
  rfl

end Readers

section Progress

variable [Fintype κ] [DecidableEq κ] {s t : State κ} {h : Holder κ}

lemma HeldBy.copies (hs : HeldBy s h) {k : κ} (hk : s.reader k ≠ .outside) :
    ∃ a t, Hands s a ∧ RecvThread.step s a = some t := by
  obtain ⟨p, m, ⟨_, hcopies⟩ | ⟨_, hcopied⟩⟩ := hs.reads hk
  · cases hr : s.reader k with
    | popped | copiedHead | copiedIP | copiedName =>
      refine ⟨.copy k, ?_⟩
      simp [Hands, RecvThread.step, hr, ReaderPc.copy]
    | outside | copied | undefined =>
      rw [hr] at hcopies
      exact hcopies.elim
  · refine ⟨.release k, ?_⟩
    simp [Hands, RecvThread.step, hcopied]

lemma Tidy.reads (hs : Tidy s) {k : κ} (hout : s.reader k = .outside)
    (hk : s.queue.pc (some k) ≠ .waiting) : ∃ a t, Hands s a ∧ RecvThread.step s a = some t := by
  have hconsume : s.queue.pc (some k) = .idle ∨ s.queue.pc (some k) = .woken →
      ∃ a t, Hands s a ∧ RecvThread.step s a = some t := by
    intro hpc
    obtain ⟨q, hq⟩ := ThreadQueue.consume_enabled hpc
    refine ⟨.consume k, { s with queue := q }, trivial, ?_⟩
    rw [RecvThread.step, if_pos hout, hq]
    rfl
  rcases hs.placed (some k) with hidle | ⟨hwait | hwoken | hconsumed, _⟩
  · exact hconsume (.inl hidle)
  · exact absurd hwait hk
  · exact hconsume (.inr hwoken)
  · obtain ⟨q, hq⟩ := ThreadQueue.deQueue_enabled hconsumed
    refine ⟨.deQueue k, ?_⟩
    simp [Hands, RecvThread.step, hq]

lemma Tidy.pushes (hs : Tidy s) (hk : s.queue.pc none ≠ .idle) :
    ∃ a t, Hands s a ∧ RecvThread.step s a = some t := by
  rcases hs.placed none with hidle | ⟨hpushed | hsignalling, _⟩
  · exact absurd hidle hk
  · refine ⟨.produce, ?_⟩
    simp [Hands, RecvThread.step, ThreadQueue.step, hpushed]
  · obtain ⟨j, q, hq⟩ := ThreadQueue.signal_enabled hsignalling
    -- the thread that is woken is not the receive thread, which never waits
    have hj : ∃ l : Option κ, j = l.map some := by
      cases j with
      | none => exact ⟨none, rfl⟩
      | some j =>
        cases j with
        | none =>
          rw [ThreadQueue.step] at hq
          split_ifs at hq with hg
          rw [hsignalling] at hg
          cases hg.2
        | some k => exact ⟨some k, rfl⟩
    obtain ⟨l, rfl⟩ := hj
    refine ⟨.signal l, { s with queue := q }, trivial, ?_⟩
    rw [RecvThread.step, hq]
    rfl

lemma Tidy.progress [Nonempty κ] (ht : Tidy s) (hs : HeldBy s h) :
    Settled s ∨ ∃ a t, Hands s a ∧ RecvThread.step s a = some t := by
  by_cases hread : Reading s
  · cases hr : s.receiver with
    | receiving => exact .inl ⟨hr, hread.1, hread.2⟩
    | acquiring c =>
      obtain ⟨o, he, _⟩ := hs.entity
      have hrec := hs.receiver
      have hnodes := hread.empty hs ht
      have hidle := hread.idle hs
      rw [hr] at hrec
      have hfree : h = .nobody := by
        cases h with
        | nobody => rfl
        | acquired =>
          obtain ⟨_, hc, _⟩ := hrec
          cases hc
        | prepared =>
          obtain ⟨_, hc, _⟩ := hrec
          cases hc
        | decoded => cases hrec
        | queued => cases hnodes
        | reading | copied => cases hidle
      subst hfree
      refine .inr ⟨.acquire, ?_⟩
      simp [Hands, RecvThread.step, hr, he, EntityArray.acquireEntity,
        EntityArray.searchAvailableEntity, Holder.occupied]
    | acquired c i =>
      have hrec := hs.receiver
      rw [hr] at hrec
      obtain ⟨_, rfl, hdec⟩ := hrec.acquired
      obtain ⟨m, hm⟩ := hdec.prepare
      refine .inr ⟨.prepare 0, ?_⟩
      simp [Hands, RecvThread.step, hr, hm, ht.clear]
    | prepared c p =>
      refine .inr ⟨.decode, ?_⟩
      rw [RecvThread.step, hr]
      simp only
      split
      · exact ⟨_, trivial, rfl⟩
      · exact ⟨_, trivial, rfl⟩
      · exact ⟨_, trivial, rfl⟩
    | decoded p =>
      refine .inr ⟨.enQueue, ?_⟩
      simp [Hands, RecvThread.step, hr, ThreadQueue.step, hread.1]
    | undefined => exact absurd hr hs.handedOver.defined
  · refine .inr ?_
    by_cases hpush : s.queue.pc none = .idle
    · rw [Reading, and_iff_right hpush, not_forall] at hread
      obtain ⟨k, hk⟩ := hread
      by_cases hout : s.reader k = .outside
      · exact ht.reads hout fun hw => hk ⟨hout, hw⟩
      · exact hs.copies hout
    · exact ht.pushes hpush

lemma Settled.stays (hr : Settled s) {a : Action κ} (ha : Hands s a) :
    RecvThread.step s a = none := by
  have hrec := hr.receiver
  have hnone := hr.pushing
  cases a with
  | recv | wake => exact ha.elim
  | acquire | prepare | decode | enQueue => simp [RecvThread.step, hrec]
  | produce => simp [RecvThread.step, ThreadQueue.step, hnone]
  | signal j => cases j <;> simp [RecvThread.step, ThreadQueue.step, hnone]
  | consume k | deQueue k => simp [RecvThread.step, ThreadQueue.step, (hr.readers k).2]
  | copy k => simp [RecvThread.step, (hr.readers k).1, ReaderPc.copy]
  | release k => simp [RecvThread.step, (hr.readers k).1]

end Progress

section Result

variable [Fintype κ] [DecidableEq κ] {s : State κ}

def Handing (s : State κ) : Prop := Tidy s ∧ ∃ h, HeldBy s h

lemma Handing.step {a : Action κ} {t : State κ} (hs : Handing s) (ha : DecodesToData s a)
    (ht : RecvThread.step s a = some t) : Handing t := by
  obtain ⟨htidy, h, hh⟩ := hs
  exact ⟨htidy.step hh ha ht, hh.step ha ht⟩

lemma handing_decreasing : Decreasing step Hands (Handing (κ := κ)) State.work := by
  rintro s a t hs ha ht
  obtain ⟨_, h, hh⟩ := id hs
  exact ⟨hs.step ha.decodesToData ht, hh.work_step ha ht⟩

instance (s : State κ) : (a : Action κ) → Decidable (Hands s a)
  | .recv .. | .wake _ => isFalse id
  | .acquire | .prepare _ | .decode | .enQueue | .produce | .signal _ | .consume _ | .deQueue _
  | .copy _ | .release _ => isTrue trivial

/-- When nothing new comes from the socket, the receive thread and the threads that call `RecvMsg`
can only make so many steps, and they cannot stand still before every message that was received has
been copied out. -/
theorem received_come_out [Nonempty κ] (h : Reaches step DecodesToData State.init s) :
    (∀ as t, execute step Hands s as = some t → as.length ≤ s.work) ∧
    (∃ t, Reaches step Hands s t ∧ Settled t) ∧
    ∀ t, Reaches step Hands s t →
      (Settled t ↔ ∀ a, Hands t a → step t a = none) ∧
      (Settled t → t.copies.map (fun c => MsgObject.data c.2) = t.decoded) := by
  have hs : Handing s := h.invariant (I := Handing) ⟨tidy_init, _, heldBy_init⟩
    fun _ _ _ hu ha hst => hu.step ha hst
  have hprog : Progressing step Hands (Handing (κ := κ)) Settled := by
    rintro u ⟨ht, _, hh⟩
    exact ht.progress hh
  refine ⟨fun as t ht => ?_, handing_decreasing.ends hprog hs, fun t ht => ?_⟩
  · exact (Nat.le_add_right _ _).trans (handing_decreasing.length_le hs ht)
  · have hinv : Handing t := ht.invariant hs fun u a v hu ha hst =>
      (handing_decreasing u a v hu ha hst).1
    obtain ⟨htidy, _, hh⟩ := id hinv
    refine ⟨⟨fun hr a ha => hr.stays ha, fun hstuck => ?_⟩, fun hr => hr.copied hh htidy⟩
    rcases hprog t hinv with hr | ⟨a, u, ha, hu⟩
    · exact hr
    · rw [hstuck a ha] at hu
      cases hu

theorem received_come_out_one : ∃ s : State (Fin 2), Reaches step DecodesToData State.init s ∧
    s.copies = [] ∧ (∃ t, Reaches step Hands s t ∧ Settled t) ∧
      ∀ as t, execute step Hands s as = some t → as.length ≤ 16 := by
  let b : RecvBuf := ⟨8192, [], by simp [serializeBufLen, General.Cursor.addressSpace]⟩
  have h : (execute step DecodesToData (State.init : State (Fin 2))
      [.consume 0, .recv b (shortData 7)]).map (fun s => (s.copies, s.work)) = some ([], 16) := by
    decide +kernel
  obtain ⟨s, hs, hc⟩ := reaches_of_execute_map h
  obtain ⟨hcopies, hwork⟩ := Prod.mk.inj hc
  obtain ⟨hbound, hends, _⟩ := received_come_out hs
  exact ⟨s, hs, hcopies, hends, fun as t ht => hwork ▸ hbound as t ht⟩

end Result

end Xty.Session.RecvThread
