import Xty.Session.SendThread

/-! What the send thread and `Exit` have still to do, when the program calls nothing more. -/

namespace Xty.Session

open Xty.Message

def Stage.remaining : Stage → ℕ
  | .acquiring => 4
  | .acquired => 3
  | .sending _ => 2
  | .passed => 1

namespace SendThread

def MainPc.remaining : MainPc → ℕ
  | .deRegistering p => 2 + p.remaining
  | .cleaning => 2
  | .joining => 1
  | .running | .raised _ | .exited => 0

def SenderMode.remaining : SenderMode → ℕ
  | .running => 1
  | .failed _ | .quit => 0

def Work.remaining (w : Work) : ℕ := w.elim 0 fun w => w.2.remaining

def State.remaining (s : State) : ℕ :=
  5 * s.sendMsgQueue.length + Work.remaining s.work + s.main.remaining + s.sender.remaining

/-- The program calls neither `SendMsg` nor `Exit`. -/
def Finishes : Action → Prop
  | .sendMsg _ | .exit => False
  | .pop | .advance | .deRegister | .kill | .quit _ | .join => True

section Remaining

variable {s t : State} {u v : SessionState} {d m : MsgObject} {p q : Stage} {a : Action}

lemma remaining_pos (p : Stage) : 0 < p.remaining := by
  cases p <;> simp [Stage.remaining]

lemma remaining_goOn (h : Advance u m p v (.goOn q)) : q.remaining < p.remaining := by
  cases h <;> simp [Stage.remaining]

lemma advance_queue {x : After} (h : Advance u m p v x) : v.sendMsgQueue = u.sendMsgQueue := by
  cases h <;> rfl

lemma remaining_sendJob {n : DataMsg} {r : SessionState × After} (hr : s.sender = .running)
    (hw : s.work = some (n, p)) (h : Advance s.toSessionState m p r.1 r.2) :
    (s.sendJob n r).remaining < s.remaining := by
  have hqueue := congrArg List.length (advance_queue h)
  obtain ⟨t, q | _ | x⟩ := r
  · have hlt := remaining_goOn h
    simp only [State.sendJob, State.remaining, hw, Work.remaining, Option.elim_some] at hqueue ⊢
    omega
  · have hpos := remaining_pos p
    simp only [State.sendJob, State.remaining, hw, Work.remaining, Option.elim_some,
      Option.elim_none] at hqueue ⊢
    omega
  · simp only [State.sendJob, State.remaining, hr, SenderMode.remaining] at hqueue ⊢
    omega

lemma remaining_deRegistered {r : SessionState × After} (hm : s.main = .deRegistering p)
    (h : Advance s.toSessionState m p r.1 r.2) : (s.deRegistered r).remaining < s.remaining := by
  have hqueue := congrArg List.length (advance_queue h)
  obtain ⟨t, q | _ | x⟩ := r
  · have hlt := remaining_goOn h
    simp only [State.deRegistered, State.remaining, hm, MainPc.remaining] at hqueue ⊢
    omega
  · have hpos := remaining_pos p
    simp only [State.deRegistered, State.remaining, hm, MainPc.remaining] at hqueue ⊢
    omega
  · simp only [State.deRegistered, State.remaining, hm, MainPc.remaining] at hqueue ⊢
    omega

lemma remaining_step (ha : Finishes a) (hs : step s a = some t) : t.remaining < s.remaining := by
  cases a with
  | sendMsg | exit => exact ha.elim
  | pop =>
    rw [step] at hs
    split_ifs at hs with hg
    split at hs
    · cases hs
    · next m ms hq =>
      obtain rfl := Option.some.inj hs
      simp only [State.remaining, hq, hg.1, Work.remaining, Option.elim_some, Option.elim_none,
        Stage.remaining, List.length_cons]
      omega
  | advance =>
    rw [step] at hs
    split_ifs at hs with hr
    obtain ⟨⟨n, p⟩, hw, hs⟩ := Option.bind_eq_some_iff.mp hs
    obtain ⟨r, hadv, rfl⟩ := Option.map_eq_some_iff.mp hs
    exact remaining_sendJob hr hw (advance_of_some hadv)
  | deRegister =>
    rw [step] at hs
    split_ifs at hs
    split at hs
    · next p hm =>
      obtain ⟨r, hadv, rfl⟩ := Option.map_eq_some_iff.mp hs
      exact remaining_deRegistered hm (advance_of_some hadv)
    all_goals cases hs
  | kill | join =>
    rw [step] at hs
    split_ifs at hs with hg
    obtain rfl := Option.some.inj hs
    simp [State.remaining, hg.1, MainPc.remaining]
  | quit n =>
    rw [step] at hs
    split_ifs at hs with hg
    obtain rfl := Option.some.inj hs
    simp [State.remaining, hg.2, SenderMode.remaining]

lemma submitted_finishes (ha : Finishes a) (hs : step s a = some t) :
    t.submitted = s.submitted := by
  cases a with
  | sendMsg | exit => exact ha.elim
  | pop =>
    rw [step] at hs
    split_ifs at hs
    split at hs
    · cases hs
    · obtain rfl := Option.some.inj hs
      rfl
  | advance =>
    rw [step] at hs
    split_ifs at hs
    obtain ⟨w, _, hs⟩ := Option.bind_eq_some_iff.mp hs
    obtain ⟨⟨u, q | _ | x⟩, _, rfl⟩ := Option.map_eq_some_iff.mp hs <;> rfl
  | deRegister =>
    rw [step] at hs
    split_ifs at hs
    split at hs
    · obtain ⟨⟨u, q | _ | x⟩, _, rfl⟩ := Option.map_eq_some_iff.mp hs <;> rfl
    all_goals cases hs
  | kill | quit | join =>
    rw [step] at hs
    split_ifs at hs
    obtain rfl := Option.some.inj hs
    rfl

end Remaining

section Standing

variable {s : State} {d m : MsgObject} {p : Stage}

lemma advance_enabled (u : SessionState) (m : MsgObject) (h : p.holds = true) :
    ∃ r, u.advance m p = some r := by
  cases p with
  | acquiring => cases h
  | acquired =>
    by_cases hfits : Fits m
    · exact ⟨_, advance_acquired hfits⟩
    · obtain ⟨x, hx⟩ := advance_raised (s := u) hfits
      exact ⟨_, hx⟩
  | sending | passed => exact ⟨_, rfl⟩

lemma acquire_enabled {u : SessionState} (m : MsgObject) (h : u.serializer.isOccupied = false) :
    ∃ r, u.advance m .acquiring = some r :=
  ⟨_, if_neg (Bool.eq_false_iff.mp h)⟩

lemma State.Inv.advances (h : s.Inv d) (hr : s.sender = .running) {w : DataMsg × Stage}
    (hw : s.work = some w) (hfree : s.main.holds = false) :
    ∃ t, SendThread.step s .advance = some t := by
  obtain ⟨n, p⟩ := w
  have hadv : ∃ r, s.toSessionState.advance (.data n) p = some r := by
    by_cases hp : p.holds = true
    · exact advance_enabled _ _ hp
    · have hocc := h.occupied
      rw [hw, hfree, Bool.or_false] at hocc
      cases p with
      | acquiring => exact acquire_enabled _ hocc
      | acquired | sending | passed => exact absurd rfl hp
  obtain ⟨r, hadv⟩ := hadv
  exact ⟨_, step_advance hr hw hadv⟩

/-- The send thread stands still only when it has written everything, or when `Exit` has kept the
entity because its own message was too long. -/
lemma State.Inv.standing (h : s.Inv d) (hr : s.sender = .running)
    (hstuck : ∀ a, Finishes a → SendThread.step s a = none) :
    (s.main = .running ∧ s.unsent = []) ∨ (∃ x, s.main = .raised x) ∨ s.main = .exited := by
  have hno : ∀ {a : Action}, Finishes a → ¬ ∃ t, SendThread.step s a = some t := by
    rintro a ha ⟨t, ht⟩
    rw [hstuck a ha] at ht
    cases ht
  cases hm : s.main with
  | raised x => exact .inr (.inl ⟨x, rfl⟩)
  | exited => exact .inr (.inr rfl)
  | cleaning => exact absurd ⟨_, if_pos ⟨hm, hr⟩⟩ (hno (a := .kill) trivial)
  | joining => exact absurd ⟨_, if_pos ⟨hm, hr⟩⟩ (hno (a := .quit 0) trivial)
  | running =>
    have hfree : s.main.holds = false := by
      rw [hm]
      rfl
    cases hw : s.work with
    | some w => exact absurd (h.advances hr hw hfree) (hno (a := .advance) trivial)
    | none =>
      cases hq : s.sendMsgQueue with
      | cons n ns => exact absurd ⟨_, step_pop hr hw hq⟩ (hno (a := .pop) trivial)
      | nil =>
        refine .inl ⟨rfl, ?_⟩
        rw [State.unsent, hw, hq]
        rfl
  | deRegistering p =>
    have hadv : ∃ r, s.toSessionState.advance s.deRegMsg p = some r := by
      by_cases hp : p.holds = true
      · exact advance_enabled _ _ hp
      · have hfree : s.main.holds = false := by
          rw [hm]
          exact Bool.eq_false_iff.mpr hp
        have hocc := h.occupied
        rw [hfree, Bool.or_false] at hocc
        cases hw : s.work with
        | some w => exact absurd (h.advances hr hw hfree) (hno (a := .advance) trivial)
        | none =>
          rw [hw] at hocc
          cases p with
          | acquiring => exact acquire_enabled _ hocc
          | acquired | sending | passed => exact absurd rfl hp
    obtain ⟨r, hadv⟩ := hadv
    refine absurd ⟨s.deRegistered r, ?_⟩ (hno (a := .deRegister) trivial)
    rw [SendThread.step, if_pos hr, hm]
    simp only [hadv, Option.map_some]

end Standing

end SendThread

end Xty.Session
