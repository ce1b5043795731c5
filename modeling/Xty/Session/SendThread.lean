import Xty.General.Runs
import Xty.Session.Sending

/-! `xtySession::SendMsg` and `Exit` against the send thread, which runs `xtySessionSendJob` until a
signal ends it. The serializer has one entity, and both threads need it. -/

namespace Xty.Session

open Xty.General.Runs Xty.General.LittleEndian Xty.General.Cursor
open Xty.Message
open Xty.Server (serialized_length)

/-- How far a thread is with one message, from `AcquireEntity` to `ReleaseEntity`. -/
inductive Stage where
  | acquiring
  | acquired
  | sending (data : Bytes)
  | passed
deriving DecidableEq, Repr

abbrev Fits (m : MsgObject) : Prop := m.encodedSize ≤ serializeBufLen

def Stage.holds : Stage → Bool
  | .acquiring => false
  | .acquired | .sending _ | .passed => true

def Stage.Ready (m : MsgObject) : Stage → Prop
  | .acquiring | .acquired => True
  | .sending data => data = m.encoding ∧ Fits m
  | .passed => Fits m

def Stage.isPassed : Stage → Bool
  | .acquiring | .acquired | .sending _ => false
  | .passed => true

/-- What `send` has written when the signal interrupts it. -/
def Stage.written (n : ℕ) : Stage → Bytes
  | .sending data => data.take n
  | .acquiring | .acquired | .passed => []

inductive After where
  | goOn (p : Stage)
  | done
  | raised (x : Failure ExceptionCode)

namespace SessionState

def setOccupied (s : SessionState) (b : Bool) : SessionState :=
  { s with serializer := { s.serializer with isOccupied := b } }

def deRegMsg (s : SessionState) : MsgObject :=
  .deReg ⟨⟨MsgType.deRegMsg.code, 0⟩, s.processName, s.processIP, s.processPort⟩

/-- `none` is a thread that waits for the entity. -/
def advance (s : SessionState) (m : MsgObject) : Stage → Option (SessionState × After)
  | .acquiring =>
    if s.serializer.isOccupied then none else some (s.setOccupied true, .goOn .acquired)
  | .acquired =>
    match s.serializer.serialize m with
    | .error x => some (s, .raised x)
    | .ok (data, m) =>
      if data.length ≠ m.head.msgLen.toNat then some (s, .done)
      else some (s, .goOn (.sending data))
  | .sending data => some ({ s with sent := data :: s.sent }, .goOn .passed)
  | .passed => some (s.setOccupied false, .done)

end SessionState

namespace SendThread

/-- An exception that leaves the job ends the process, there is no handler. -/
inductive SenderMode where
  | running
  | failed (x : Failure ExceptionCode)
  | quit
deriving DecidableEq

/-- The thread that calls `Exit`, from the time when `Start` has returned. -/
inductive MainPc where
  | running
  | deRegistering (p : Stage)
  | raised (x : Failure ExceptionCode)
  | cleaning
  | joining
  | exited
deriving DecidableEq

/-- Without `work` the send thread is in `PopMsg`. The last two fields record what has happened:
the calls of `SendMsg`, and the part of a message that was in the socket when the thread ended. -/
structure State extends SessionState where
  work : Option (DataMsg × Stage)
  sender : SenderMode
  main : MainPc
  submitted : List DataMsg
  cut : Bytes

inductive Action where
  | sendMsg (m : DataMsg)
  | pop
  | advance
  | exit
  | deRegister
  | kill
  | quit (n : ℕ)
  | join

def start (s : SessionState) : State where
  toSessionState := { s.setOccupied false with sendMsgQueue := [], sent := [] }
  work := none
  sender := .running
  main := .running
  submitted := []
  cut := []

def State.sendJob (s : State) (m : DataMsg) : SessionState × After → State
  | (t, .goOn q) => { s with toSessionState := t, work := some (m, q) }
  | (t, .done) => { s with toSessionState := t, work := none }
  | (t, .raised x) => { s with toSessionState := t, sender := .failed x }

-- A failed `DeRegister` is not noticed by `Exit`.
def State.deRegistered (s : State) : SessionState × After → State
  | (t, .goOn q) => { s with toSessionState := t, main := .deRegistering q }
  | (t, .done) => { s with toSessionState := t, main := .cleaning }
  | (t, .raised x) => { s with toSessionState := t, main := .raised x }

/-- The signal is handled at any time after `pthread_kill` and before `pthread_join` returns. -/
def step (s : State) : Action → Option State
  | .sendMsg m =>
    if s.main = .running ∧ s.sender = .running then
      some { s with sendMsgQueue := s.sendMsgQueue ++ [m], submitted := s.submitted ++ [m] }
    else none
  | .pop =>
    if s.work = none ∧ s.sender = .running then
      match s.sendMsgQueue with
      | [] => none
      | m :: ms => some { s with sendMsgQueue := ms, work := some (m, .acquiring) }
    else none
  | .advance =>
    if s.sender = .running then
      s.work.bind fun w => (s.toSessionState.advance (.data w.1) w.2).map (s.sendJob w.1)
    else none
  | .exit =>
    if s.main = .running ∧ s.sender = .running then
      some { s with main := .deRegistering .acquiring }
    else none
  | .deRegister =>
    if s.sender = .running then
      match s.main with
      | .deRegistering p => (s.toSessionState.advance s.deRegMsg p).map s.deRegistered
      | .running | .raised _ | .cleaning | .joining | .exited => none
    else none
  | .kill =>
    if s.main = .cleaning ∧ s.sender = .running then some { s with main := .joining } else none
  | .quit n =>
    if s.main = .joining ∧ s.sender = .running then
      some { s with sender := .quit, cut := s.work.elim [] fun w => Stage.written n w.2 }
    else none
  | .join =>
    if s.main = .joining ∧ s.sender = .quit then some { s with main := .exited } else none

def frame (m : DataMsg) : Bytes := (MsgObject.data m).encoding

def MainPc.holds : MainPc → Bool
  | .deRegistering p => p.holds
  | .raised _ => true
  | .running | .cleaning | .joining | .exited => false

def MainPc.written : MainPc → Bool
  | .deRegistering p => p.isPassed
  | .running | .raised _ => false
  | .cleaning | .joining | .exited => true

/-- The messages on both sides of the DeReg message in the socket, and those not yet written. -/
def Split (d : MsgObject) (written : Bool) (submitted unsent : List DataMsg) (sent : List Bytes) :
    Prop :=
  ∃ first after, submitted = first ++ after ++ unsent ∧
    sent.reverse = first.map frame ++ (if written then [d.encoding] else []) ++ after.map frame ∧
      (written = false → after = []) ∧ ∀ m ∈ first ++ after, Fits (.data m)

abbrev Work := Option (DataMsg × Stage)

def Work.holds (w : Work) : Bool := w.any fun w => w.2.holds

/-- The message that the send thread has taken out of the queue and not written. -/
def Work.inHand (w : Work) : List DataMsg := w.elim [] fun w => if w.2.isPassed then [] else [w.1]

namespace State

def unsent (s : State) : List DataMsg := Work.inHand s.work ++ s.sendMsgQueue

structure Inv (s : State) (d : MsgObject) : Prop where
  deReg : s.deRegMsg = d
  occupied : s.serializer.isOccupied = (Work.holds s.work || s.main.holds)
  apart : (Work.holds s.work && s.main.holds) = false
  ready : ∀ w, s.work = some w → w.2.Ready (.data w.1)
  readyMain : ∀ p, s.main = .deRegistering p → p.Ready d
  deRegFits : s.main.written = true → Fits d
  split : Split d s.main.written s.submitted s.unsent s.sent
  cut : s.cut = [] ∨
    s.sender = .quit ∧ ∃ m data, s.work = some (m, .sending data) ∧ s.cut <+: data

end State

section Steps

variable {s t : SessionState} {m : MsgObject} {p q : Stage} {x : Failure ExceptionCode}

inductive Advance (s : SessionState) (m : MsgObject) : Stage → SessionState → After → Prop where
  | acquire (h : s.serializer.isOccupied = false) :
    Advance s m .acquiring (s.setOccupied true) (.goOn .acquired)
  | serialize (h : Fits m) : Advance s m .acquired s (.goOn (.sending m.encoding))
  | raise (h : ¬ Fits m) (x : Failure ExceptionCode) : Advance s m .acquired s (.raised x)
  | send (data : Bytes) :
    Advance s m (.sending data) { s with sent := data :: s.sent } (.goOn .passed)
  | release : Advance s m .passed (s.setOccupied false) .done

lemma advance_of_some {r : SessionState × After} (h : s.advance m p = some r) :
    Advance s m p r.1 r.2 := by
  cases p with
  | acquiring =>
    rw [SessionState.advance] at h
    split_ifs at h with hfree
    obtain rfl := Option.some.inj h
    exact .acquire (Bool.eq_false_iff.mpr hfree)
  | acquired =>
    rw [SessionState.advance] at h
    split at h
    · next x hx =>
      obtain rfl := Option.some.inj h
      refine .raise (fun hfits => ?_) x
      rw [s.serializer.serialize_ok m hfits] at hx
      cases hx
    · next hser =>
      have hlen := serialized_length hser
      obtain ⟨rfl, rfl, hfits⟩ := SerializeEntity.serialize_inv hser
      rw [if_neg (not_not_intro hlen)] at h
      obtain rfl := Option.some.inj h
      exact .serialize hfits
  | sending data =>
    obtain rfl := Option.some.inj h
    exact .send data
  | passed =>
    obtain rfl := Option.some.inj h
    exact .release

lemma advance_acquired (h : Fits m) :
    s.advance m .acquired = some (s, .goOn (.sending m.encoding)) := by
  have hser := s.serializer.serialize_ok m h
  rw [SessionState.advance, hser]
  exact if_neg (not_not_intro (serialized_length hser))

lemma advance_raised (h : ¬ Fits m) : ∃ x, s.advance m .acquired = some (s, .raised x) := by
  rw [SessionState.advance]
  split
  · next x _ => exact ⟨x, rfl⟩
  · next hser => exact absurd (SerializeEntity.serialize_inv hser).2.2 h

end Steps

section Splitting

variable {d : MsgObject} {written : Bool} {submitted unsent : List DataMsg} {sent : List Bytes}
  {m : DataMsg}

lemma Split.submit (h : Split d written submitted unsent sent) (m : DataMsg) :
    Split d written (submitted ++ [m]) (unsent ++ [m]) sent := by
  obtain ⟨first, after, hsub, hrest⟩ := h
  exact ⟨first, after, by rw [hsub, List.append_assoc], hrest⟩

lemma Split.write (h : Split d written submitted (m :: unsent) sent) (hm : Fits (.data m)) :
    Split d written submitted unsent (frame m :: sent) := by
  obtain ⟨first, after, hsub, hsent, hbefore, hfits⟩ := h
  cases written with
  | true =>
    refine ⟨first, after ++ [m], ?_, ?_, nofun, ?_⟩
    · simp [hsub]
    · simp [hsent]
    · intro x hx
      rw [← List.append_assoc, List.mem_append, List.mem_singleton] at hx
      rcases hx with hx | rfl
      · exact hfits x hx
      · exact hm
  | false =>
    obtain rfl := hbefore rfl
    refine ⟨first ++ [m], [], ?_, ?_, fun _ => rfl, ?_⟩
    · simp [hsub]
    · simp [hsent]
    · intro x hx
      rw [List.append_nil, List.mem_append, List.mem_singleton] at hx
      rcases hx with hx | rfl
      · exact hfits x (List.mem_append_left _ hx)
      · exact hm

lemma Split.deRegister (h : Split d false submitted unsent sent) :
    Split d true submitted unsent (d.encoding :: sent) := by
  obtain ⟨first, after, hsub, hsent, hbefore, hfits⟩ := h
  obtain rfl := hbefore rfl
  refine ⟨first, [], hsub, ?_, nofun, hfits⟩
  rw [List.reverse_cons, hsent]
  simp

end Splitting

section Invariant

variable {s t : State} {m : DataMsg} {d : MsgObject}

lemma inv_start (s : SessionState) : (start s).Inv s.deRegMsg where
  deReg := rfl
  occupied := rfl
  apart := rfl
  ready := nofun
  readyMain := nofun
  deRegFits := nofun
  split := ⟨[], [], rfl, rfl, fun _ => rfl, by simp⟩
  cut := .inl rfl

lemma State.Inv.cut_running (h : s.Inv d) (hr : s.sender = .running) : s.cut = [] := by
  rcases h.cut with hc | ⟨hq, _⟩
  · exact hc
  · rw [hr] at hq
    cases hq

lemma State.Inv.sendJob {r : SessionState × After} {p : Stage} (h : s.Inv d)
    (hr : s.sender = .running) (hw : s.work = some (m, p))
    (ha : Advance s.toSessionState (.data m) p r.1 r.2) : (s.sendJob m r).Inv d := by
  have hcut := h.cut_running hr
  obtain ⟨s, work, sender, main, submitted, cut⟩ := s
  obtain ⟨t, a⟩ := r
  cases hw
  cases hr
  have hocc := h.occupied
  have happ := h.apart
  have hready : p.Ready (.data m) := h.ready _ rfl
  cases ha with
  | acquire hfree =>
    have hmain : main.holds = false := (hfree.symm.trans hocc).symm
    exact ⟨h.deReg, rfl, hmain, fun w hw => by cases hw; trivial, h.readyMain, h.deRegFits, h.split,
      .inl hcut⟩
  | serialize hfits =>
    exact ⟨h.deReg, hocc, happ, fun w hw => by cases hw; exact ⟨rfl, hfits⟩, h.readyMain,
      h.deRegFits, h.split, .inl hcut⟩
  | raise hfits x =>
    exact ⟨h.deReg, hocc, happ, h.ready, h.readyMain, h.deRegFits, h.split, .inl hcut⟩
  | send data =>
    obtain ⟨hdata, hfits⟩ := hready
    subst hdata
    exact ⟨h.deReg, hocc, happ, fun w hw => by cases hw; exact hfits, h.readyMain, h.deRegFits,
      Split.write h.split hfits, .inl hcut⟩
  | release =>
    have hmain : main.holds = false := happ
    exact ⟨h.deReg, hmain.symm, rfl, nofun, h.readyMain, h.deRegFits, h.split, .inl hcut⟩

lemma State.Inv.deRegistered {r : SessionState × After} {p : Stage} (h : s.Inv d)
    (hr : s.sender = .running) (hm : s.main = .deRegistering p)
    (ha : Advance s.toSessionState d p r.1 r.2) : (s.deRegistered r).Inv d := by
  have hcut := h.cut_running hr
  obtain ⟨s, work, sender, main, submitted, cut⟩ := s
  obtain ⟨t, a⟩ := r
  cases hm
  cases hr
  have hocc := h.occupied
  have happ := h.apart
  have hready : p.Ready d := h.readyMain _ rfl
  cases ha with
  | acquire hfree =>
    have hsender : Work.holds work = false :=
      (Bool.or_false _).symm.trans (hocc.symm.trans hfree)
    exact ⟨h.deReg, (Bool.or_true _).symm, (Bool.and_true _).trans hsender, h.ready,
      fun w hw => by cases hw; trivial, nofun, h.split, .inl hcut⟩
  | serialize hfits =>
    exact ⟨h.deReg, hocc, happ, h.ready, fun w hw => by cases hw; exact ⟨rfl, hfits⟩, h.deRegFits,
      h.split, .inl hcut⟩
  | raise hfits x =>
    exact ⟨h.deReg, hocc, happ, h.ready, nofun, nofun, h.split, .inl hcut⟩
  | send data =>
    obtain ⟨hdata, hfits⟩ := hready
    subst hdata
    exact ⟨h.deReg, hocc, happ, h.ready, fun w hw => by cases hw; exact hfits, fun _ => hfits,
      Split.deRegister h.split, .inl hcut⟩
  | release =>
    have hsender : Work.holds work = false := (Bool.and_true _).symm.trans happ
    exact ⟨h.deReg, hsender.symm.trans (Bool.or_false _).symm, Bool.and_false _, h.ready, nofun,
      fun _ => hready, h.split, .inl hcut⟩

lemma State.Inv.goto {c : MainPc} (h : s.Inv d) (hh : c.holds = s.main.holds)
    (hw : c.written = s.main.written) (hr : ∀ p, c = .deRegistering p → p.Ready d) :
    Inv { s with main := c } d where
  deReg := h.deReg
  occupied := h.occupied.trans (by rw [hh])
  apart := Eq.trans (by rw [hh]) h.apart
  ready := h.ready
  readyMain := hr
  deRegFits hc := h.deRegFits (hw.symm.trans hc)
  split := by
    have hsplit := h.split
    rw [← hw] at hsplit
    exact hsplit
  cut := h.cut

lemma State.Inv.quit (h : s.Inv d) (n : ℕ) :
    State.Inv { s with sender := .quit, cut := s.work.elim [] fun w => Stage.written n w.2 } d := by
  refine ⟨h.deReg, h.occupied, h.apart, h.ready, h.readyMain, h.deRegFits, h.split, ?_⟩
  obtain ⟨s, work, sender, main, submitted, cut⟩ := s
  rcases work with _ | ⟨m, p⟩
  · exact .inl rfl
  · cases p with
    | acquiring | acquired | passed => exact .inl rfl
    | sending data => exact .inr ⟨rfl, m, data, rfl, List.take_prefix n data⟩

lemma State.Inv.step {a : Action} (h : s.Inv d) (hs : SendThread.step s a = some t) : t.Inv d := by
  cases a with
  | sendMsg m =>
    rw [SendThread.step] at hs
    split_ifs at hs with hg
    obtain rfl := Option.some.inj hs
    refine ⟨h.deReg, h.occupied, h.apart, h.ready, h.readyMain, h.deRegFits, ?_, h.cut⟩
    rw [State.unsent, ← List.append_assoc]
    exact h.split.submit m
  | pop =>
    rw [SendThread.step] at hs
    split_ifs at hs with hg
    split at hs
    · cases hs
    · next m ms hq =>
      obtain rfl := Option.some.inj hs
      obtain ⟨s, work, sender, main, submitted, cut⟩ := s
      obtain ⟨hw, hr⟩ := hg
      cases hw
      have hsplit := h.split
      rw [State.unsent, hq] at hsplit
      exact ⟨h.deReg, h.occupied, h.apart, fun w hw => by cases hw; trivial, h.readyMain,
        h.deRegFits, hsplit, .inl (h.cut_running hr)⟩
  | advance =>
    rw [SendThread.step] at hs
    split_ifs at hs with hg
    obtain ⟨⟨m, p⟩, hw, hs⟩ := Option.bind_eq_some_iff.mp hs
    obtain ⟨r, hr, rfl⟩ := Option.map_eq_some_iff.mp hs
    exact h.sendJob hg hw (advance_of_some hr)
  | exit =>
    rw [SendThread.step] at hs
    split_ifs at hs with hg
    obtain rfl := Option.some.inj hs
    exact h.goto (by rw [hg.1]; rfl) (by rw [hg.1]; rfl) fun q hq => by cases hq; trivial
  | deRegister =>
    rw [SendThread.step] at hs
    split_ifs at hs with hg
    split at hs
    · next p hp =>
      obtain ⟨r, hr, rfl⟩ := Option.map_eq_some_iff.mp hs
      rw [h.deReg] at hr
      exact h.deRegistered hg hp (advance_of_some hr)
    all_goals cases hs
  | kill =>
    rw [SendThread.step] at hs
    split_ifs at hs with hg
    obtain rfl := Option.some.inj hs
    exact h.goto (by rw [hg.1]; rfl) (by rw [hg.1]; rfl) nofun
  | quit n =>
    rw [SendThread.step] at hs
    split_ifs at hs with hg
    obtain rfl := Option.some.inj hs
    exact h.quit n
  | join =>
    rw [SendThread.step] at hs
    split_ifs at hs with hg
    obtain rfl := Option.some.inj hs
    exact h.goto (by rw [hg.1]; rfl) (by rw [hg.1]; rfl) nofun

lemma inv_of_reaches {C : State → Action → Prop} {u : SessionState}
    (h : Reaches SendThread.step C (start u) s) : s.Inv u.deRegMsg :=
  Reaches.invariant (I := fun t => t.Inv u.deRegMsg) h (inv_start u)
    fun _ _ _ hs _ hstep => hs.step hstep

end Invariant

section Rounds

variable {C : State → Action → Prop} {s t : State} {u v : SessionState} {p : Stage}

lemma transmit_run (inside : SessionState → Stage → State) (done : SessionState → State)
    (msg : SessionState → MsgObject) (hmsg : ∀ u b, msg (u.setOccupied b) = msg u)
    (hgo : ∀ u v p q, u.advance (msg u) p = some (v, .goOn q) →
      Reaches step C (inside u p) (inside v q))
    (hdone : ∀ u v p, u.advance (msg u) p = some (v, .done) → Reaches step C (inside u p) (done v))
    (hfits : Fits (msg u)) (hready : p.Ready (msg u))
    (hfree : p = .acquiring → u.serializer.isOccupied = false) :
    Reaches step C (inside u p) (done { u.setOccupied false with
      sent := if p.isPassed then u.sent else (msg u).encoding :: u.sent }) := by
  have passed : ∀ u, Reaches step C (inside u .passed) (done (u.setOccupied false)) :=
    fun u => hdone _ _ _ rfl
  have sending : ∀ u data, Reaches step C (inside u (.sending data))
      (done { u.setOccupied false with sent := data :: u.sent }) :=
    fun u data => (hgo u { u with sent := data :: u.sent } _ _ rfl).trans (passed _)
  have acquired : ∀ u, Fits (msg u) → Reaches step C (inside u .acquired)
      (done { u.setOccupied false with sent := (msg u).encoding :: u.sent }) :=
    fun u hu => (hgo u _ _ _ (advance_acquired hu)).trans (sending _ _)
  cases p with
  | acquiring =>
    have hadv : u.advance (msg u) .acquiring = some (u.setOccupied true, .goOn .acquired) :=
      if_neg (Bool.eq_false_iff.mp (hfree rfl))
    have hrest := acquired (u.setOccupied true) (by rwa [hmsg])
    rw [hmsg] at hrest
    exact (hgo _ _ _ _ hadv).trans hrest
  | acquired => exact acquired u hfits
  | sending data =>
    obtain ⟨rfl, _⟩ := hready
    exact sending u _
  | passed => exact passed u

def SenderOnly (_ : State) : Action → Prop
  | .pop | .advance => True
  | .sendMsg _ | .exit | .deRegister | .kill | .quit _ | .join => False

lemma step_advance {m : DataMsg} {r : SessionState × After} (hr : s.sender = .running)
    (hw : s.work = some (m, p)) (ha : s.toSessionState.advance (.data m) p = some r) :
    step s .advance = some (s.sendJob m r) := by
  rw [step, if_pos hr, hw, Option.bind_some, ha]
  rfl

lemma finish_work {m : DataMsg} (hr : s.sender = .running) (hw : s.work = some (m, p))
    (hfits : Fits (.data m)) (hready : p.Ready (.data m))
    (hfree : p = .acquiring → s.serializer.isOccupied = false) :
    Reaches step SenderOnly s { s with
      toSessionState := { s.setOccupied false with
        sent := if p.isPassed then s.sent else frame m :: s.sent }
      work := none } := by
  have h := transmit_run (C := SenderOnly)
    (fun u p => { s with toSessionState := u, work := some (m, p) })
    (fun u => { s with toSessionState := u, work := none }) (fun _ => .data m) (fun _ _ => rfl)
    (fun u v p q ha => .single ⟨.advance, trivial,
      step_advance (s := { s with toSessionState := u, work := some (m, p) }) hr rfl ha⟩)
    (fun u v p ha => .single ⟨.advance, trivial,
      step_advance (s := { s with toSessionState := u, work := some (m, p) }) hr rfl ha⟩)
    hfits hready hfree
  rw [← hw] at h
  exact h

lemma step_pop {m : DataMsg} {ms : List DataMsg} (hr : s.sender = .running) (hw : s.work = none)
    (hq : s.sendMsgQueue = m :: ms) :
    step s .pop = some { s with sendMsgQueue := ms, work := some (m, .acquiring) } := by
  rw [step, if_pos ⟨hw, hr⟩, hq]

lemma setOccupied_eq {b : Bool} (h : u.serializer.isOccupied = b) : u.setOccupied b = u := by
  subst h
  rfl

lemma runSendJob_fits {m : DataMsg} {ms : List DataMsg} (hfree : u.serializer.isOccupied = false)
    (hq : u.sendMsgQueue = m :: ms) (hfits : Fits (.data m)) :
    u.runSendJob = some (.ok (.passedToSend, { u with
      sendMsgQueue := ms
      sent := frame m :: u.sent })) := by
  have hser := u.serializer.serialize_ok (.data m) hfits
  rw [SessionState.runSendJob, hq]
  simp only [SessionState.transmit, hfree, hser]
  exact if_neg (not_not_intro (serialized_length hser))

lemma runSendJob_inv (h : u.runSendJob = some (.ok (.passedToSend, v))) :
    ∃ m ms, u.sendMsgQueue = m :: ms ∧ u.serializer.isOccupied = false ∧ Fits (.data m) ∧
      v = { u with sendMsgQueue := ms, sent := frame m :: u.sent } := by
  rw [SessionState.runSendJob] at h
  split at h
  · cases h
  · next m ms hq =>
    rw [SessionState.transmit] at h
    split_ifs at h with hocc
    split at h
    · cases h
    · next hser =>
      have hlen := serialized_length hser
      obtain ⟨rfl, rfl, hfits⟩ := SerializeEntity.serialize_inv hser
      rw [if_neg (not_not_intro hlen)] at h
      cases h
      exact ⟨m, ms, hq, Bool.eq_false_iff.mpr hocc, hfits, rfl⟩

lemma runSendJob_run (hr : s.sender = .running) (hw : s.work = none)
    (h : s.toSessionState.runSendJob = some (.ok (.passedToSend, v))) :
    Reaches step SenderOnly s { s with toSessionState := v } := by
  obtain ⟨m, ms, hq, hfree, hfits, rfl⟩ := runSendJob_inv h
  have hround := finish_work (s := { s with sendMsgQueue := ms, work := some (m, .acquiring) })
    hr rfl hfits trivial fun _ => hfree
  rw [setOccupied_eq (u := { s.toSessionState with sendMsgQueue := ms }) hfree, ← hw] at hround
  exact .head ⟨.pop, trivial, step_pop hr hw hq⟩ hround

lemma drain {ms rest : List DataMsg} (hr : s.sender = .running) (hw : s.work = none)
    (hfree : s.serializer.isOccupied = false) (hq : s.sendMsgQueue = ms ++ rest)
    (hfits : ∀ m ∈ ms, Fits (.data m)) :
    Reaches step SenderOnly s { s with
      sendMsgQueue := rest
      sent := (ms.map frame).reverse ++ s.sent } := by
  induction ms generalizing s with
  | nil =>
    rw [List.nil_append] at hq
    rw [← hq]
    exact .refl
  | cons m ms ih =>
    have hfirst := runSendJob_fits hfree hq (hfits m List.mem_cons_self)
    have hrest := ih (s := { s with sendMsgQueue := ms ++ rest, sent := frame m :: s.sent })
      hr hw hfree rfl fun x hx => hfits x (List.mem_cons_of_mem m hx)
    refine (runSendJob_run hr hw hfirst).trans ?_
    rw [List.map_cons, List.reverse_cons, List.append_assoc]
    exact hrest

def Submits (ms : List DataMsg) (s : State) : Action → Prop
  | .sendMsg m => s.submitted ++ [m] <+: ms
  | .pop | .advance => True
  | .exit | .deRegister | .kill | .quit _ | .join => False

lemma SenderOnly.submits {a : Action} (ms : List DataMsg) (h : SenderOnly s a) :
    Submits ms s a := by
  cases a with
  | pop | advance => trivial
  | sendMsg | exit | deRegister | kill | quit | join => exact h.elim

lemma submit_run {ms all : List DataMsg} (hm : s.main = .running) (hr : s.sender = .running)
    (hall : s.submitted ++ ms <+: all) :
    Reaches step (Submits all) s { s with
      sendMsgQueue := s.sendMsgQueue ++ ms
      submitted := s.submitted ++ ms } := by
  induction ms generalizing s with
  | nil =>
    rw [List.append_nil, List.append_nil]
    exact .refl
  | cons m ms ih =>
    rw [List.append_cons] at hall
    have hrest := ih (s := { s with
      sendMsgQueue := s.sendMsgQueue ++ [m]
      submitted := s.submitted ++ [m] }) hm hr hall
    rw [← List.append_cons, ← List.append_cons] at hrest
    refine .head ⟨.sendMsg m, ?_, if_pos ⟨hm, hr⟩⟩ hrest
    exact (List.prefix_append _ _).trans hall

end Rounds

section Isolation

/-- What is written and what is going to be are the messages that fit, and the thread can go on
until all of them are written. -/
structure Isolated (s : State) : Prop where
  survives : s.sender = .running
  frames : s.sent.reverse ++ (s.unsent.filter fun m => Fits (.data m)).map frame
    = (s.submitted.filter fun m => Fits (.data m)).map frame
  entityFree : s.work = none → s.serializer.isOccupied = false
  goesOn : ∃ t, Reaches step SenderOnly s t ∧ t.submitted = s.submitted ∧
    t.sent.reverse = (s.submitted.filter fun m => Fits (.data m)).map frame

lemma written_all {s : State} {d : MsgObject} (h : s.Inv d) (hr : s.sender = .running)
    (hm : s.main = .running) (hfits : ∀ m ∈ s.unsent, Fits (.data m)) :
    ∃ t, Reaches step SenderOnly s t ∧ t.submitted = s.submitted ∧
      t.sent.reverse = s.sent.reverse ++ s.unsent.map frame := by
  have hocc := h.occupied
  have hqueue : ∀ m ∈ s.sendMsgQueue, Fits (.data m) :=
    fun m hm => hfits m (List.mem_append_right _ hm)
  have hq := (List.append_nil s.sendMsgQueue).symm
  cases hw : s.work with
  | none =>
    rw [hw, hm] at hocc
    refine ⟨_, drain hr hw hocc hq hqueue, rfl, ?_⟩
    simp [State.unsent, hw, Work.inHand]
  | some w =>
    obtain ⟨m, p⟩ := w
    have hready := h.ready _ hw
    have hfit : Fits (.data m) := by
      cases p with
      | acquiring | acquired =>
        exact hfits m (by simp [State.unsent, hw, Work.inHand, Stage.isPassed])
      | sending => exact hready.2
      | passed => exact hready
    have hfree : p = .acquiring → s.serializer.isOccupied = false := by
      rintro rfl
      rw [hw, hm] at hocc
      exact hocc
    have hfinish := finish_work hr hw hfit hready hfree
    refine ⟨_, hfinish.trans (drain hr rfl rfl hq hqueue), rfl, ?_⟩
    cases p with
    | acquiring | acquired | sending | passed =>
      simp [State.unsent, hw, Work.inHand, Stage.isPassed]

structure Sending (ms : List DataMsg) (s : State) (d : MsgObject) : Prop where
  inv : s.Inv d
  survives : s.sender = .running
  staying : s.main = .running
  given : s.submitted <+: ms

lemma Sending.isolated {ms : List DataMsg} {s : State} {d : MsgObject} (h : Sending ms s d)
    (hfits : ∀ m ∈ ms, Fits (.data m)) : Isolated s := by
  have hall : ∀ m ∈ s.submitted, Fits (.data m) := fun m hm => hfits m (h.given.subset hm)
  obtain ⟨first, after, hsub, hsent, hbefore, _⟩ := h.inv.split
  rw [h.staying] at hsent hbefore
  obtain rfl := hbefore rfl
  have hsent : s.sent.reverse = first.map frame := by simpa [MainPc.written] using hsent
  have hunsent : ∀ m ∈ s.unsent, Fits (.data m) := by
    intro m hm
    refine hall m ?_
    rw [hsub]
    exact List.mem_append_right _ hm
  have hframes : s.sent.reverse ++ s.unsent.map frame = s.submitted.map frame := by
    rw [hsent, hsub, List.append_nil, List.map_append]
  have hkeep : ∀ l : List DataMsg, (∀ m ∈ l, Fits (.data m)) →
      l.filter (fun m => Fits (.data m)) = l :=
    fun l hl => List.filter_eq_self.mpr fun m hm => decide_eq_true (hl m hm)
  refine ⟨h.survives, ?_, ?_, ?_⟩
  · rw [hkeep _ hunsent, hkeep _ hall]
    exact hframes
  · intro hw
    rw [h.inv.occupied, hw, h.staying]
    rfl
  · rw [hkeep _ hall, ← hframes]
    exact written_all h.inv h.survives h.staying hunsent

lemma Sending.step {ms : List DataMsg} {s t : State} {d : MsgObject} {a : Action}
    (h : Sending ms s d) (hfits : ∀ m ∈ ms, Fits (.data m)) (ha : Submits ms s a)
    (hs : SendThread.step s a = some t) : Sending ms t d := by
  have hinv := h.inv.step hs
  cases a with
  | sendMsg m =>
    rw [SendThread.step, if_pos ⟨h.staying, h.survives⟩] at hs
    obtain rfl := Option.some.inj hs
    exact ⟨hinv, h.survives, h.staying, ha⟩
  | pop =>
    rw [SendThread.step] at hs
    split_ifs at hs with hg
    split at hs
    · cases hs
    · obtain rfl := Option.some.inj hs
      exact ⟨hinv, h.survives, h.staying, h.given⟩
  | advance =>
    rw [SendThread.step, if_pos h.survives] at hs
    obtain ⟨⟨m, p⟩, hw, hs⟩ := Option.bind_eq_some_iff.mp hs
    obtain ⟨⟨u, r⟩, hr, rfl⟩ := Option.map_eq_some_iff.mp hs
    cases advance_of_some hr with
    | acquire | serialize | send | release => exact ⟨hinv, h.survives, h.staying, h.given⟩
    | raise hlong x =>
      have hm : m ∈ s.submitted := by
        obtain ⟨first, after, hsub, _⟩ := h.inv.split
        rw [hsub, State.unsent, hw]
        simp [Work.inHand, Stage.isPassed]
      exact absurd (hfits m (h.given.subset hm)) hlong
  | exit | deRegister | kill | quit | join => exact ha.elim

lemma fail_run {s : State} {m : DataMsg} {ms : List DataMsg} (hr : s.sender = .running)
    (hw : s.work = none) (hfree : s.serializer.isOccupied = false)
    (hq : s.sendMsgQueue = m :: ms) (hlong : ¬ Fits (.data m)) :
    ∃ t x, Reaches step SenderOnly s t ∧ t.sender = .failed x := by
  obtain ⟨x, hx⟩ := advance_raised (s := { s.setOccupied true with sendMsgQueue := ms }) hlong
  have hfirst := step_advance (s := { s with sendMsgQueue := ms, work := some (m, .acquiring) })
    hr rfl (if_neg (Bool.eq_false_iff.mp hfree))
  have hsecond := step_advance (s := { s with
    toSessionState := { s.setOccupied true with sendMsgQueue := ms }
    work := some (m, .acquired) }) hr rfl hx
  exact ⟨_, x, .head ⟨.pop, trivial, step_pop hr hw hq⟩
    (.head ⟨.advance, trivial, hfirst⟩ (.single ⟨.advance, trivial, hsecond⟩)), rfl⟩

lemma failing_run {m : DataMsg} {pre : List DataMsg} (post : List DataMsg) (u : SessionState)
    (hpre : ∀ x ∈ pre, Fits (.data x)) (hlong : ¬ Fits (.data m)) :
    ∃ s x, Reaches step (Submits (pre ++ m :: post)) (start u) s ∧ s.sender = .failed x := by
  have hall : (start u).submitted ++ (pre ++ [m]) <+: pre ++ m :: post := by
    simp [start]
  have hsubmit := submit_run (s := start u) rfl rfl hall
  have hdrain := drain (s := { start u with
    sendMsgQueue := pre ++ [m]
    submitted := pre ++ [m] }) rfl rfl rfl rfl hpre
  obtain ⟨t, x, hfail, hx⟩ := fail_run (s := { start u with
    sendMsgQueue := [m]
    sent := (pre.map frame).reverse ++ (start u).sent
    submitted := pre ++ [m] }) rfl rfl rfl rfl hlong
  have hrun : Reaches step SenderOnly _ t := hdrain.trans hfail
  exact ⟨t, x, hsubmit.trans (hrun.mono fun _ _ => SenderOnly.submits _), hx⟩

theorem messages_isolated_iff (u : SessionState) (ms : List DataMsg) :
    (∀ s, Reaches step (Submits ms) (start u) s → Isolated s) ↔ ∀ m ∈ ms, Fits (.data m) := by
  constructor
  · intro h
    by_contra hn
    obtain ⟨m, hm⟩ : ∃ m, ms.find? (fun m => ¬ Fits (.data m)) = some m := by
      rw [← Option.isSome_iff_exists, List.find?_isSome]
      simpa using hn
    obtain ⟨hlong, pre, post, rfl, hpre⟩ := List.find?_eq_some_iff_append.mp hm
    obtain ⟨s, x, hs, hx⟩ := failing_run post u (by simpa using hpre) (of_decide_eq_true hlong)
    have hsurvives := (h s hs).survives
    rw [hx] at hsurvives
    cases hsurvives
  · intro hfits s hs
    have hsending : Sending ms s u.deRegMsg :=
      Reaches.invariant (I := fun t => Sending ms t u.deRegMsg) hs
        ⟨inv_start u, rfl, rfl, List.nil_prefix⟩ fun _ _ _ h ha hstep => h.step hfits ha hstep
    exact hsending.isolated hfits

lemma step_failed {s : State} {x : Failure ExceptionCode} (h : s.sender = .failed x) (a : Action) :
    step s a = none := by
  cases a <;> simp [step, h]

theorem oversize_message_fatal : ∃ (u : SessionState) (m n : DataMsg) (s : State),
    ¬ Fits (.data m) ∧ Fits (.data n) ∧ Reaches step (Submits [m, n]) (start u) s ∧
      (∃ x, s.sender = .failed x) ∧ (∀ a, step s a = none) ∧ ¬ Isolated s := by
  let u : SessionState := ⟨[], [], [], ⟨4096, false, by decide⟩, [], []⟩
  let m : DataMsg := ⟨⟨4, 0⟩, List.replicate 61 7, [], List.replicate 4000 9⟩
  let n : DataMsg := ⟨⟨4, 0⟩, [], [], []⟩
  have hlong : ¬ Fits (.data m) := by
    change ¬ (longData 61).encodedSize ≤ serializeBufLen
    rw [longData_size]
    decide
  obtain ⟨s, x, hs, hx⟩ := failing_run [n] u (List.forall_mem_nil _) hlong
  refine ⟨u, m, n, s, hlong, by decide, hs, ⟨x, hx⟩, step_failed hx, fun h => ?_⟩
  have hsurvives := h.survives
  rw [hx] at hsurvives
  cases hsurvives

end Isolation

section Exit

/-- The frames in the socket by the time `Exit` has returned: those of the first messages, the one
of the DeReg message, those of the next messages that the thread wrote before the signal, and a part
of one more. The rest of the messages is discarded. -/
structure Outcome (d : MsgObject) (submitted : List DataMsg) (frames : List Bytes) (cut : Bytes)
    (first after rest : List DataMsg) : Prop where
  submitted : submitted = first ++ after ++ rest
  frames : frames = first.map frame ++ [d.encoding] ++ after.map frame
  fits : ∀ m ∈ first ++ after, Fits (.data m)
  cut : cut = [] ∨ ∃ m ms, rest = m :: ms ∧ Fits (.data m) ∧ cut <+: frame m

lemma outcome_of_exited {u : SessionState} {s : State} (h : Reaches step Free (start u) s)
    (hm : s.main = .exited) : Fits u.deRegMsg ∧
      ∃ first after rest, Outcome u.deRegMsg s.submitted s.sent.reverse s.cut first after rest := by
  have hi := inv_of_reaches h
  have hwritten : s.main.written = true := by
    rw [hm]
    rfl
  obtain ⟨first, after, hsub, hsent, _, hfits⟩ := hi.split
  rw [if_pos hwritten] at hsent
  refine ⟨hi.deRegFits hwritten, first, after, s.unsent, hsub, hsent, hfits, ?_⟩
  rcases hi.cut with hcut | ⟨_, m, data, hw, hcut⟩
  · exact .inl hcut
  · obtain ⟨hdata, hfit⟩ : data = frame m ∧ Fits (.data m) := hi.ready _ hw
    subst hdata
    refine .inr ⟨m, s.sendMsgQueue, ?_, hfit, hcut⟩
    rw [State.unsent, hw]
    rfl

variable {s : State} {d : MsgObject}

lemma deRegister_run (hr : s.sender = .running) (hm : s.main = .running)
    (hfree : s.serializer.isOccupied = false) (hfits : Fits s.deRegMsg) :
    Reaches step Free s { s with sent := s.deRegMsg.encoding :: s.sent, main := .cleaning } := by
  have hgo : ∀ (u : SessionState) (p : Stage) (r : SessionState × After),
      u.advance u.deRegMsg p = some r →
        step { s with toSessionState := u, main := .deRegistering p } .deRegister = some
          (State.deRegistered { s with toSessionState := u, main := .deRegistering p } r) := by
    intro u p r hadv
    rw [step, if_pos hr]
    simp only [hadv, Option.map_some]
  have hrun := transmit_run (C := Free)
    (fun u p => { s with toSessionState := u, main := .deRegistering p })
    (fun u => { s with toSessionState := u, main := .cleaning }) SessionState.deRegMsg
    (fun _ _ => rfl) (fun u v p q h => .single ⟨.deRegister, trivial, hgo u p _ h⟩)
    (fun u v p h => .single ⟨.deRegister, trivial, hgo u p _ h⟩) (p := .acquiring) hfits trivial
    fun _ => hfree
  rw [setOccupied_eq hfree] at hrun
  exact .head ⟨.exit, trivial, if_pos ⟨hm, hr⟩⟩ hrun

lemma sending_run {m : DataMsg} {ms : List DataMsg} (hr : s.sender = .running)
    (hw : s.work = none) (hfree : s.serializer.isOccupied = false)
    (hq : s.sendMsgQueue = m :: ms) (hfits : Fits (.data m)) :
    Reaches step Free s { s with
      toSessionState := { s.setOccupied true with sendMsgQueue := ms }
      work := some (m, .sending (frame m)) } := by
  have hfirst := step_advance (s := { s with sendMsgQueue := ms, work := some (m, .acquiring) })
    hr rfl (if_neg (Bool.eq_false_iff.mp hfree))
  have hsecond := step_advance (s := { s with
    toSessionState := { s.setOccupied true with sendMsgQueue := ms }
    work := some (m, .acquired) }) hr rfl (advance_acquired hfits)
  exact .head ⟨.pop, trivial, step_pop hr hw hq⟩
    (.head ⟨.advance, trivial, hfirst⟩ (.single ⟨.advance, trivial, hsecond⟩))

lemma quit_run (n : ℕ) (hr : s.sender = .running) (hm : s.main = .cleaning) :
    ∃ t, Reaches step Free s t ∧ t.main = .exited ∧ t.submitted = s.submitted ∧ t.sent = s.sent ∧
      t.cut = s.work.elim [] fun w => Stage.written n w.2 := by
  have hkill : step s .kill = some { s with main := .joining } := if_pos ⟨hm, hr⟩
  have hquit : step { s with main := .joining } (.quit n) = some { s with
      main := .joining
      sender := .quit
      cut := s.work.elim [] fun w => Stage.written n w.2 } := if_pos ⟨rfl, hr⟩
  refine ⟨{ s with
    main := .exited
    sender := .quit
    cut := s.work.elim [] fun w => Stage.written n w.2 }, ?_, rfl, rfl, rfl, rfl⟩
  exact .head ⟨.kill, trivial, hkill⟩ (.head ⟨.quit n, trivial, hquit⟩
    (.single ⟨.join, trivial, rfl⟩))

lemma cut_run {cut : Bytes} (hr : s.sender = .running) (hm : s.main = .cleaning)
    (hw : s.work = none) (hfree : s.serializer.isOccupied = false)
    (hcut : cut = [] ∨ ∃ m ms, s.sendMsgQueue = m :: ms ∧ Fits (.data m) ∧ cut <+: frame m) :
    ∃ t, Reaches step Free s t ∧ t.main = .exited ∧ t.submitted = s.submitted ∧ t.sent = s.sent ∧
      t.cut = cut := by
  rcases hcut with rfl | ⟨m, ms, hq, hfits, hcut⟩
  · obtain ⟨t, ht, hm, hsub, hsent, hcut⟩ := quit_run 0 hr hm
    rw [hw] at hcut
    exact ⟨t, ht, hm, hsub, hsent, hcut⟩
  · have hsending := sending_run hr hw hfree hq hfits
    obtain ⟨t, ht, hm, hsub, hsent, htaken⟩ := quit_run (s := { s with
      toSessionState := { s.setOccupied true with sendMsgQueue := ms }
      work := some (m, .sending (frame m)) }) cut.length hr hm
    refine ⟨t, hsending.trans ht, hm, hsub, hsent, ?_⟩
    rw [htaken]
    exact (List.prefix_iff_eq_take.mp hcut).symm

lemma exited_of_outcome {u : SessionState} {ms first after rest : List DataMsg}
    {frames : List Bytes} {cut : Bytes} (hfits : Fits u.deRegMsg)
    (h : Outcome u.deRegMsg ms frames cut first after rest) :
    ∃ s, Reaches step Free (start u) s ∧ s.main = .exited ∧ s.submitted = ms ∧
      s.sent.reverse = frames ∧ s.cut = cut := by
  obtain ⟨hms, hframes, hall, hcut⟩ := h
  have hsubmit := submit_run (s := start u) rfl rfl (List.prefix_refl ms)
  have hfirst := drain (s := { start u with sendMsgQueue := ms, submitted := ms }) rfl rfl rfl
    (hms.trans (List.append_assoc _ _ _)) fun m hm => hall m (List.mem_append_left _ hm)
  have hbye := deRegister_run (s := { start u with
    sendMsgQueue := after ++ rest
    sent := (first.map frame).reverse ++ (start u).sent
    submitted := ms }) rfl rfl rfl hfits
  have hafter := drain (s := { start u with
    sendMsgQueue := after ++ rest
    sent := u.deRegMsg.encoding :: ((first.map frame).reverse ++ (start u).sent)
    submitted := ms
    main := .cleaning }) rfl rfl rfl rfl fun m hm => hall m (List.mem_append_right _ hm)
  have hrun : Reaches step Free (start u) { start u with
      sendMsgQueue := rest
      sent := (after.map frame).reverse ++
        u.deRegMsg.encoding :: ((first.map frame).reverse ++ (start u).sent)
      submitted := ms
      main := .cleaning } :=
    ((hsubmit.mono fun _ _ _ => trivial).trans (hfirst.mono fun _ _ _ => trivial)).trans
      (hbye.trans (hafter.mono fun _ _ _ => trivial))
  obtain ⟨t, ht, hm, hsub, hsent, hcut⟩ := cut_run (s := { start u with
    sendMsgQueue := rest
    sent := (after.map frame).reverse ++
      u.deRegMsg.encoding :: ((first.map frame).reverse ++ (start u).sent)
    submitted := ms
    main := .cleaning }) rfl rfl rfl rfl hcut
  refine ⟨t, hrun.trans ht, hm, hsub, ?_, hcut⟩
  rw [hsent, hframes]
  simp [start]

/-- Each way of taking the messages apart is the outcome of some run. -/
theorem exit_outcome_iff (u : SessionState) (ms : List DataMsg) (frames : List Bytes)
    (cut : Bytes) :
    (∃ s, Reaches step Free (start u) s ∧ s.main = .exited ∧ s.submitted = ms ∧
      s.sent.reverse = frames ∧ s.cut = cut) ↔
    Fits u.deRegMsg ∧ ∃ first after rest, Outcome u.deRegMsg ms frames cut first after rest := by
  constructor
  · rintro ⟨s, hs, hm, rfl, rfl, rfl⟩
    exact outcome_of_exited hs hm
  · rintro ⟨hfits, first, after, rest, h⟩
    exact exited_of_outcome hfits h

theorem accepted_message_late : ∃ (u : SessionState) (m : DataMsg) (s t : State),
    Reaches step Free (start u) s ∧ s.main = .exited ∧ s.submitted = [m] ∧
      s.sent.reverse = [u.deRegMsg.encoding] ∧
    Reaches step Free (start u) t ∧ t.main = .exited ∧ t.submitted = [m] ∧
      t.sent.reverse = [u.deRegMsg.encoding, frame m] ∧
    s.sent.reverse ≠ [frame m, u.deRegMsg.encoding] ∧
    t.sent.reverse ≠ [frame m, u.deRegMsg.encoding] := by
  let u : SessionState := ⟨[], [], [], ⟨4096, false, by decide⟩, [], []⟩
  let m : DataMsg := ⟨⟨4, 0⟩, [], [], []⟩
  have hbye : Fits u.deRegMsg := by decide
  have hfits : Fits (.data m) := by decide
  have hlost : Outcome u.deRegMsg [m] [u.deRegMsg.encoding] [] [] [] [m] :=
    ⟨rfl, rfl, by simp, .inl rfl⟩
  have hlate : Outcome u.deRegMsg [m] [u.deRegMsg.encoding, frame m] [] [] [m] [] :=
    ⟨rfl, rfl, by simpa using hfits, .inl rfl⟩
  obtain ⟨s, hs, hsm, hssub, hssent, _⟩ := exited_of_outcome hbye hlost
  obtain ⟨t, ht, htm, htsub, htsent, _⟩ := exited_of_outcome hbye hlate
  have hne : u.deRegMsg.encoding ≠ frame m := by decide +kernel
  refine ⟨u, m, s, t, hs, hsm, hssub, hssent, ht, htm, htsub, htsent, ?_, ?_⟩
  · rw [hssent]
    simp
  · rw [htsent]
    simp [hne]

end Exit

end SendThread

end Xty.Session
