import Xty.General.Frames
import Xty.Server.Ownership

/-! What the socket of a client takes of the frames that the send job passes to `send`. -/

namespace Xty.Server

open Xty.General.Runs Xty.General.LittleEndian Xty.General.Frames
open Xty.Message

/-- The sockets do not block: a call takes a part of the bytes, or it fails with `EAGAIN`. -/
inductive SendResult where
  | accepted (n : ℕ)
  | wouldBlock
deriving DecidableEq, Repr

def SendResult.taken : SendResult → ℕ
  | accepted n => n
  | wouldBlock => 0

/-- The result is reported at most: the step is the same whatever it is. -/
def socketStep (s : State) (a : Action × SendResult) : Option State := step s a.1

def State.sending (s : State) : Action → Option ((Bytes × ℕ) × Bytes)
  | .send .next =>
    match s.send with
    | .iterating r toIP toName ((k, some e) :: _) =>
      if e.Matches toIP toName then
        (s.memory r.ptr).map fun cell => ((k, e.clientFd), cell.object.encoding)
      else none
    | _ => none
  | _ => none

/-- The calls of `send` on each connection since it was made. -/
abbrev WriteLog := Bytes × ℕ → List (Attempt UInt8)

def WriteLog.empty : WriteLog := fun _ => []

def WriteLog.record (s : State) (a : Action × SendResult) (_ : State) (g : WriteLog) : WriteLog :=
  match s.sending a.1 with
  | some (c, data) => Function.update g c (g c ++ [⟨data, a.2.taken⟩])
  | none =>
    match a.1, s.epoll with
    | .epoll .addClient, .accepted c _ => Function.update g (c.clientIPPort, c.fd) []
    | _, _ => g

/-- The socket takes bytes of a frame only if it has taken the frames before it whole or not at
all. -/
def KeepsWhole (x : State × WriteLog) (a : Action × SendResult) : Prop :=
  ∀ p ∈ x.1.sending a.1, Attempt.accepted ⟨p.2, a.2.taken⟩ ≠ [] → ∀ v ∈ x.2 p.1, v.Whole

def writtenTo (c : Bytes × ℕ) : List Event → List MsgObject
  | [] => []
  | .connected d :: es => if (d.clientIPPort, d.fd) = c then [] else writtenTo c es
  | .wrote d m :: es => if d = c then writtenTo c es ++ [m] else writtenTo c es
  | _ :: es => writtenTo c es

def Logged (s : State) (g : WriteLog) : Prop :=
  ∀ c, offered (g c) = (writtenTo c s.history).map MsgObject.encoding

section Sockets

variable {s t : State} {g : WriteLog} {c : Bytes × ℕ} {res : SendResult}

lemma record_none {a : Action} (hs : s.sending a = none) (ha : a ≠ .epoll .addClient) :
    WriteLog.record s (a, res) t g = g := by
  simp only [WriteLog.record, hs]
  split
  · exact absurd rfl ha
  · rfl

lemma record_some {a : Action} {data : Bytes} (hs : s.sending a = some (c, data)) :
    WriteLog.record s (a, res) t g = Function.update g c (g c ++ [⟨data, res.taken⟩]) := by
  simp only [WriteLog.record, hs]

lemma Logged.frame (h : Logged s g) {a : Action} (hs : s.sending a = none)
    (ha : a ≠ .epoll .addClient) (hh : ∀ c, writtenTo c t.history = writtenTo c s.history) :
    Logged t (WriteLog.record s (a, res) t g) := by
  intro c
  rw [record_none hs ha, hh]
  exact h c

lemma record_connect {d : Connection} {b : RecvBuffer} (hpc : s.epoll = .accepted d b) :
    WriteLog.record s (.epoll .addClient, res) t g
      = Function.update g (d.clientIPPort, d.fd) [] := by
  simp only [WriteLog.record, State.sending, hpc]

lemma Logged.connect (h : Logged s g) {d : Connection} {b : RecvBuffer} {u : State}
    (hpc : s.epoll = .accepted d b) (ht : t.history = .connected d :: s.history) :
    Logged t (WriteLog.record s (.epoll .addClient, res) u g) := by
  intro c
  rw [record_connect hpc, ht, writtenTo, Function.update_apply]
  by_cases hc : c = (d.clientIPPort, d.fd)
  · rw [if_pos hc, if_pos hc.symm]
    rfl
  · rw [if_neg hc, if_neg (Ne.symm hc)]
    exact h c

lemma Logged.write (h : Logged s g) {a : Action} {m : MsgObject}
    (hs : s.sending a = some (c, m.encoding)) (ht : t.history = .wrote c m.measured :: s.history) :
    Logged t (WriteLog.record s (a, res) t g) := by
  intro c'
  rw [record_some hs, ht, writtenTo, Function.update_apply]
  by_cases hc : c' = c
  · rw [if_pos hc, if_pos hc.symm, hc, offered, List.map_append, List.map_append]
    have hm : m.measured.encoding = m.encoding := by
      rw [MsgObject.encoding, MsgObject.measured_measured, MsgObject.measured_strings]
      rfl
    rw [List.map_singleton, List.map_singleton, hm]
    exact congrArg (· ++ [m.encoding]) (h c)
  · rw [if_neg hc, if_neg (Ne.symm hc)]
    exact h c'

lemma sending_write {r : Reference} {toIP toName k : Bytes} {e : ClientEntity}
    {rest : List (Bytes × Option ClientEntity)} {cell : Cell}
    (hpc : s.send = .iterating r toIP toName ((k, some e) :: rest))
    (hmatch : e.Matches toIP toName) (hcell : s.memory r.ptr = some cell) :
    s.sending (.send .next) = some ((k, e.clientFd), cell.object.encoding) := by
  simp [State.sending, hpc, hmatch, hcell]

lemma sending_skip {r : Reference} {toIP toName k : Bytes} {v : Option ClientEntity}
    {rest : List (Bytes × Option ClientEntity)}
    (hpc : s.send = .iterating r toIP toName ((k, v) :: rest))
    (hskip : ∀ e, v = some e → ¬ e.Matches toIP toName) : s.sending (.send .next) = none := by
  cases v with
  | none => simp [State.sending, hpc]
  | some e => simp [State.sending, hpc, hskip e rfl]

lemma Logged.step (h : Logged s g) {a : Action} (hs : Transition s a t) :
    Logged t (WriteLog.record s (a, res) t g) := by
  cases hs with
  | epoll hs =>
    cases hs with
    | addClient hpc => exact h.connect hpc rfl
    | refuse | accept | find | findNone | wouldBlock | eof | removeClient | read | acquireEntity
    | deSerialize | raise | pushMsg => exact h.frame rfl (by simp) fun _ => rfl
  | loop hs => cases hs <;> exact h.frame rfl (by simp) fun _ => rfl
  | send hs =>
    cases hs with
    | write hpc hmatch hcell => exact h.write (sending_write hpc hmatch hcell) rfl
    | skip hpc hskip => exact h.frame (sending_skip hpc hskip) (by simp) fun _ => rfl
    | unlock hpc => exact h.frame (by simp [State.sending, hpc]) (by simp) fun _ => rfl
    | popMsg | copyStrings | lockTable | release => exact h.frame rfl (by simp) fun _ => rfl

lemma record_other (t : State) (g : WriteLog) (res : SendResult) {a : Action}
    (hs : s.sending a = none) :
    (∃ d, WriteLog.record s (a, res) t g = Function.update g d []) ∨
      WriteLog.record s (a, res) t g = g := by
  by_cases ha : a = .epoll .addClient
  · subst ha
    cases hpc : s.epoll with
    | accepted d b => exact Or.inl ⟨_, record_connect hpc⟩
    | polling | found | closed | received | acquired | deSerialized =>
      exact Or.inr (by simp only [WriteLog.record, hs, hpc])
  · exact Or.inr (record_none hs ha)

lemma untorn_step (h : ∀ c, Untorn (g c)) (a : Action × SendResult) :
    (∀ c, Untorn (WriteLog.record s a t g c)) ↔ KeepsWhole (s, g) a := by
  obtain ⟨a, res⟩ := a
  cases hs : s.sending a with
  | none =>
    refine iff_of_true (fun c => ?_) ?_
    · rcases record_other t g res hs with ⟨d, hd⟩ | hg
      · rw [hd, Function.update_apply]
        split_ifs
        · exact List.Pairwise.nil
        · exact h c
      · rw [hg]
        exact h c
    · rintro p hp
      rw [hs] at hp
      cases hp
  | some p =>
    obtain ⟨c, data⟩ := p
    have hkeep : KeepsWhole (s, g) (a, res) ↔
        (Attempt.accepted ⟨data, res.taken⟩ ≠ [] → ∀ v ∈ g c, v.Whole) := by
      simp [KeepsWhole, hs]
    rw [hkeep, record_some hs]
    constructor
    · intro hu
      have hc := hu c
      rw [Function.update_self, untorn_append_singleton] at hc
      exact hc.2
    · intro hw c'
      rw [Function.update_apply]
      split_ifs
      · exact untorn_append_singleton.mpr ⟨h c, hw⟩
      · exact h c'

/-- With every byte told apart, the streams stay in step exactly as long as the condition holds. -/
theorem frames_untorn {E : SerializeEntity}
    (h : Reaches (observe socketStep WriteLog.record) KeepsWhole (State.init E, WriteLog.empty)
      (s, g)) :
    (∀ c, offered (g c) = (writtenTo c s.history).map MsgObject.encoding ∧ InFrames (g c)) ∧
      ∀ a t, socketStep s a = some t →
        ((∀ c, InFrames (mark (WriteLog.record s a t g c))) ↔ KeepsWhole (s, g) a) := by
  have hs : Logged s g ∧ ∀ c, Untorn (g c) := by
    refine h.invariant (I := fun x => Logged x.1 x.2 ∧ ∀ c, Untorn (x.2 c)) ?_ ?_
    · exact ⟨fun _ => rfl, fun _ => List.Pairwise.nil⟩
    · rintro ⟨s, g⟩ a ⟨t, g'⟩ ⟨hl, hu⟩ hc ha
      obtain ⟨hst, hg⟩ := observe_some ha
      change g' = WriteLog.record s a t g at hg
      subst hg
      have hnext : ∀ c, Untorn (WriteLog.record s a t g c) := (untorn_step hu a).mpr hc
      exact ⟨hl.step (transition_of_step hst), hnext⟩
  refine ⟨fun c => ⟨hs.1 c, (hs.2 c).inFrames⟩, fun a t _ => ?_⟩
  simp only [inFrames_mark]
  exact untorn_step hs.2 a

end Sockets

section Sending

instance (x : State × WriteLog) (a : Action × SendResult) : Decidable (KeepsWhole x a) :=
  inferInstanceAs (Decidable (∀ p ∈ x.1.sending a.1, _ → _))

def toTable : List Action := [.loop .callBack, .send .popMsg, .send .copyStrings, .send .lockTable]

lemma ownReg_fits :
    MsgObject.encodedSize (.reg ⟨⟨2, 0⟩, [97], [49], [53, 48]⟩) ≤ clientBufferSize := by decide

def sendTwice (first second : SendResult) : List (Action × SendResult) :=
  let quiet (as : List Action) := as.map fun a => (a, SendResult.wouldBlock)
  quiet (register client₀ [53, 48] ownReg_fits) ++
    quiet (sendFrom client₀ 1 (.data ⟨⟨4, 0⟩, [49], [97], [7]⟩) (by decide) ++ toTable) ++
    [(.send .next, first)] ++ quiet [.send .releaseEntity, .send .next] ++
    quiet (sendFrom client₀ 2 (.data ⟨⟨4, 0⟩, [49], [97], [8]⟩) (by decide) ++ toTable) ++
    [(.send .next, second)]

theorem frames_untorn_blocked : ∃ s g,
    Reaches (observe socketStep WriteLog.record) KeepsWhole
      (State.init serializer₀, WriteLog.empty) (s, g) ∧
      (g ([49, 58, 53, 48], 5)).map Attempt.taken = [0, 20] ∧
        InFrames (g ([49, 58, 53, 48], 5)) := by
  have h : (execute (observe socketStep WriteLog.record) KeepsWhole
      (State.init serializer₀, WriteLog.empty) (sendTwice .wouldBlock (.accepted 20))).map
        (fun x => (x.2 ([49, 58, 53, 48], 5)).map Attempt.taken) = some [0, 20] := by
    decide +kernel
  obtain ⟨⟨s, g⟩, hs, hg⟩ := reaches_of_execute_map h
  exact ⟨s, g, hs, hg, ((frames_untorn hs).1 _).2⟩

def tornWrites : List (Attempt UInt8) :=
  [⟨MsgObject.encoding (.data ⟨⟨4, 0⟩, [49], [97], [7]⟩), 38⟩,
    ⟨MsgObject.encoding (.data ⟨⟨4, 0⟩, [49], [97], [8]⟩), 39⟩]

theorem torn_frame_followed : ∃ s g,
    Reaches (observe socketStep WriteLog.record) Free (State.init serializer₀, WriteLog.empty)
      (s, g) ∧ ¬ InFrames (g ([49, 58, 53, 48], 5)) := by
  have h : (execute (observe socketStep WriteLog.record) Free
      (State.init serializer₀, WriteLog.empty) (sendTwice (.accepted 38) (.accepted 39))).map
        (fun x => x.2 ([49, 58, 53, 48], 5)) = some tornWrites := by
    decide +kernel
  obtain ⟨⟨s, g⟩, hs, hg⟩ := reaches_of_execute_map h
  refine ⟨s, g, hs, fun hin => ?_⟩
  change g _ = _ at hg
  rw [hg] at hin
  obtain ⟨fs, f, hnext, hfs, hf', _⟩ := hin _ List.prefix_rfl
  obtain ⟨hsub, hf⟩ := parts_offered hnext
  have hno : ∀ fs ∈ (offered tornWrites).sublists, ∀ f ∈ [] :: offered tornWrites,
      ¬ (fs.flatten <+: written tornWrites ∧ written tornWrites <+: fs.flatten ++ f) := by
    decide +kernel
  exact hno fs (List.mem_sublists.mpr hsub) f hf ⟨hfs, hf'⟩

end Sending

end Xty.Server
