import Xty.Server.ActiveClients
import Xty.Server.Rest

/-! The process that the threads of the server run in, and what ends it. -/

namespace Xty.Server

open Xty.General.Runs Xty.General.LittleEndian Xty.General.Cursor Xty.General.SortedTable
open Xty.Message

def eWouldBlock : ℕ := 11
def eConnAborted : ℕ := 103
def eConnReset : ℕ := 104

/-- The decoding ends in a message or in an exception, and not in a call of a creator that is not
there or in a length that `std::string` refuses. -/
def decodes (b : RecvBuffer) (r : ReadBytes) : Bool :=
  match DeSerializeEntity.deSerialize (b.region r) with
  | .error .undefined => false
  | _ => true

def State.serializes (s : State) (r : Reference) : Bool :=
  match s.memory r.ptr with
  | some cell => (s.serializer.serialize cell.object).toBool
  | none => false

/-- The thread that takes the step uses an object that is gone or that is not of the class that
it is cast to, or it runs into an exception that nobody catches. -/
def State.crashes (s : State) : Action → Bool
  | .epoll (.deSerialize p) =>
    match s.epoll with
    | .acquired _ b r i => (s.freed i p).isNone && !decodes b r
    | _ => false
  | .loop .callBack =>
    match s.loop with
    | .handling r => ((s.memory r.ptr).bind fun cell => callBackFun cell.object).isNone
    | _ => false
  | .send .copyStrings =>
    match s.send with
    | .popped r =>
      match s.memory r.ptr with
      | some ⟨_, .data _⟩ => false
      | _ => true
    | _ => false
  | .send .next =>
    match s.send with
    | .iterating r toIP toName ((_, some e) :: _) =>
      decide (e.Matches toIP toName) && !s.serializer.isOccupied && !s.serializes r
    | _ => false
  | _ => false

structure Process where
  server : State
  exited : Bool

def Process.init (E : SerializeEntity) : Process := ⟨State.init E, false⟩

/-- `send` is called without `MSG_NOSIGNAL`, and nobody handles `SIGPIPE`. -/
inductive ProcessAction where
  | run (a : Action)
  | acceptFails (errno : ℕ)
  | readFails (errno : ℕ)
  | sigPipe

def Process.exit (p : Process) : Process := { p with exited := true }

/-- The result of `accept` is compared, not the error number. -/
def acceptFailed (p : Process) (connfd : ℤ) : Process :=
  if connfd = eWouldBlock then p else p.exit

def readFailed (p : Process) (errno : ℕ) : Process :=
  if errno ≠ eWouldBlock then p.exit
  else { p with server := { p.server with epoll := .polling } }

def runStep (p : Process) (a : Action) : Option Process :=
  if p.server.crashes a then some p.exit
  else (step p.server a).map fun s => { p with server := s }

-- A call that fails returns -1.
def processStep (p : Process) (a : ProcessAction) : Option Process :=
  if p.exited then none
  else match a with
    | .run a => runStep p a
    | .acceptFails _ =>
      match p.server.epoll with
      | .polling => some (acceptFailed p (-1))
      | _ => none
    | .readFails errno =>
      match p.server.epoll with
      | .found .. => some (readFailed p errno)
      | _ => none
    | .sigPipe =>
      match p.server.send with
      | .iterating _ toIP toName ((_, some e) :: _) =>
        if e.Matches toIP toName then some p.exit else none
      | _ => none

def State.readsDecodable (s : State) : Action → Bool
  | .epoll (.read _ r) =>
    match s.epoll with
    | .found _ _ b => decodes b r
    | _ => true
  | _ => true

/-- No call of `accept` fails, a call of `read` fails only because nothing is there, what is read
can be decoded, no client is gone when it is written to, and the last one gets the message before
it is given back. -/
def Tolerated (p : Process) : ProcessAction → Prop
  | .run a => GivesBackLast p.server a ∧ p.server.readsDecodable a
  | .acceptFails _ => False
  | .readFails errno => errno = eWouldBlock
  | .sigPipe => False

instance (p : Process) : (a : ProcessAction) → Decidable (Tolerated p a)
  | .run _ => inferInstanceAs (Decidable (_ ∧ _))
  | .acceptFails _ | .sigPipe => isFalse id
  | .readFails _ => inferInstanceAs (Decidable (_ = _))

/-- The process runs, every object that a thread is going to use is there, and the chunk that the
epoll thread has in hand can be decoded. -/
structure Going (p : Process) : Prop where
  running : p.exited = false
  ready : Ready p.server
  decodable : ∀ x ∈ p.server.epoll.chunk, decodes x.1 x.2
  room : ∃ n, ∀ a, n ≤ a → p.server.memory a = none

structure Alive (p : Process) : Prop where
  going : Going p
  tracked : Tracked p.server
  owned : Owned p.server

section Crashes

variable {p q : Process} {s t : State} {r : Reference}

lemma alive_init (E : SerializeEntity) : Alive (Process.init E) where
  going := ⟨rfl, (owned_init E).ready (classed_init E) rfl, by simp [Process.init, State.init,
    EpollPc.chunk], 0, fun _ _ => rfl⟩
  tracked := tracked_init E
  owned := owned_init E

lemma serializes_of_fits {cell : Cell} (hcell : s.memory r.ptr = some cell)
    (hfits : cell.object.encodedSize ≤ serializeBufLen) : s.serializes r = true := by
  simp only [State.serializes, hcell, s.serializer.serialize_ok cell.object hfits]
  rfl

lemma Going.crashFree (h : Going p) (a : Action) : p.server.crashes a = false := by
  unfold State.crashes
  split
  · split
    · next hpc => simp [h.decodable _ (by rw [hpc]; rfl)]
    · rfl
  · split
    · next r hpc =>
      obtain ⟨cell, hcell, _⟩ := h.ready.valued r (by simp [State.held, hpc, LoopPc.held])
      simp [hcell, h.ready.classed.remembered.callBackFun_cell hcell]
    · rfl
  · split
    · next r hpc =>
      obtain ⟨n, d, hcell⟩ := h.ready.popped hpc
      rw [hcell]
    · rfl
  · split
    · next r toIP toName k e rest hpc =>
      by_cases hmatch : e.Matches toIP toName
      · obtain ⟨cell, hcell, _, hfits⟩ := h.ready.matched hpc hmatch
        simp [serializes_of_fits hcell hfits]
      · simp [hmatch]
    · rfl
  · rfl

lemma Going.processStep_run (h : Going p) (a : Action) :
    processStep p (.run a) = (step p.server a).map fun s => { p with server := s } := by
  rw [processStep, if_neg (by simp [h.running])]
  exact if_neg (by simp [h.crashFree a])

lemma Going.transition (h : Going p) {a : Action} (hs : processStep p (.run a) = some q) :
    Transition p.server a q.server ∧ q.exited = false := by
  rw [h.processStep_run] at hs
  obtain ⟨t, ht, rfl⟩ := Option.map_eq_some_iff.mp hs
  exact ⟨transition_of_step ht, h.running⟩

lemma Going.run (h : Going p) {a : Action} (hs : step p.server a = some t) :
    processStep p (.run a) = some { p with server := t } := by
  rw [h.processStep_run, hs]
  rfl

lemma processStep_run {a : Action} (h : processStep p (.run a) = some q) :
    (p.server.crashes a = true ∧ q = p.exit) ∨
      (p.exited = false ∧ ∃ t, step p.server a = some t ∧ q = { p with server := t }) := by
  rw [processStep] at h
  split_ifs at h with hex
  change runStep p a = some q at h
  rw [runStep] at h
  split_ifs at h with hcrash
  · exact .inl ⟨hcrash, (Option.some.inj h).symm⟩
  · obtain ⟨t, ht, rfl⟩ := Option.map_eq_some_iff.mp h
    exact .inr ⟨Bool.eq_false_iff.mpr hex, t, ht, rfl⟩

lemma processStep_accept {errno : ℕ} (h : processStep p (.acceptFails errno) = some q) :
    p.server.epoll = .polling ∧ q = p.exit := by
  rw [processStep] at h
  split_ifs at h
  split at h
  · next hpc =>
    obtain rfl := Option.some.inj h
    exact ⟨hpc, if_neg (by decide)⟩
  · cases h

lemma processStep_read {errno : ℕ} (h : processStep p (.readFails errno) = some q) :
    p.exited = false ∧ q = readFailed p errno ∧ ∃ k fd b, p.server.epoll = .found k fd b := by
  rw [processStep] at h
  split_ifs at h with hex
  split at h
  · next hpc =>
    obtain rfl := Option.some.inj h
    exact ⟨Bool.eq_false_iff.mpr hex, rfl, _, _, _, hpc⟩
  · cases h

lemma processStep_sigPipe (h : processStep p .sigPipe = some q) : q = p.exit := by
  rw [processStep] at h
  split_ifs at h
  split at h
  · split_ifs at h
    exact (Option.some.inj h).symm
  · cases h

lemma readFailed_tolerated {errno : ℕ} (he : errno = eWouldBlock) :
    readFailed p errno = { p with server := { p.server with epoll := .polling } } :=
  if_neg (not_not_intro he)

lemma readFailed_fatal {errno : ℕ} (he : errno ≠ eWouldBlock) : readFailed p errno = p.exit :=
  if_pos he

lemma decodes_iff {b : RecvBuffer} {r : ReadBytes} :
    decodes b r = true ↔ ∃ t, HeadType (b.region r) t ∧ DoesNotWrap (b.region r) t := by
  have hb : (b.region r).base + 12 < addressSpace := by
    have hfits := b.fits
    rw [clientBufferSize] at hfits
    change b.base + 12 < addressSpace
    omega
  rw [← decodesExactly_iff hb, decodes]
  constructor
  · intro h
    refine ⟨accepted_iff, fun hill => ?_, by_contra fun hnone => ?_⟩
    · cases hd : DeSerializeEntity.deSerialize (b.region r) with
      | ok x => exact absurd (accepted_iff.mp ⟨x.1, x.2, hd⟩) hill
      | error x =>
        cases x with
        | raised e => exact ⟨e, rfl⟩
        | undefined => simp [hd] at h
    · simp [deSerialize_undefined (not_exists.mp hnone)] at h
  · intro h
    by_cases hw : WellFormed (b.region r).bytes
    · obtain ⟨m, a, hok⟩ := h.accepted.mpr hw
      simp [hok]
    · obtain ⟨e, he⟩ := h.rejected hw
      simp [he]

lemma prepareAndDecode_some {c : Connection} {b : RecvBuffer} {r : ReadBytes} {i a : ℕ}
    (h : decodes b r = true) : ∃ t, prepareAndDecode s c b r i a = some t ∧
      (t.epoll = .polling ∨ ∃ d m, t.epoll = .deSerialized c d m) := by
  rw [decodes] at h
  have hprep : ∃ m, DeSerializeEntity.prepare (b.region r) = .ok m := by
    by_cases ht : ∃ t, HeadType (b.region r) t
    · obtain ⟨t, ht⟩ := ht
      exact ⟨_, ht.prepare⟩
    · simp [deSerialize_undefined (not_exists.mp ht)] at h
  obtain ⟨m, hprep⟩ := hprep
  cases hdec : DeSerializeEntity.deSerialize (b.region r) with
  | error x =>
    cases x with
    | undefined => simp [hdec] at h
    | raised e => simp [prepareAndDecode, hprep, hdec]
  | ok x => simp [prepareAndDecode, hprep, hdec]

/-- Whatever else the state is, a decoding step ends the process exactly when the chunk has no
decoding. -/
lemma decode_ends_iff {c : Connection} {b : RecvBuffer} {r : ReadBytes} {i a : ℕ}
    (hpc : p.server.epoll = .acquired c b r i)
    (h : processStep p (.run (.epoll (.deSerialize a))) = some q) :
    q.exited = false ↔ decodes b r = true := by
  rcases processStep_run h with ⟨hcrash, rfl⟩ | ⟨hex, t, ht, rfl⟩
  · rw [State.crashes, hpc] at hcrash
    simp only [Bool.and_eq_true, Bool.not_eq_true'] at hcrash
    simp [Process.exit, hcrash.2]
  · refine iff_of_true hex ?_
    cases transition_of_step ht with
    | epoll hs =>
    cases hs with
    | deSerialize hpc' _ hdec | raise hpc' _ hdec =>
      cases hpc.symm.trans hpc'
      rw [decodes, hdec]

end Crashes

section Living

variable {p q : Process} {s t : State}

lemma freed_none {i a : ℕ} (h : s.memory a = none) : s.freed i a = none := by
  cases hf : s.freed i a with
  | none => rfl
  | some cell => exact absurd (memory_of_freed hf) (by simp [h])

lemma Transition.room {a : Action} (hs : Transition s a t)
    (h : ∃ n, ∀ a, n ≤ a → s.memory a = none) : ∃ n, ∀ a, n ≤ a → t.memory a = none := by
  obtain ⟨n, hn⟩ := h
  have hmake : ∀ i p m, ∃ n, ∀ a, n ≤ a → (s.make i p m).memory a = none := by
    intro i p m
    refine ⟨max n (p + 1), fun a ha => ?_⟩
    rw [make_memory, Function.update_of_ne (by omega)]
    exact freed_none (hn a (by omega))
  cases hs with
  | epoll hs =>
    cases hs with
    | deSerialize | raise => exact hmake _ _ _
    | refuse | accept | addClient | find | findNone | wouldBlock | eof | removeClient | read
    | acquireEntity | pushMsg => exact ⟨n, hn⟩
  | loop hs => cases hs <;> exact ⟨n, hn⟩
  | send hs =>
    cases hs with
    | @write r toIP toName k e rest cell =>
      refine ⟨max n (r.ptr + 1), fun a ha => ?_⟩
      change Function.update s.memory r.ptr _ a = none
      rw [Function.update_of_ne (by omega)]
      exact hn a (by omega)
    | popMsg | copyStrings | lockTable | unlock | skip | release => exact ⟨n, hn⟩

lemma Transition.decodable {a : Action} (hs : Transition s a t)
    (h : ∀ x ∈ s.epoll.chunk, decodes x.1 x.2) (hr : s.readsDecodable a) :
    ∀ x ∈ t.epoll.chunk, decodes x.1 x.2 := by
  cases hs with
  | epoll hs =>
    cases hs with
    | read hpc =>
      rintro _ ⟨⟩
      rw [State.readsDecodable, hpc] at hr
      exact hr
    | acquireEntity hpc =>
      rw [hpc] at h
      exact h
    | refuse | findNone => exact h
    | accept | addClient | find | wouldBlock | eof | removeClient | deSerialize | raise
    | pushMsg =>
      intro _ hx
      cases hx
  | loop hs => cases hs <;> exact h
  | send hs => cases hs <;> exact h

/-- A call of `read` that fails because nothing is there is a step of the epoll thread like the
others. -/
lemma Going.serverStep (h : Going p) {a : ProcessAction} (ha : Tolerated p a)
    (hs : processStep p a = some q) : ∃ b, (a = .run b ∨ b = .epoll .wouldBlock) ∧
      Tolerated p (.run b) ∧ Transition p.server b q.server ∧ q.exited = false := by
  cases a with
  | run b => exact ⟨b, .inl rfl, ha, h.transition hs⟩
  | acceptFails | sigPipe => exact ha.elim
  | readFails errno =>
    obtain ⟨hex, rfl, k, fd, b, hpc⟩ := processStep_read hs
    rw [readFailed_tolerated ha]
    exact ⟨.epoll .wouldBlock, .inr rfl, ⟨by trivial, rfl⟩, .epoll (.wouldBlock hpc), hex⟩

lemma Alive.step (h : Alive p) {a : ProcessAction} (ha : Tolerated p a)
    (hs : processStep p a = some q) : Alive q := by
  obtain ⟨b, _, hb, hst, hex⟩ := h.going.serverStep ha hs
  have ho : Owned q.server := h.owned.step hb.1 hst
  have hready : Ready q.server :=
    ho.ready (h.going.ready.classed.step (h.going.ready.byValue b) hst)
      (serializer_step hst h.going.ready.serializer)
  exact ⟨⟨hex, hready, hst.decodable h.going.decodable hb.2, hst.room h.going.room⟩,
    h.tracked.step hst, ho⟩

lemma alive_of_reaches {E : SerializeEntity}
    (h : Reaches processStep Tolerated (Process.init E) p) : Alive p :=
  h.invariant (alive_init E) fun _ _ _ hi ha hs => hi.step ha hs

lemma Going.scheduled (h : Going p) {a : Action} (ha : Scheduled p.server a)
    (hs : processStep p (.run a) = some q) :
    Going q ∧ q.server.epoll = p.server.epoll ∧ q.server.work < p.server.work := by
  obtain ⟨hst, hex⟩ := h.transition hs
  have hr : p.server.readsDecodable a = true := by
    cases a with
    | epoll => exact ha.elim
    | loop | send => rfl
  exact ⟨⟨hex, h.ready.step ha hst, hst.decodable h.decodable hr, hst.room h.room⟩,
    scheduled_epoll ha hst, scheduled_work ha hst⟩

end Living

end Xty.Server
