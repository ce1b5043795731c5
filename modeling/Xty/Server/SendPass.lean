import Xty.Server.Values

/-! What the send job takes and gives back on its way through the client table. -/

namespace Xty.Server

open Xty.General.Runs Xty.General.LittleEndian
open Xty.Message

/-- One pass over the table: the destination, the entries that were locked, and how often an
entity of the serializer was acquired and released and the one of the message was released. -/
structure Pass where
  toIP : Bytes
  toName : Bytes
  entries : List (Bytes × Option ClientEntity)
  acquired : ℕ
  returned : ℕ
  released : ℕ

structure PassLog where
  current : Option Pass
  finished : List Pass

def PassLog.empty : PassLog := ⟨none, []⟩

def PassLog.record (s : State) (a : Action) (t : State) (g : PassLog) : PassLog :=
  match a with
  | .send .lockTable =>
    match s.send with
    | .copied _ toIP toName => { g with current := some ⟨toIP, toName, s.table.entries, 0, 0, 0⟩ }
    | _ => g
  | .send .next =>
    match t.send with
    | .releasing .. =>
      { g with current := g.current.map fun p => { p with acquired := p.acquired + 1 } }
    | .waiting => ⟨none, g.finished ++ g.current.toList⟩
    | _ => g
  | .send .releaseEntity => { g with current := g.current.map fun p =>
      { p with returned := p.returned + 1, released := p.released + 1 } }
  | _ => g

def Pass.matches (p : Pass) : List ClientEntity := matching p.toIP p.toName p.entries

/-- The message has been released for every client that it has been written to. -/
def Underway (g : PassLog) : SendPc → Prop
  | .iterating _ toIP toName rest => ∃ p, g.current = some p ∧ p.toIP = toIP ∧ p.toName = toName ∧
      p.returned = p.acquired ∧ p.released + (matching toIP toName rest).length = p.matches.length
  | .releasing _ toIP toName rest => ∃ p, g.current = some p ∧ p.toIP = toIP ∧ p.toName = toName ∧
      p.returned + 1 = p.acquired ∧
        p.released + (matching toIP toName rest).length + 1 = p.matches.length
  | .waiting | .popped _ | .copied .. => True

structure Counted (s : State) (g : PassLog) : Prop where
  underway : Underway g s.send
  finished : ∀ p ∈ g.finished, p.returned = p.acquired ∧ p.released = p.matches.length

section Counting

variable {s t : State} {g : PassLog}

lemma Counted.sendStep (h : Counted s g) {a : SendAction} (hs : SendTransition s a t) :
    Counted t (PassLog.record s (.send a) t g) := by
  have hu := h.underway
  cases hs with
  | popMsg | copyStrings => exact ⟨trivial, h.finished⟩
  | @lockTable r toIP toName hpc =>
    have hrec : ∀ t, PassLog.record s (.send .lockTable) t g
        = { g with current := some ⟨toIP, toName, s.table.entries, 0, 0, 0⟩ } := by
      intro t
      rw [PassLog.record, hpc]
    rw [hrec]
    exact ⟨⟨_, rfl, rfl, rfl, rfl, Nat.zero_add _⟩, h.finished⟩
  | @unlock r toIP toName hpc =>
    rw [hpc] at hu
    obtain ⟨p, hp, rfl, rfl, hret, hrel⟩ := hu
    refine ⟨trivial, fun q hq => ?_⟩
    change q ∈ g.finished ++ g.current.toList at hq
    rw [hp] at hq
    rcases List.mem_append.mp hq with hq | hq
    · exact h.finished q hq
    · obtain rfl := List.mem_singleton.mp hq
      exact ⟨hret, hrel⟩
  | @skip r toIP toName k v rest hpc hskip =>
    rw [hpc] at hu
    obtain ⟨p, hp, hip, hname, hret, hrel⟩ := hu
    rw [matching_cons_skip hskip] at hrel
    exact ⟨⟨p, hp, hip, hname, hret, hrel⟩, h.finished⟩
  | @write r toIP toName k e rest cell hpc hmatch hcell =>
    rw [hpc] at hu
    obtain ⟨p, hp, hip, hname, hret, hrel⟩ := hu
    rw [matching_cons_match hmatch] at hrel
    refine ⟨⟨{ p with acquired := p.acquired + 1 }, ?_, hip, hname, ?_, hrel⟩, h.finished⟩
    · change g.current.map _ = _
      rw [hp]
      rfl
    · exact congrArg (· + 1) hret
  | @release r toIP toName rest hpc =>
    rw [hpc] at hu
    obtain ⟨p, hp, hip, hname, hret, hrel⟩ := hu
    refine ⟨⟨{ p with returned := p.returned + 1, released := p.released + 1 }, ?_, hip, hname,
      hret, ?_⟩, h.finished⟩
    · change g.current.map _ = _
      rw [hp]
      rfl
    · change p.released + 1 + _ = p.matches.length
      omega

lemma Counted.step (h : Counted s g) {a : Action} (hs : Transition s a t) :
    Counted t (PassLog.record s a t g) := by
  have hframe : t.send = s.send → Counted t g := fun he => ⟨he ▸ h.underway, h.finished⟩
  cases hs with
  | epoll hs => cases hs <;> exact hframe rfl
  | loop hs => cases hs <;> exact hframe rfl
  | send hs => exact h.sendStep hs

end Counting

def SendPc.serializes : SendPc → Bool
  | .releasing .. => true
  | .waiting | .popped _ | .copied .. | .iterating .. => false

def SendsOnly (_ : State) : Action → Prop
  | .send _ => True
  | .epoll _ | .loop _ => False

section Completion

variable {s t : State} {r : Reference} {toIP toName : Bytes}
  {rest : List (Bytes × Option ClientEntity)}

lemma serializer_step {a : Action} (hs : Transition s a t)
    (h : s.serializer.isOccupied = s.send.serializes) :
    t.serializer.isOccupied = t.send.serializes := by
  cases hs with
  | epoll hs => cases hs <;> exact h
  | loop hs => cases hs <;> exact h
  | send hs =>
    cases hs with
    | popMsg hpc | copyStrings hpc | lockTable hpc | unlock hpc | skip hpc =>
      rw [hpc] at h
      exact h
    | write | release => rfl

lemma next_match {k : Bytes} {e : ClientEntity} {cell : Cell}
    (hpc : s.send = .iterating r toIP toName ((k, some e) :: rest)) (hmatch : e.Matches toIP toName)
    (hcell : s.memory r.ptr = some cell) (hfree : s.serializer.isOccupied = false)
    (hfits : cell.object.encodedSize ≤ serializeBufLen) :
    step s (.send .next) = some { s with
      memory := Function.update s.memory r.ptr (some { cell with object := cell.object.measured })
      serializer := { s.serializer with isOccupied := true }
      send := .releasing r toIP toName rest
      history := .wrote (k, e.clientFd) cell.object.measured :: s.history } := by
  have hser := s.serializer.serialize_ok cell.object hfits
  have hlen := serialized_length hser
  simp [step, sendStep, hpc, hmatch, sendTo, hcell, hfree, hser, hlen]

lemma pass_completes (hpc : s.send = .iterating r toIP toName rest)
    (hfree : s.serializer.isOccupied = false)
    (hmem : matching toIP toName rest ≠ [] → ∃ cell, s.memory r.ptr = some cell ∧
      cell.object.encodedSize ≤ serializeBufLen) :
    ∃ t, Reaches step SendsOnly s t ∧ t.send = .waiting := by
  induction rest generalizing s with
  | nil =>
    have hs : step s (.send .next) = some { s with send := .waiting } := by
      rw [step, sendStep, hpc]
    exact ⟨_, Relation.ReflTransGen.single ⟨.send .next, trivial, hs⟩, rfl⟩
  | cons kv rest ih =>
    obtain ⟨k, v⟩ := kv
    by_cases hskip : ∀ e, v = some e → ¬ e.Matches toIP toName
    · have hs : step s (.send .next)
          = some { s with send := .iterating r toIP toName rest } := by
        rw [step, sendStep, hpc]
        cases v with
        | none => rfl
        | some e => exact if_neg (hskip e rfl)
      rw [matching_cons_skip hskip] at hmem
      obtain ⟨t, ht, hw⟩ :=
        ih (s := { s with send := .iterating r toIP toName rest }) rfl hfree hmem
      exact ⟨t, Relation.ReflTransGen.head ⟨.send .next, trivial, hs⟩ ht, hw⟩
    · obtain ⟨e, he⟩ := not_forall.mp hskip
      obtain ⟨rfl, hmatch⟩ := Classical.not_imp.mp he
      have hmatch := not_not.mp hmatch
      have hne : matching toIP toName ((k, some e) :: rest) ≠ [] := by
        rw [matching_cons_match hmatch]
        exact List.cons_ne_nil _ _
      obtain ⟨cell, hcell, hfits⟩ := hmem hne
      have hs := next_match hpc hmatch hcell hfree hfits
      obtain ⟨t, ht, hw⟩ := ih (s := State.mk s.table s.connections
        (Function.update s.memory r.ptr (some { cell with object := cell.object.measured }))
        (s.entities.releaseEntity r.ptr) { s.serializer with isOccupied := false } s.recvMsgQueue
        s.sendMsgQueue s.epoll s.loop (.iterating r toIP toName rest) s.objects
        (.wrote (k, e.clientFd) cell.object.measured :: s.history)) rfl rfl
        fun _ => ⟨_, Function.update_self .., by
          rw [MsgObject.encodedSize, MsgObject.measured_strings]
          exact hfits⟩
      exact ⟨t, Relation.ReflTransGen.head ⟨.send .next, trivial, hs⟩
        (Relation.ReflTransGen.head ⟨.send .releaseEntity, trivial, rfl⟩ ht), hw⟩

end Completion

section Passes

variable {s : State} {g : PassLog}

lemma reaches_counted {E : SerializeEntity}
    (h : Observed step PassLog.record Free (State.init E, PassLog.empty) (s, g)) :
    Counted s g ∧ Remembered s ∧ s.serializer.isOccupied = s.send.serializes := by
  refine h.invariant (I := fun x => Counted x.1 x.2 ∧ Remembered x.1 ∧
    x.1.serializer.isOccupied = x.1.send.serializes) ?_ fun s g a t hi _ ha => ?_
  · exact ⟨⟨trivial, fun _ hp => absurd hp List.not_mem_nil⟩, remembered_init E, rfl⟩
  · have hst := transition_of_step ha
    exact ⟨hi.1.step hst, hi.2.1.step hst, serializer_step hst hi.2.2⟩

/-- The release stands in the loop over the clients, so a pass gives the message back once for
every client that it is for. A pass whose message is there when it is needed comes to its end. -/
theorem pass_releases_once_iff {E : SerializeEntity}
    (h : Observed step PassLog.record Free (State.init E, PassLog.empty) (s, g)) :
    (∀ p ∈ g.finished, (p.returned = p.acquired ∧ p.released = 1) ↔
      ∃ e, matching p.toIP p.toName p.entries = [e]) ∧
    ∀ r toIP toName rest, s.send = .iterating r toIP toName rest →
      (matching toIP toName rest ≠ [] → s.memory r.ptr ≠ none) →
        ∃ t, Reaches step SendsOnly s t ∧ t.send = .waiting := by
  obtain ⟨hcount, hrem, hser⟩ := reaches_counted h
  constructor
  · intro p hp
    obtain ⟨hret, hrel⟩ := hcount.finished p hp
    rw [← List.length_eq_one_iff, hrel]
    exact and_iff_right hret
  · intro r toIP toName rest hpc hmem
    refine pass_completes hpc (by rw [hser, hpc, SendPc.serializes]) fun hne => ?_
    obtain ⟨cell, hcell⟩ := Option.ne_none_iff_exists'.mp (hmem hne)
    obtain ⟨m, hm, hobj⟩ := hrem.recorded _ _ hcell
    have hfits := hrem.fits m (List.mem_of_getElem? hm)
    refine ⟨cell, hcell, ?_⟩
    rcases hobj with hobj | hobj
    · rw [hobj]
      exact hfits
    · rw [hobj, MsgObject.encodedSize, MsgObject.measured_strings]
      exact hfits

theorem pass_releases_once_one : ∃ g : PassLog, g.finished.map Pass.released = [1] ∧
    ∀ p ∈ g.finished, (p.returned = p.acquired ∧ p.released = 1) ↔
      ∃ e, matching p.toIP p.toName p.entries = [e] := by
  have h : (execute (observe step PassLog.record) (fun x a => Free x.1 a)
      (State.init serializer₀, PassLog.empty) (register client₀ [53, 48] (by decide) ++
      sendFrom client₀ 1 (.data ⟨⟨4, 0⟩, [49], [97], []⟩) (by decide) ++
      [.loop .callBack, .send .popMsg, .send .copyStrings, .send .lockTable, .send .next,
        .send .releaseEntity, .send .next])).map (fun x => x.2.finished.map Pass.released)
      = some [1] := by
    decide +kernel
  obtain ⟨⟨s, g⟩, hs, hg⟩ := reaches_of_execute_map h
  exact ⟨g, hg, (pass_releases_once_iff hs).1⟩

theorem unknown_recipient_kept : ∃ s g,
    Observed step PassLog.record Free (State.init serializer₀, PassLog.empty) (s, g) ∧
      g.finished.map Pass.released = [0] ∧ s.held = [] ∧ s.entities.Occupies 0 := by
  have h : (execute (observe step PassLog.record) (fun x a => Free x.1 a)
      (State.init serializer₀, PassLog.empty) (connect client₀ ++
      sendFrom client₀ 0 (.data ⟨⟨4, 0⟩, [49], [97], []⟩) (by decide) ++
      [.loop .callBack, .send .popMsg, .send .copyStrings, .send .lockTable, .send .next,
        .send .next])).map (fun x => (x.2.finished.map Pass.released, x.1.held,
          (x.1.entities[0]?).map fun E => (E.deSerializedMsg, E.isOccupied)))
      = some ([0], [], some (some 0, true)) := by
    decide +kernel
  obtain ⟨⟨s, g⟩, hs, hobs⟩ := reaches_of_execute_map h
  simp only [Prod.mk.injEq] at hobs
  obtain ⟨hrel, hheld, hent⟩ := hobs
  obtain ⟨⟨p, b⟩, hE, he⟩ := Option.map_eq_some_iff.mp hent
  cases he
  exact ⟨s, g, hs, hrel, hheld, 0, hE⟩

end Passes

end Xty.Server
