import Xty.Server.Transitions

/-! Which clients the send job writes to, against the messages handled for them. -/

namespace Xty.Server

open Xty.General.Runs Xty.General.SortedTable Xty.General.LittleEndian
open Xty.Message

/-- The connection that was last made from the address, and the Reg or DeReg message that was
last handled for it since. -/
def registration (k : Bytes) : List Event → Option (Connection × Option CallBack)
  | [] => none
  | .connected c :: es => if c.clientIPPort = k then some (c, none) else registration k es
  | .handled f :: es =>
    if f.userIPPort = some k then (registration k es).map fun (c, _) => (c, some f)
    else registration k es
  | _ :: es => registration k es

/-- Every write of a message went to a client whose last message was a Reg with the name and
address that the message is for. -/
def Delivered (s : State) : Prop :=
  ∀ k fd m es, Event.wrote (k, fd) m :: es <:+ s.history → ∃ d c r,
    m = .data d ∧ registration k es = some (c, some (.reg r)) ∧ c.fd = fd ∧
      r.processIP = d.toProcessIP ∧ r.processName = d.toProcessName

def HasRegistered : Option (Connection × Option CallBack) → Prop
  | some (_, some _) => True
  | none | some (_, none) => False

def HasLoggedOut : Option (Connection × Option CallBack) → Prop
  | some (_, some (.deReg _)) => True
  | _ => False

def IsFor (toIP toName : Bytes) : MsgObject → Prop
  | .data d => d.toProcessIP = toIP ∧ d.toProcessName = toName
  | _ => False

/-- The send job looks at an entry: a message for the empty name and address meets no client that
has not registered, one for the text that marks a client as logged out meets no client that has
logged out, and the object has not been replaced by another since the job copied its strings. -/
def EntryServable (s : State) : SendPc → Prop
  | .iterating r toIP toName ((k, some e) :: _) =>
    (toIP = [] ∧ toName = [] → HasRegistered (registration k s.history)) ∧
    (toIP = logOutText ∧ toName = logOutText → ¬ HasLoggedOut (registration k s.history)) ∧
    (e.Matches toIP toName → ∀ cell ∈ s.memory r.ptr, IsFor toIP toName cell.object)
  | _ => True

def Servable (s : State) : Action → Prop
  | .send .next => EntryServable s s.send
  | _ => True

def ClientEntity.Shows (e : ClientEntity) : Option CallBack → Prop
  | none => e.clientIP = [] ∧ e.clientName = []
  | some (.reg m) => e.clientIP = m.processIP ∧ e.clientName = m.processName
  | some (.deReg _) => e.clientIP = logOutText ∧ e.clientName = logOutText
  | some _ => False

def Describes (es : List Event) (k : Bytes) (e : ClientEntity) : Prop :=
  ∃ c f, registration k es = some (c, f) ∧ c.fd = e.clientFd ∧ e.Shows f

def SendPc.rest : SendPc → List (Bytes × Option ClientEntity)
  | .iterating _ _ _ rest | .releasing _ _ _ rest => rest
  | .waiting | .popped _ | .copied .. => []

lemma SendPc.rest_unlocked {p : SendPc} (h : p.locksTable = false) : p.rest = [] := by
  cases p <;> first | rfl | cases h

structure Described (s : State) : Prop where
  table : ∀ k e, s.table.lookup k = some (some e) → Describes s.history k e
  rest : ∀ kv ∈ s.send.rest, kv ∈ s.table.entries
  delivered : Delivered s

section Histories

variable {s t : State}

def Event.Neutral : Event → Prop
  | .connected _ | .handled _ => False
  | _ => True

lemma registration_neutral {v : Event} (hv : v.Neutral) (k : Bytes) (es : List Event) :
    registration k (v :: es) = registration k es := by
  cases v <;> first | rfl | exact hv.elim

lemma Delivered.cons {v : Event} {es : List Event} (h : Delivered s) (ht : t.history = v :: es)
    (hs : s.history = es) (hv : ∀ k m, v ≠ .wrote k m) : Delivered t := by
  intro k fd m es' hsuf
  rw [ht, List.suffix_cons_iff] at hsuf
  rcases hsuf with heq | hsuf
  · exact absurd (List.cons.inj heq).1.symm (hv _ _)
  · exact h k fd m es' (hs ▸ hsuf)

lemma described_init (E : SerializeEntity) : Described (State.init E) where
  table _ _ h := by cases h
  rest _ h := by cases h
  delivered _ _ _ _ h := by cases List.suffix_nil.mp h

lemma Described.congr (h : Described s) (hh : t.history = s.history)
    (htab : ∀ k e, t.table.lookup k = some (some e) → s.table.lookup k = some (some e))
    (hrest : ∀ kv ∈ t.send.rest, kv ∈ t.table.entries) : Described t where
  table k e hk := hh ▸ h.table k e (htab k e hk)
  rest := hrest
  delivered k fd m es hs := h.delivered k fd m es (hh ▸ hs)

lemma Described.cons (h : Described s) {v : Event} (hh : t.history = v :: s.history)
    (hv : v.Neutral) (hw : ∀ k m, v ≠ .wrote k m)
    (htab : ∀ k e, t.table.lookup k = some (some e) → s.table.lookup k = some (some e))
    (hrest : ∀ kv ∈ t.send.rest, kv ∈ t.table.entries) : Described t where
  table k e hk := by
    rw [Describes, hh, registration_neutral hv]
    exact h.table k e (htab k e hk)
  rest := hrest
  delivered := h.delivered.cons hh rfl hw

lemma Described.addClient (h : Described s) {c : Connection} {b : RecvBuffer} {pc : EpollPc}
    (hlock : s.send.locksTable = false) :
    Described { s with
      table := ClientTable.addClient s.table c.clientIPPort (.create c.fd b)
      epoll := pc
      history := .connected c :: s.history } where
  table k e hk := by
    rw [ClientTable.lookup_addClient, Function.update_apply] at hk
    rw [Describes, registration]
    split_ifs at hk with hkc
    · obtain rfl := Option.some.inj (Option.some.inj hk)
      rw [if_pos hkc.symm]
      exact ⟨c, none, rfl, rfl, rfl, rfl⟩
    · rw [if_neg (Ne.symm hkc)]
      exact h.table k e hk
  rest kv hkv := by
    rw [SendPc.rest_unlocked hlock] at hkv
    cases hkv
  delivered := h.delivered.cons rfl rfl (by simp)

lemma Described.handle (h : Described s) {k' : Bytes} {f : CallBack}
    {g : ClientEntity → ClientEntity} {pc : LoopPc} (hlock : s.send.locksTable = false)
    (hf : f.userIPPort = some k') (hfd : ∀ e, (g e).clientFd = e.clientFd)
    (hg : ∀ e, (g e).Shows (some f)) :
    Described { s with
      table := ClientTable.writeClient s.table k' g
      loop := pc
      history := .handled f :: s.history } where
  table k e hk := by
    rw [ClientTable.lookup_writeClient, Function.update_apply] at hk
    rw [Describes, registration, hf]
    split_ifs at hk with hkk
    · subst hkk
      obtain ⟨e', he', rfl⟩ := Option.map_eq_some_iff.mp (Option.some.inj hk)
      have hl : s.table.lookup k = some (some e') := by
        rcases hv : s.table.lookup k with _ | v
        · rw [hv] at he'
          cases he'
        · rw [hv] at he'
          exact congrArg some he'
      obtain ⟨c, _, hr, hc, _⟩ := h.table k e' hl
      rw [if_pos rfl, hr]
      exact ⟨c, some f, rfl, hc.trans (hfd e').symm, hg e'⟩
    · rw [if_neg fun he => hkk (Option.some.inj he).symm]
      exact h.table k e hk
  rest kv hkv := by
    rw [SendPc.rest_unlocked hlock] at hkv
    cases hkv
  delivered := h.delivered.cons rfl rfl (by simp)

lemma Described.visited (h : Described s) {r : Reference} {toIP toName k : Bytes}
    {e : ClientEntity} {rest : List (Bytes × Option ClientEntity)}
    (hpc : s.send = .iterating r toIP toName ((k, some e) :: rest)) :
    Describes s.history k e := by
  refine h.table k e (Table.lookup_eq_some.mpr (h.rest _ ?_))
  rw [hpc]
  exact List.mem_cons_self

lemma Described.write_iff (h : Described s) {r : Reference} {toIP toName k : Bytes}
    {e : ClientEntity} {rest : List (Bytes × Option ClientEntity)} {cell : Cell}
    (hpc : s.send = .iterating r toIP toName ((k, some e) :: rest))
    (hmatch : e.Matches toIP toName) (hcell : s.memory r.ptr = some cell)
    (ht : t.history = .wrote (k, e.clientFd) cell.object.measured :: s.history) :
    Delivered t ↔ Servable s (.send .next) := by
  obtain ⟨c, f, hreg, hfd, hshow⟩ := h.visited hpc
  obtain ⟨hip, hname⟩ := hmatch
  rw [Servable, hpc, EntryServable, hreg]
  constructor
  · intro hd
    obtain ⟨d, c', r', hm, hr', _, hrip, hrname⟩ := hd k e.clientFd _ s.history (by rw [ht])
    rw [hreg] at hr'
    obtain ⟨rfl, rfl⟩ := Prod.mk.inj (Option.some.inj hr')
    refine ⟨fun _ => trivial, fun _ hf => hf, fun _ => ?_⟩
    have hobj : ∃ d', cell.object = .data d' ∧ d'.toProcessIP = d.toProcessIP ∧
        d'.toProcessName = d.toProcessName := by
      cases ho : cell.object <;> rw [ho] at hm <;> cases hm
      exact ⟨_, rfl, rfl, rfl⟩
    obtain ⟨d', ho, hdip, hdname⟩ := hobj
    intro cell' hc
    obtain rfl := Option.some.inj (hcell.symm.trans hc)
    rw [ho]
    constructor
    · rw [hdip, ← hrip, ← hshow.1, hip]
    · rw [hdname, ← hrname, ← hshow.2, hname]
  · rintro ⟨hempty, hmark, hcarry⟩ k' fd' m es hsuf
    rw [ht, List.suffix_cons_iff] at hsuf
    rcases hsuf with heq | hsuf
    · obtain ⟨hv, rfl⟩ := List.cons.inj heq
      cases hv
      have hfor := hcarry ⟨hip, hname⟩ cell hcell
      obtain ⟨d, ho, rfl, rfl⟩ : ∃ d, cell.object = .data d ∧ d.toProcessIP = toIP ∧
          d.toProcessName = toName := by
        cases ho : cell.object <;> rw [ho] at hfor
        case data d => exact ⟨d, rfl, hfor⟩
        all_goals exact hfor.elim
      -- the fields match, so the client is registered under them or one of the texts is in use
      match f, hshow with
      | none, hs => exact absurd (hempty ⟨hip.symm.trans hs.1, hname.symm.trans hs.2⟩) id
      | some (.reg r'), hs =>
        refine ⟨_, c, r', by rw [ho]; rfl, hreg, hfd, ?_, ?_⟩
        · exact hs.1.symm.trans hip
        · exact hs.2.symm.trans hname
      | some (.deReg _), hs =>
        exact absurd trivial (hmark ⟨hip.symm.trans hs.1, hname.symm.trans hs.2⟩)
    · exact h.delivered k' fd' m es hsuf

lemma Described.skip (h : Described s) {r : Reference} {toIP toName k : Bytes}
    {v : Option ClientEntity} {rest : List (Bytes × Option ClientEntity)}
    (hpc : s.send = .iterating r toIP toName ((k, v) :: rest))
    (hskip : ∀ e, v = some e → ¬ e.Matches toIP toName) : Servable s (.send .next) := by
  rw [Servable, hpc]
  cases v with
  | none => trivial
  | some e =>
    obtain ⟨c, f, hreg, _, hshow⟩ := h.visited hpc
    have hne := hskip e rfl
    rw [EntryServable, hreg]
    refine ⟨?_, ?_, fun hm => absurd hm hne⟩
    · rintro ⟨rfl, rfl⟩
      cases f with
      | none => exact absurd hshow hne
      | some f => trivial
    · rintro ⟨rfl, rfl⟩ hout
      match f, hout, hshow with
      | some (.deReg _), _, hs => exact hne hs

lemma Described.epollStep (h : Described s) {a : EpollAction} (hs : EpollTransition s a t) :
    Described t := by
  cases hs with
  | refuse => exact h.cons rfl (by trivial) (by simp) (fun _ _ => id) h.rest
  | addClient _ hlock => exact h.addClient hlock
  | @removeClient c k' _ hlock =>
    refine h.cons rfl (by trivial) (by simp) (fun k e hk => ?_) ?_
    · rw [ClientTable.lookup_removeClient, Function.update_apply] at hk
      split_ifs at hk
      exact hk
    · rw [SendPc.rest_unlocked hlock]
      exact fun _ hkv => absurd hkv List.not_mem_nil
  | read | pushMsg => exact h.cons rfl (by trivial) (by simp) (fun _ _ => id) h.rest
  | accept | find | findNone | wouldBlock | eof | acquireEntity | deSerialize | raise =>
    exact h.congr rfl (fun _ _ => id) h.rest

lemma Described.loopStep (h : Described s) {a : LoopAction} (hs : LoopTransition s a t) :
    Described t := by
  cases hs with
  | reg _ _ _ hlock => exact h.handle hlock rfl (fun _ => rfl) fun _ => ⟨rfl, rfl⟩
  | deReg _ _ _ hlock => exact h.handle hlock rfl (fun _ => rfl) fun _ => ⟨rfl, rfl⟩
  | getMsg | drop | data | release => exact h.congr rfl (fun _ _ => id) h.rest

lemma Described.sendStep (h : Described s) {a : SendAction} (hcond : Servable s (.send a))
    (hs : SendTransition s a t) : Described t := by
  have hrest := h.rest
  cases hs with
  | popMsg | copyStrings | unlock =>
    exact h.congr rfl (fun _ _ => id) fun _ hkv => absurd hkv List.not_mem_nil
  | lockTable => exact h.congr rfl (fun _ _ => id) fun _ => id
  | skip hpc =>
    rw [hpc] at hrest
    exact h.congr rfl (fun _ _ => id) fun kv hkv => hrest kv (List.mem_cons_of_mem _ hkv)
  | write hpc hmatch hcell =>
    rw [hpc] at hrest
    refine ⟨fun k e hk => ?_, fun kv hkv => hrest kv (List.mem_cons_of_mem _ hkv), ?_⟩
    · exact h.table k e hk
    · exact (h.write_iff hpc hmatch hcell rfl).mpr hcond
  | release hpc =>
    rw [hpc] at hrest
    exact h.congr rfl (fun _ _ => id) hrest

lemma Described.step (h : Described s) {a : Action} (hcond : Servable s a)
    (hs : Transition s a t) : Described t := by
  cases hs with
  | epoll hs => exact h.epollStep hs
  | loop hs => exact h.loopStep hs
  | send hs => exact h.sendStep hcond hs

lemma Described.servable (h : Described s) {a : Action} (hs : Transition s a t)
    (ht : Delivered t) : Servable s a := by
  cases hs with
  | epoll | loop => trivial
  | send hs =>
    cases hs with
    | popMsg | copyStrings | lockTable | release => trivial
    | unlock hpc =>
      rw [Servable, hpc]
      trivial
    | skip hpc hskip => exact h.skip hpc hskip
    | write hpc hmatch hcell => exact (h.write_iff hpc hmatch hcell rfl).mp ht

theorem deliveries_registered {E : SerializeEntity} (h : Reaches step Servable (State.init E) s) :
    Delivered s ∧ ∀ a t, step s a = some t → (Delivered t ↔ Servable s a) := by
  have hs : Described s := h.invariant (described_init E) fun _ _ _ hs hcond ha =>
    hs.step hcond (transition_of_step ha)
  refine ⟨hs.delivered, fun a t ha => ⟨hs.servable (transition_of_step ha), fun hcond => ?_⟩⟩
  exact (hs.step hcond (transition_of_step ha)).delivered

end Histories

section Deciding

instance : (o : Option (Connection × Option CallBack)) → Decidable (HasRegistered o)
  | some (_, some _) => isTrue trivial
  | none | some (_, none) => isFalse id

instance : (o : Option (Connection × Option CallBack)) → Decidable (HasLoggedOut o)
  | some (_, some (.deReg _)) => isTrue trivial
  | none | some (_, none) | some (_, some .ignore) | some (_, some .quit)
  | some (_, some (.reg _)) | some (_, some .data) => isFalse id

instance (toIP toName : Bytes) : (m : MsgObject) → Decidable (IsFor toIP toName m)
  | .data _ => inferInstanceAs (Decidable (_ ∧ _))
  | .dull _ | .quit _ | .reg _ | .deReg _ => isFalse id

instance (s : State) : (p : SendPc) → Decidable (EntryServable s p)
  | .iterating _ _ _ ((_, some _) :: _) => inferInstanceAs (Decidable ((_ → _) ∧ (_ → _) ∧ (_ → _)))
  | .iterating _ _ _ [] | .iterating _ _ _ ((_, none) :: _) => isTrue trivial
  | .waiting | .popped _ | .copied .. | .releasing .. => isTrue trivial

instance (s : State) : (a : Action) → Decidable (Servable s a)
  | .send .next => inferInstanceAs (Decidable (EntryServable s s.send))
  | .send .popMsg | .send .copyStrings | .send .lockTable | .send .releaseEntity => isTrue trivial
  | .epoll _ | .loop _ => isTrue trivial

theorem deliveries_registered_self : ∃ s, Reaches step Servable (State.init serializer₀) s ∧
    s.history.head? = some (.wrote ([49, 58, 53, 48], 5) (.data ⟨⟨4, 38⟩, [49], [97], []⟩)) ∧
      Delivered s := by
  have h : (execute step Servable (State.init serializer₀) (connect client₀ ++
      sendFrom client₀ 0 (.reg ⟨⟨2, 0⟩, [97], [49], [53, 48]⟩) (by decide) ++
      [.loop .callBack, .loop .releaseEntity] ++
      sendFrom client₀ 1 (.data ⟨⟨4, 0⟩, [49], [97], []⟩) (by decide) ++
      [.loop .callBack, .send .popMsg, .send .copyStrings, .send .lockTable, .send .next])).map
        (fun s => s.history.head?)
      = some (some (.wrote ([49, 58, 53, 48], 5) (.data ⟨⟨4, 38⟩, [49], [97], []⟩))) := by
    decide +kernel
  obtain ⟨s, hs, hw⟩ := reaches_of_execute_map h
  exact ⟨s, hs, hw, (deliveries_registered hs).1⟩

theorem unregistered_client_served : ∃ s, Reaches step Free (State.init serializer₀) s ∧
    ¬ Delivered s := by
  have h : (execute step Free (State.init serializer₀) (connect client₀ ++
      sendFrom client₀ 0 (.data ⟨⟨4, 0⟩, [], [], [104]⟩) (by decide) ++
      [.loop .callBack, .send .popMsg, .send .copyStrings, .send .lockTable, .send .next])).map
        (fun s => (s.history.head?, registration [49, 58, 53, 48] s.history.tail))
      = some (some (.wrote ([49, 58, 53, 48], 5) (.data ⟨⟨4, 37⟩, [], [], [104]⟩)),
          some (client₀, none)) := by
    decide +kernel
  obtain ⟨s, hs, hw⟩ := reaches_of_execute_map h
  obtain ⟨hhead, hreg⟩ := Prod.mk.inj hw
  refine ⟨s, hs, fun hd => ?_⟩
  obtain ⟨es, hes⟩ := List.head?_eq_some_iff.mp hhead
  obtain ⟨_, _, _, _, hr, _⟩ := hd _ _ _ es (by rw [hes])
  rw [hes, List.tail_cons, hr] at hreg
  cases hreg

end Deciding

end Xty.Server
