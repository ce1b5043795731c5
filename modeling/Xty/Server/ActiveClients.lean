import Xty.Server.Transitions

/-! The keys of the client table against the connections that are open. -/

namespace Xty.Server

open Xty.General.Runs Xty.General.SortedTable Xty.General.LittleEndian
open Xty.Message

/-- The connections that the epoll thread has done accepting and has not done closing. -/
def State.known (s : State) : List Connection :=
  match s.epoll with
  | .accepted c _ => s.connections.erase c
  | .closed c _ => c :: s.connections
  | _ => s.connections

def Differ (c d : Connection) : Prop := c.fd ≠ d.fd ∧ c.clientIPPort ≠ d.clientIPPort

lemma Differ.symm {c d : Connection} (h : Differ c d) : Differ d c := ⟨h.1.symm, h.2.symm⟩

instance : Std.Symm Differ := ⟨fun _ _ => Differ.symm⟩

def Bound (T : ClientTable) (k : Bytes) (fd : ℕ) : Prop :=
  ∃ e, T.lookup k = some (some e) ∧ e.clientFd = fd

structure Tracked (s : State) : Prop where
  open_differ : s.connections.Pairwise Differ
  known_differ : s.known.Pairwise Differ
  accepted : ∀ c b, s.epoll = .accepted c b → c ∈ s.connections
  bound : ∀ k fd, Bound s.table k fd ↔ ∃ c ∈ s.known, c.clientIPPort = k ∧ c.fd = fd
  found : ∀ k fd b, s.epoll = .found k fd b → Bound s.table k fd
  closed : ∀ c k, s.epoll = .closed c k → c.clientIPPort = k

section Tracking

variable {s t : State} {k : Bytes} {fd : ℕ}

lemma bound_writeClient {T : ClientTable} {f : ClientEntity → ClientEntity} (k' : Bytes)
    (hf : ∀ e, (f e).clientFd = e.clientFd) :
    Bound (ClientTable.writeClient T k' f) k fd ↔ Bound T k fd := by
  rw [Bound, Bound, ClientTable.lookup_writeClient, Function.update_apply]
  split_ifs with hk
  · subst hk
    rcases T.lookup k with _ | _ | e <;> simp [hf]
  · rfl

def EpollPc.Settled : EpollPc → Prop
  | .accepted .. | .closed .. => False
  | _ => True

lemma State.known_settled (h : s.epoll.Settled) : s.known = s.connections := by
  rw [State.known]
  split
  · next he => exact absurd h (by rw [he]; exact id)
  · next he => exact absurd h (by rw [he]; exact id)
  · rfl

lemma tracked_init (E : SerializeEntity) : Tracked (State.init E) where
  open_differ := List.Pairwise.nil
  known_differ := List.Pairwise.nil
  accepted _ _ h := by cases h
  bound k fd := by simp [Bound, State.init, State.known]
  found _ _ _ h := by cases h
  closed _ _ h := by cases h

lemma Tracked.congr (h : Tracked s) (ht : ∀ k fd, Bound t.table k fd ↔ Bound s.table k fd)
    (hc : t.connections = s.connections) (he : t.epoll = s.epoll) : Tracked t := by
  have hk : t.known = s.known := by rw [State.known, State.known, hc, he]
  refine ⟨?_, ?_, ?_, ?_, ?_, ?_⟩
  · exact hc ▸ h.open_differ
  · exact hk ▸ h.known_differ
  · intro c b hb
    exact hc ▸ h.accepted c b (he ▸ hb)
  · intro k fd
    rw [ht, hk]
    exact h.bound k fd
  · intro k fd b hb
    exact (ht k fd).mpr (h.found k fd b (he ▸ hb))
  · intro c k hb
    exact h.closed c k (he ▸ hb)

lemma Tracked.settle (h : Tracked s) (hs : s.epoll.Settled) (ht : t.epoll.Settled)
    (htab : t.table = s.table) (hc : t.connections = s.connections)
    (hf : ∀ k fd b, t.epoll = .found k fd b → Bound s.table k fd) : Tracked t := by
  have hk : t.known = s.known := by rw [State.known_settled hs, State.known_settled ht, hc]
  refine ⟨hc ▸ h.open_differ, hk ▸ h.known_differ, ?_, ?_, ?_, ?_⟩
  · intro c b hb
    rw [hb] at ht
    exact ht.elim
  · rw [htab, hk]
    exact h.bound
  · rw [htab]
    exact hf
  · intro c k hb
    rw [hb] at ht
    exact ht.elim

lemma fresh_differ {c : Connection} (hc : Fresh s c) : ∀ d ∈ s.connections, Differ c d :=
  fun d hd => Differ.symm (hc d hd)

lemma Tracked.accept (h : Tracked s) {c : Connection} {b : RecvBuffer} (hs : s.epoll.Settled)
    (hc : Fresh s c) :
    Tracked { s with connections := c :: s.connections, epoll := .accepted c b } where
  open_differ := List.pairwise_cons.mpr ⟨fresh_differ hc, h.open_differ⟩
  known_differ := by
    simpa only [State.known, List.erase_cons_head] using h.open_differ
  accepted _ _ hb := by
    cases hb
    exact List.mem_cons_self
  bound k fd := by
    have hb := h.bound k fd
    rw [State.known_settled hs] at hb
    simpa only [State.known, List.erase_cons_head] using hb
  found _ _ _ hb := by cases hb
  closed _ _ hb := by cases hb

lemma bound_update {T U : ClientTable} {k' : Bytes} {v : Option (Option ClientEntity)}
    (hU : U.lookup = Function.update T.lookup k' v) :
    Bound U k fd ↔
      (k = k' ∧ ∃ e, v = some (some e) ∧ e.clientFd = fd) ∨ (k ≠ k' ∧ Bound T k fd) := by
  rw [Bound, hU, Function.update_apply]
  by_cases hk : k = k'
  · simp [hk]
  · simp [hk, Bound]

lemma Tracked.addClient (h : Tracked s) {c : Connection} {b : RecvBuffer}
    (hpc : s.epoll = .accepted c b) (es : List Event) :
    Tracked { s with
      table := ClientTable.addClient s.table c.clientIPPort (.create c.fd b)
      epoll := .polling
      history := es } where
  open_differ := h.open_differ
  known_differ := h.open_differ
  accepted _ _ hb := by cases hb
  bound k fd := by
    have hmem := h.accepted c b hpc
    have hperm := List.perm_cons_erase hmem
    have hb := h.bound k fd
    rw [State.known, hpc] at hb
    rw [bound_update (ClientTable.lookup_addClient ..), hb]
    simp only [State.known, hperm.mem_iff, List.mem_cons]
    have hd : ∀ d ∈ s.connections.erase c, c.clientIPPort ≠ d.clientIPPort := by
      have hp := (hperm.pairwise_iff fun hcd => Differ.symm hcd).mp h.open_differ
      exact fun d hd => ((List.pairwise_cons.mp hp).1 d hd).2
    constructor
    · rintro (⟨rfl, e, he, rfl⟩ | ⟨_, d, hm, rfl, rfl⟩)
      · obtain rfl := Option.some.inj (Option.some.inj he)
        exact ⟨c, Or.inl rfl, rfl, rfl⟩
      · exact ⟨d, Or.inr hm, rfl, rfl⟩
    · rintro ⟨d, rfl | hm, rfl, rfl⟩
      · exact Or.inl ⟨rfl, _, rfl, rfl⟩
      · exact Or.inr ⟨(hd d hm).symm, d, hm, rfl, rfl⟩
  found _ _ _ hb := by cases hb
  closed _ _ hb := by cases hb

lemma Tracked.found_key (h : Tracked s) {b : RecvBuffer} (hpc : s.epoll = .found k fd b)
    {c : Connection} (hc : c ∈ s.connections) (hfd : c.fd = fd) : c.clientIPPort = k := by
  obtain ⟨d, hd, rfl, hdf⟩ := (h.bound k fd).mp (h.found k fd b hpc)
  rw [State.known, hpc] at hd
  by_cases hcd : c = d
  · rw [hcd]
  · have hne := h.open_differ.forall hc hd hcd
    exact absurd (hfd.trans hdf.symm) hne.1

lemma Tracked.eof (h : Tracked s) {b : RecvBuffer} (hpc : s.epoll = .found k fd b)
    {c : Connection} (hc : c ∈ s.connections) (hfd : c.fd = fd) :
    Tracked { s with connections := s.connections.erase c, epoll := .closed c k } where
  open_differ := h.open_differ.sublist List.erase_sublist
  known_differ :=
    ((List.perm_cons_erase hc).pairwise_iff fun hcd => Differ.symm hcd).mp h.open_differ
  accepted _ _ hb := by cases hb
  bound k' fd' := by
    have hb := h.bound k' fd'
    rw [State.known, hpc] at hb
    simpa only [State.known, (List.perm_cons_erase hc).mem_iff] using hb
  found _ _ _ hb := by cases hb
  closed _ _ hb := by
    cases hb
    exact h.found_key hpc hc hfd

lemma Tracked.removeClient (h : Tracked s) {c : Connection} (hpc : s.epoll = .closed c k)
    (es : List Event) :
    Tracked { s with
      table := ClientTable.removeClient s.table k
      epoll := .polling
      history := es } where
  open_differ := h.open_differ
  known_differ := h.open_differ
  accepted _ _ hb := by cases hb
  bound k' fd := by
    have hb := h.bound k' fd
    have hd := h.known_differ
    rw [State.known, hpc] at hb hd
    obtain rfl := h.closed c k hpc
    rw [bound_update (ClientTable.lookup_removeClient ..), hb]
    simp only [State.known, List.mem_cons]
    constructor
    · rintro (⟨_, e, he, _⟩ | ⟨hk, d, rfl | hm, rfl, rfl⟩)
      · cases he
      · exact absurd rfl hk
      · exact ⟨d, hm, rfl, rfl⟩
    · rintro ⟨d, hm, rfl, rfl⟩
      exact Or.inr ⟨((List.pairwise_cons.mp hd).1 d hm).2.symm, d, Or.inr hm, rfl, rfl⟩
  found _ _ _ hb := by cases hb
  closed _ _ hb := by cases hb

lemma Tracked.epollStep (h : Tracked s) {a : EpollAction} (hs : EpollTransition s a t) :
    Tracked t := by
  cases hs with
  | refuse => exact h.congr (fun _ _ => Iff.rfl) rfl rfl
  | accept hpc hc => exact h.accept (by rw [hpc]; trivial) hc
  | addClient hpc => exact h.addClient hpc _
  | @find fd k e hpc _ hfind =>
    obtain ⟨hl, hfd⟩ := ClientTable.findFd_some hfind
    refine h.settle (by rw [hpc]; trivial) trivial rfl rfl ?_
    rintro _ _ _ ⟨⟩
    exact ⟨e, hl, hfd⟩
  | findNone => exact h
  | wouldBlock hpc => exact h.settle (by rw [hpc]; trivial) trivial rfl rfl (by simp)
  | eof hpc hc hfd => exact h.eof hpc hc hfd
  | removeClient hpc => exact h.removeClient hpc _
  | read hpc => exact h.settle (by rw [hpc]; trivial) trivial rfl rfl (by simp)
  | acquireEntity hpc => exact h.settle (by rw [hpc]; trivial) trivial rfl rfl (by simp)
  | deSerialize hpc => exact h.settle (by rw [hpc]; trivial) trivial rfl rfl (by simp)
  | raise hpc => exact h.settle (by rw [hpc]; trivial) trivial rfl rfl (by simp)
  | pushMsg hpc => exact h.settle (by rw [hpc]; trivial) trivial rfl rfl (by simp)

lemma Tracked.loopStep (h : Tracked s) {a : LoopAction} (hs : LoopTransition s a t) :
    Tracked t := by
  cases hs with
  | reg => exact h.congr (fun _ _ => bound_writeClient _ fun _ => rfl) rfl rfl
  | deReg => exact h.congr (fun _ _ => bound_writeClient _ fun _ => rfl) rfl rfl
  | getMsg | drop | data | release => exact h.congr (fun _ _ => Iff.rfl) rfl rfl

lemma Tracked.sendStep (h : Tracked s) {a : SendAction} (hs : SendTransition s a t) :
    Tracked t := by
  cases hs <;> exact h.congr (fun _ _ => Iff.rfl) rfl rfl

lemma Tracked.step (h : Tracked s) {a : Action} (hs : Transition s a t) : Tracked t := by
  cases hs with
  | epoll hs => exact h.epollStep hs
  | loop hs => exact h.loopStep hs
  | send hs => exact h.sendStep hs

end Tracking

section Exactness

variable {s t : State}

/-- The keys are the addresses of the connections, no entry is null, and a connection is refused
only when the limit is reached. -/
structure Exact (s : State) : Prop where
  keys : ∀ k, k ∈ s.table.keys ↔ ∃ c ∈ s.known, c.clientIPPort = k
  entity : ∀ c ∈ s.known, ∃ e,
    s.table.lookup c.clientIPPort = some (some e) ∧ e.clientFd = c.fd
  refused : ∀ c b t, step s (.epoll (.accept c b)) = some t → t.connections = s.connections →
    s.connections.length = epollMaxEvents

def State.addressed (s : State) : Option Bytes :=
  match s.loop with
  | .handling r => do
    let cell ← s.memory r.ptr
    let f ← callBackFun cell.object
    f.userIPPort
  | _ => none

/-- A Reg or DeReg message is handled only for the address of a connected client. -/
def HandlesKnown (s : State) : Action → Prop
  | .loop .callBack => ∀ k ∈ s.addressed, ∃ c ∈ s.known, c.clientIPPort = k
  | _ => True

structure Clean (s : State) : Prop where
  tracked : Tracked s
  nonnull : ∀ k, s.table.lookup k ≠ some none
  open_le : s.connections.length ≤ epollMaxEvents
  known_le : s.known.length ≤ epollMaxEvents

lemma Clean.mem_keys (h : Clean s) (k : Bytes) :
    k ∈ s.table.keys ↔ ∃ c ∈ s.known, c.clientIPPort = k := by
  rw [Table.mem_keys]
  constructor
  · intro hk
    obtain ⟨_ | e, he⟩ := Option.ne_none_iff_exists'.mp hk
    · exact absurd he (h.nonnull k)
    · obtain ⟨c, hc, hck, _⟩ := (h.tracked.bound k e.clientFd).mp ⟨e, he, rfl⟩
      exact ⟨c, hc, hck⟩
  · rintro ⟨c, hc, rfl⟩
    obtain ⟨e, he, _⟩ := (h.tracked.bound _ c.fd).mpr ⟨c, hc, rfl, rfl⟩
    rw [he]
    exact Option.some_ne_none _

lemma Clean.length_entries (h : Clean s) : s.table.entries.length = s.known.length := by
  have hnd : (s.known.map Connection.clientIPPort).Nodup :=
    List.pairwise_map.mpr (h.tracked.known_differ.imp fun hd => hd.2)
  have hp : s.table.keys.Perm (s.known.map Connection.clientIPPort) := by
    rw [List.perm_ext_iff_of_nodup s.table.keys_nodup hnd]
    intro k
    rw [h.mem_keys, List.mem_map]
  rw [← Table.length_keys, hp.length_eq, List.length_map]

lemma Clean.size (h : Clean s) : (ClientTable.size s.table).toNat = s.known.length := by
  have hle := h.known_le
  rw [ClientTable.size, UInt32.toNat_toUInt64, h.length_entries, UInt32.toNat_ofNat']
  rw [epollMaxEvents] at hle
  omega

lemma Clean.exact (h : Clean s) : Exact s where
  keys := h.mem_keys
  entity c hc := (h.tracked.bound _ c.fd).mpr ⟨c, hc, rfl, rfl⟩
  refused c b t ht heq := by
    cases transition_of_step ht with
    | epoll hs =>
    cases hs with
    | refuse hpc _ hfull =>
      have hle := h.open_le
      rw [h.size, State.known_settled (by rw [hpc]; trivial)] at hfull
      omega
    | accept => exact absurd heq (List.cons_ne_self _ _)

lemma clean_init (E : SerializeEntity) : Clean (State.init E) where
  tracked := tracked_init E
  nonnull _ h := by cases h
  open_le := Nat.zero_le _
  known_le := Nat.zero_le _

lemma Clean.settle (h : Clean s) (ht : Tracked t) (hts : t.epoll.Settled)
    (htab : t.table = s.table) (hc : t.connections = s.connections) : Clean t where
  tracked := ht
  nonnull := htab ▸ h.nonnull
  open_le := hc ▸ h.open_le
  known_le := by
    rw [State.known_settled hts, hc]
    exact h.open_le

lemma Clean.congr (h : Clean s) (ht : Tracked t) (htab : ∀ k, t.table.lookup k ≠ some none)
    (hc : t.connections = s.connections) (he : t.epoll = s.epoll) : Clean t where
  tracked := ht
  nonnull := htab
  open_le := hc ▸ h.open_le
  known_le := by
    rw [State.known, he, hc]
    exact h.known_le

lemma Clean.epollStep (h : Clean s) {a : EpollAction} (hs : EpollTransition s a t) : Clean t := by
  have ht := h.tracked.epollStep hs
  cases hs with
  | refuse => exact h.congr ht h.nonnull rfl rfl
  | @accept c b hpc _ hroom =>
    rw [h.size, State.known_settled (by rw [hpc]; trivial)] at hroom
    refine ⟨ht, h.nonnull, by rw [List.length_cons]; omega, ?_⟩
    simpa only [State.known, List.erase_cons_head] using h.open_le
  | @addClient c b hpc =>
    refine ⟨ht, fun k => ?_, h.open_le, h.open_le⟩
    rw [ClientTable.lookup_addClient, Function.update_apply]
    split_ifs
    · simp
    · exact h.nonnull k
  | find | wouldBlock => exact h.settle ht trivial rfl rfl
  | findNone => exact h
  | @eof c k fd b hpc hc _ =>
    have hperm := List.perm_cons_erase hc
    refine ⟨ht, h.nonnull, (List.length_erase_le).trans h.open_le, ?_⟩
    simpa only [State.known, hperm.length_eq] using h.open_le
  | @removeClient c k hpc =>
    refine ⟨ht, fun k' => ?_, h.open_le, h.open_le⟩
    rw [ClientTable.lookup_removeClient, Function.update_apply]
    split_ifs
    · simp
    · exact h.nonnull k'
  | read | acquireEntity | deSerialize | raise | pushMsg => exact h.settle ht trivial rfl rfl

lemma addressed_eq {r : Reference} {cell : Cell} {f : CallBack} (hpc : s.loop = .handling r)
    (hcell : s.memory r.ptr = some cell) (hfun : callBackFun cell.object = some f) :
    s.addressed = f.userIPPort := by
  rw [State.addressed, hpc]
  simp [hcell, hfun]

lemma Clean.writeClient (h : Clean s) {k : Bytes} (f : ClientEntity → ClientEntity)
    (hk : ∃ c ∈ s.known, c.clientIPPort = k) (k' : Bytes) :
    (ClientTable.writeClient s.table k f).lookup k' ≠ some none := by
  obtain ⟨c, hc, rfl⟩ := hk
  obtain ⟨e, he, _⟩ := (h.tracked.bound _ c.fd).mpr ⟨c, hc, rfl, rfl⟩
  rw [ClientTable.lookup_writeClient, Function.update_apply]
  split_ifs
  · simp [he]
  · exact h.nonnull k'

lemma Clean.loopStep (h : Clean s) {a : LoopAction} (hcond : HandlesKnown s (.loop a))
    (hs : LoopTransition s a t) : Clean t := by
  have ht := h.tracked.loopStep hs
  cases hs with
  | getMsg | drop | data | release => exact h.congr ht h.nonnull rfl rfl
  | reg hpc hcell hfun =>
    have hk := hcond _ (addressed_eq hpc hcell hfun)
    exact h.congr ht (h.writeClient _ hk) rfl rfl
  | deReg hpc hcell hfun =>
    have hk := hcond _ (addressed_eq hpc hcell hfun)
    exact h.congr ht (h.writeClient _ hk) rfl rfl

lemma Clean.step (h : Clean s) {a : Action} (hcond : HandlesKnown s a) (hs : Transition s a t) :
    Clean t := by
  have ht := h.tracked.step hs
  cases hs with
  | epoll hs => exact h.epollStep hs
  | loop hs => exact h.loopStep hcond hs
  | send hs => cases hs <;> exact h.congr ht h.nonnull rfl rfl

lemma reaches_clean {E : SerializeEntity} (h : Reaches step HandlesKnown (State.init E) s) :
    Clean s :=
  h.invariant (clean_init E) fun _ _ _ hs hcond ha => hs.step hcond (transition_of_step ha)

lemma LoopTransition.handlesKnown {a : LoopAction} (hs : LoopTransition s a t) (ht : Exact t) :
    HandlesKnown s (.loop a) := by
  have hwrite : ∀ k f, t.table = ClientTable.writeClient s.table k f → t.known = s.known →
      ∃ c ∈ s.known, c.clientIPPort = k := by
    intro k f htab hk
    have hmem : k ∈ t.table.keys := by
      rw [Table.mem_keys, htab, ClientTable.lookup_writeClient, Function.update_self]
      exact Option.some_ne_none _
    rw [← hk]
    exact (ht.keys k).mp hmem
  cases hs with
  | getMsg | release => trivial
  | drop hpc hcell hfun hend =>
    intro k hk
    rw [addressed_eq hpc hcell hfun] at hk
    rcases hend with ⟨rfl, _⟩ | ⟨rfl, _⟩ <;> cases hk
  | data hpc hcell hfun =>
    intro k hk
    rw [addressed_eq hpc hcell hfun] at hk
    cases hk
  | reg hpc hcell hfun =>
    intro k hk
    rw [addressed_eq hpc hcell hfun] at hk
    cases hk
    exact hwrite _ _ rfl rfl
  | deReg hpc hcell hfun =>
    intro k hk
    rw [addressed_eq hpc hcell hfun] at hk
    cases hk
    exact hwrite _ _ rfl rfl

theorem active_clients_exact {E : SerializeEntity}
    (h : Reaches step HandlesKnown (State.init E) s) :
    Exact s ∧ ∀ a t, step s a = some t → (Exact t ↔ HandlesKnown s a) := by
  have hs := reaches_clean h
  refine ⟨hs.exact, fun a t ha => ⟨fun ht => ?_, fun hcond => ?_⟩⟩
  · cases transition_of_step ha with
    | epoll | send => trivial
    | loop hl => exact hl.handlesKnown ht
  · exact (hs.step hcond (transition_of_step ha)).exact

instance (s : State) : (a : Action) → Decidable (HandlesKnown s a)
  | .loop .callBack => inferInstanceAs (Decidable (∀ k ∈ s.addressed, ∃ c ∈ s.known, _))
  | .loop .getMsg | .loop .releaseEntity | .epoll _ | .send _ => isTrue trivial

theorem active_clients_exact_reg : ∃ s, Reaches step HandlesKnown (State.init serializer₀) s ∧
    s.table.keys = [[49, 58, 53, 48]] ∧ Exact s := by
  have h : (execute step HandlesKnown (State.init serializer₀) (connect client₀ ++
      sendFrom client₀ 0 (.reg ⟨⟨2, 0⟩, [97], [49], [53, 48]⟩) (by decide) ++
      [.loop .callBack])).map (fun s => s.table.keys) = some [[49, 58, 53, 48]] := by
    decide +kernel
  obtain ⟨s, hs, hk⟩ := reaches_of_execute_map h
  exact ⟨s, hs, hk, (active_clients_exact hs).1⟩

theorem late_deReg_leaves_entry : ∃ s, Reaches step Free (State.init serializer₀) s ∧
    s.known = [] ∧ s.table.keys = [[49, 58, 53, 48]] ∧ ¬ Exact s := by
  have h : (execute step Free (State.init serializer₀) (connect client₀ ++
      sendFrom client₀ 0 (.deReg ⟨⟨3, 0⟩, [97], [49], [53, 48]⟩) (by decide) ++
      [.epoll (.findFd 5), .epoll (.eof client₀), .epoll .removeClient, .loop .callBack])).map
        (fun s => (s.known, s.table.keys)) = some ([], [[49, 58, 53, 48]]) := by decide +kernel
  obtain ⟨s, hs, hk⟩ := reaches_of_execute_map h
  obtain ⟨hc, hk⟩ := Prod.mk.inj hk
  refine ⟨s, hs, hc, hk, fun hx => ?_⟩
  obtain ⟨c, hmem, _⟩ :=
    (hx.keys [49, 58, 53, 48]).mp (by rw [hk]; exact List.mem_singleton.mpr rfl)
  rw [hc] at hmem
  cases hmem

end Exactness

end Xty.Server
