import Xty.Server.ActiveClients

/-! The entities that the epoll thread makes and deletes, and the descriptors that they hold. -/

namespace Xty.Server

open Xty.General.Runs Xty.General.SortedTable Xty.General.LittleEndian
open Xty.Message

/-- The entities by number, each with the connection and the buffer that it was made for, the one
that the pointer under a key is to, and the ones that were deleted. -/
structure EntityLog where
  created : List (Connection × RecvBuffer)
  pointee : Bytes → Option ℕ
  deleted : List ℕ

def EntityLog.empty : EntityLog := ⟨[], fun _ => none, []⟩

def EntityLog.record (s : State) (a : Action) (_ : State) (g : EntityLog) : EntityLog :=
  match a, s.epoll with
  | .epoll .addClient, .accepted c b => { g with
      created := g.created ++ [(c, b)]
      pointee := Function.update g.pointee c.clientIPPort (some g.created.length) }
  | .epoll .removeClient, .closed _ k => { g with
      pointee := Function.update g.pointee k none
      deleted := g.deleted ++ (g.pointee k).toList }
  | _, _ => g

def IsOpen (s : State) (fd : ℕ) : Prop := ∃ c ∈ s.connections, c.fd = fd

def Stored (T : ClientTable) (c : Connection) (b : RecvBuffer) : Prop :=
  ∃ e, T.lookup c.clientIPPort = some (some e) ∧ e.clientFd = c.fd ∧ e.recvBuffer = b

/-- The entity under the connection's address is the one that was made for it. -/
structure Owns (s : State) (g : EntityLog) (c : Connection) (n : ℕ) (b : RecvBuffer) : Prop where
  created : g.created[n]? = some (c, b)
  pointee : g.pointee c.clientIPPort = some n
  stored : Stored s.table c b

structure Attributed (s : State) (g : EntityLog) : Prop where
  tracked : Tracked s
  owner : ∀ c ∈ s.known, ∃ n b, Owns s g c n b
  pointee : ∀ k n, g.pointee k = some n → n ∉ g.deleted ∧ ∃ c ∈ s.known, c.clientIPPort = k
  deleted_lt : ∀ n ∈ g.deleted, n < g.created.length
  once : g.deleted.Nodup
  found : ∀ k fd b, s.epoll = .found k fd b →
    ∃ c ∈ s.connections, c.fd = fd ∧ c.clientIPPort = k ∧ ∃ n, Owns s g c n b

section Entities

variable {s t : State} {g : EntityLog} {c : Connection} {b : RecvBuffer} {n : ℕ} {k : Bytes}

lemma stored_writeClient {T : ClientTable} {f : ClientEntity → ClientEntity} (k' : Bytes)
    (hf : ∀ e, (f e).clientFd = e.clientFd ∧ (f e).recvBuffer = e.recvBuffer)
    (h : Stored T c b) : Stored (T.writeClient k' f) c b := by
  obtain ⟨e, he, hfd, hb⟩ := h
  rw [Stored, ClientTable.lookup_writeClient, Function.update_apply]
  split_ifs with hk
  · rw [← hk, he]
    exact ⟨f e, rfl, (hf e).1.trans hfd, (hf e).2.trans hb⟩
  · exact ⟨e, he, hfd, hb⟩

lemma stored_update {T U : ClientTable} {v : Option (Option ClientEntity)}
    (hU : U.lookup = Function.update T.lookup k v) (hk : c.clientIPPort ≠ k) (h : Stored T c b) :
    Stored U c b := by
  rw [Stored, hU, Function.update_of_ne hk]
  exact h

lemma attributed_init (E : SerializeEntity) : Attributed (State.init E) EntityLog.empty where
  tracked := tracked_init E
  owner _ h := by cases h
  pointee _ _ h := by cases h
  deleted_lt _ h := by cases h
  once := List.nodup_nil
  found _ _ _ h := by cases h

lemma Owns.transfer (h : Owns s g c n b) (htab : ∀ c b, Stored s.table c b → Stored t.table c b) :
    Owns t g c n b :=
  ⟨h.created, h.pointee, htab c b h.stored⟩

lemma Attributed.transfer (h : Attributed s g) (ht : Tracked t)
    (hk : ∀ c, c ∈ t.known ↔ c ∈ s.known) (htab : ∀ c b, Stored s.table c b → Stored t.table c b)
    (hf : ∀ k fd b, t.epoll = .found k fd b →
      ∃ c ∈ t.connections, c.fd = fd ∧ c.clientIPPort = k ∧ ∃ n, Owns s g c n b) :
    Attributed t g where
  tracked := ht
  owner c hm := by
    obtain ⟨n, b, ho⟩ := h.owner c ((hk c).mp hm)
    exact ⟨n, b, ho.transfer htab⟩
  pointee k n hn := by
    obtain ⟨hdel, c, hm, hck⟩ := h.pointee k n hn
    exact ⟨hdel, c, (hk c).mpr hm, hck⟩
  deleted_lt := h.deleted_lt
  once := h.once
  found k fd b hb := by
    obtain ⟨c, hm, hfd, hck, n, ho⟩ := hf k fd b hb
    exact ⟨c, hm, hfd, hck, n, ho.transfer htab⟩

lemma Attributed.congr (h : Attributed s g) (ht : Tracked t) (hc : t.connections = s.connections)
    (he : t.epoll = s.epoll) (htab : ∀ c b, Stored s.table c b → Stored t.table c b) :
    Attributed t g := by
  refine h.transfer ht (fun c => ?_) htab ?_
  · rw [State.known, State.known, hc, he]
  · rw [he, hc]
    exact h.found

lemma Attributed.settle (h : Attributed s g) (ht : Tracked t) (hs : s.epoll.Settled)
    (hts : t.epoll.Settled) (hc : t.connections = s.connections) (htab : t.table = s.table)
    (hf : ∀ k fd b, t.epoll ≠ .found k fd b) : Attributed t g := by
  refine h.transfer ht (fun c => ?_) (fun c b hst => ?_) fun k fd b hb => absurd hb (hf k fd b)
  · rw [State.known_settled hs, State.known_settled hts, hc]
  · rw [htab]
    exact hst

lemma Owns.unique {c' : Connection} {b' : RecvBuffer} (h : Owns s g c n b)
    (h' : Owns s g c' n b') : c = c' :=
  congrArg Prod.fst (Option.some.inj (h.created.symm.trans h'.created))

lemma Attributed.addClient (h : Attributed s g) (hpc : s.epoll = .accepted c b) (es : List Event) :
    Attributed { s with
      table := ClientTable.addClient s.table c.clientIPPort (.create c.fd b)
      epoll := .polling
      history := es }
      { g with
        created := g.created ++ [(c, b)]
        pointee := Function.update g.pointee c.clientIPPort (some g.created.length) } := by
  have hmem := h.tracked.accepted c b hpc
  have hperm := List.perm_cons_erase hmem
  have hd := (hperm.pairwise_iff fun hcd => Differ.symm hcd).mp h.tracked.open_differ
  have hne : ∀ d ∈ s.connections.erase c, d.clientIPPort ≠ c.clientIPPort := fun d hm =>
    ((List.pairwise_cons.mp hd).1 d hm).2.symm
  have hlt : ∀ (m : ℕ) (p : Connection × RecvBuffer), g.created[m]? = some p →
      (g.created ++ [(c, b)])[m]? = some p := by
    intro m p hm
    rw [List.getElem?_append_left (List.getElem?_eq_some_iff.mp hm).1, hm]
  have howner := h.owner
  rw [State.known, hpc] at howner
  refine ⟨h.tracked.addClient hpc es, ?_, ?_, ?_, h.once, ?_⟩
  · intro d hm
    rcases List.mem_cons.mp (hperm.mem_iff.mp hm) with rfl | hm
    · refine ⟨g.created.length, b, ?_, Function.update_self .., .create d.fd b, ?_, rfl, rfl⟩
      · exact List.getElem?_concat_length
      · rw [ClientTable.lookup_addClient, Function.update_self]
    · obtain ⟨m, b', ho⟩ := howner d hm
      refine ⟨m, b', hlt m _ ho.created, ?_, ?_⟩
      · exact (Function.update_of_ne (hne d hm) ..).trans ho.pointee
      · exact stored_update (ClientTable.lookup_addClient ..) (hne d hm) ho.stored
  · intro k m hm
    simp only [Function.update_apply] at hm
    split_ifs at hm with hk
    · obtain rfl := Option.some.inj hm
      exact ⟨fun hdel => absurd (h.deleted_lt _ hdel) (lt_irrefl _), c, hmem, hk.symm⟩
    · obtain ⟨hdel, d, hd, hdk⟩ := h.pointee k m hm
      rw [State.known, hpc] at hd
      exact ⟨hdel, d, List.mem_of_mem_erase hd, hdk⟩
  · intro m hm
    rw [List.length_append]
    exact (h.deleted_lt m hm).trans_le (Nat.le_add_right _ _)
  · intro _ _ _ hb
    cases hb

lemma Attributed.closing (h : Attributed s g) (hpc : s.epoll = .closed c k) :
    c.clientIPPort = k ∧ ∃ n b, Owns s g c n b ∧ n ∉ g.deleted := by
  have hm : c ∈ s.known := by
    rw [State.known, hpc]
    exact List.mem_cons_self
  obtain ⟨n, b, ho⟩ := h.owner c hm
  exact ⟨h.tracked.closed c k hpc, n, b, ho, (h.pointee _ n ho.pointee).1⟩

lemma Attributed.removeClient (h : Attributed s g) (hpc : s.epoll = .closed c k)
    (es : List Event) :
    Attributed { s with
      table := ClientTable.removeClient s.table k
      epoll := .polling
      history := es }
      { g with
        pointee := Function.update g.pointee k none
        deleted := g.deleted ++ (g.pointee k).toList } := by
  obtain ⟨rfl, n, b, hown, hdel⟩ := h.closing hpc
  have hd := h.tracked.known_differ
  have howner := h.owner
  have hpoint := h.pointee
  rw [State.known, hpc] at hd
  simp only [State.known, hpc, List.mem_cons] at howner hpoint
  have hne : ∀ d ∈ s.connections, d.clientIPPort ≠ c.clientIPPort := fun d hm =>
    ((List.pairwise_cons.mp hd).1 d hm).2.symm
  rw [hown.pointee, Option.toList_some]
  refine ⟨h.tracked.removeClient hpc es, ?_, ?_, ?_, ?_, ?_⟩
  · intro d hm
    obtain ⟨m, b', ho⟩ := howner d (Or.inr hm)
    refine ⟨m, b', ho.created, ?_, ?_⟩
    · exact (Function.update_of_ne (hne d hm) ..).trans ho.pointee
    · exact stored_update (ClientTable.lookup_removeClient ..) (hne d hm) ho.stored
  · intro k m hm
    simp only [Function.update_apply] at hm
    split_ifs at hm with hk
    obtain ⟨hmdel, d, hdm, rfl⟩ := hpoint k m hm
    have hdm : d ∈ s.connections := hdm.resolve_left (by rintro rfl; exact hk rfl)
    refine ⟨fun hin => ?_, d, hdm, rfl⟩
    rcases List.mem_append.mp hin with hin | hin
    · exact hmdel hin
    · obtain rfl := List.mem_singleton.mp hin
      obtain ⟨m', b', ho⟩ := howner d (Or.inr hdm)
      obtain rfl := Option.some.inj (hm.symm.trans ho.pointee)
      exact hk (congrArg Connection.clientIPPort (ho.unique hown))
  · intro m hm
    rcases List.mem_append.mp hm with hm | hm
    · exact h.deleted_lt m hm
    · obtain rfl := List.mem_singleton.mp hm
      exact (List.getElem?_eq_some_iff.mp hown.created).1
  · exact List.nodup_append.mpr ⟨h.once, List.nodup_singleton n, fun m hm m' hm' he =>
      hdel (by rwa [← List.mem_singleton.mp hm', ← he])⟩
  · intro _ _ _ hb
    cases hb

lemma Attributed.find (h : Attributed s g) (hpc : s.epoll = .polling) {fd : ℕ} {e : ClientEntity}
    (hfind : ClientTable.findFd s.table fd = some (k, e)) :
    ∃ c ∈ s.connections, c.fd = fd ∧ c.clientIPPort = k ∧ ∃ n, Owns s g c n e.recvBuffer := by
  obtain ⟨hl, hfd⟩ := ClientTable.findFd_some hfind
  obtain ⟨c, hm, rfl, hcf⟩ := (h.tracked.bound k fd).mp ⟨e, hl, hfd⟩
  obtain ⟨n, b, ho⟩ := h.owner c hm
  obtain ⟨e', he', _, rfl⟩ := ho.stored
  obtain rfl := Option.some.inj (Option.some.inj (hl.symm.trans he'))
  rw [State.known_settled (by rw [hpc]; trivial)] at hm
  exact ⟨c, hm, hcf, rfl, n, ho⟩

lemma Attributed.epollStep (h : Attributed s g) {a : EpollAction} (hs : EpollTransition s a t) :
    Attributed t (EntityLog.record s (.epoll a) t g) := by
  have ht := h.tracked.epollStep hs
  cases hs with
  | refuse => exact h.congr ht rfl rfl fun _ _ => id
  | findNone => exact h
  | @accept c b hpc =>
    refine h.transfer ht (fun d => ?_) (fun _ _ => id) (fun _ _ _ hb => by cases hb)
    rw [State.known_settled (s := s) (by rw [hpc]; trivial)]
    simp only [State.known, List.erase_cons_head]
  | addClient hpc =>
    simp only [EntityLog.record, hpc]
    exact h.addClient hpc _
  | find hpc _ hfind =>
    have hknown : s.known = s.connections := State.known_settled (by rw [hpc]; trivial)
    refine h.transfer ht (fun d => ?_) (fun _ _ => id) ?_
    · rw [hknown]
      rfl
    · rintro _ _ _ ⟨⟩
      exact h.find hpc hfind
  | eof hpc hc =>
    have hknown : s.known = s.connections := State.known_settled (by rw [hpc]; trivial)
    refine h.transfer ht (fun d => ?_) (fun _ _ => id) (fun _ _ _ hb => by cases hb)
    rw [hknown, (List.perm_cons_erase hc).mem_iff]
    rfl
  | removeClient hpc =>
    simp only [EntityLog.record, hpc]
    exact h.removeClient hpc _
  | wouldBlock hpc | read hpc | acquireEntity hpc | deSerialize hpc | raise hpc | pushMsg hpc =>
    exact h.settle ht (by rw [hpc]; trivial) trivial rfl rfl (fun _ _ _ hb => by cases hb)

lemma Attributed.step (h : Attributed s g) {a : Action} (hs : Transition s a t) :
    Attributed t (EntityLog.record s a t g) := by
  have ht := h.tracked.step hs
  cases hs with
  | epoll hs => exact h.epollStep hs
  | loop hs =>
    cases hs with
    | reg | deReg =>
      exact h.congr ht rfl rfl fun _ _ => stored_writeClient _ fun _ => ⟨rfl, rfl⟩
    | getMsg | drop | data | release => exact h.congr ht rfl rfl fun _ _ => id
  | send hs => cases hs <;> exact h.congr ht rfl rfl fun _ _ => id

lemma reaches_attributed {E : SerializeEntity}
    (h : Observed step EntityLog.record Free (State.init E, EntityLog.empty) (s, g)) :
    Attributed s g :=
  h.invariant (I := fun x => Attributed x.1 x.2) (attributed_init E) fun _ _ _ _ hi _ ha =>
    hi.step (transition_of_step ha)

lemma Attributed.findFd (h : Attributed s g) (hpc : s.epoll = .polling) (hc : c ∈ s.connections) :
    ∃ n e, ClientTable.findFd s.table c.fd = some (c.clientIPPort, e) ∧
      Owns s g c n e.recvBuffer := by
  have hknown : s.known = s.connections := State.known_settled (by rw [hpc]; trivial)
  obtain ⟨n, b, ho⟩ := h.owner c (hknown ▸ hc)
  obtain ⟨e, he, hfd, rfl⟩ := ho.stored
  obtain ⟨⟨k, e'⟩, hfind⟩ := Option.ne_none_iff_exists'.mp (ClientTable.findFd_ne_none he)
  rw [hfd] at hfind
  obtain ⟨d, hd, hdf, rfl, m, hm⟩ := h.find hpc hfind
  obtain rfl : d = c := by
    by_contra hne
    exact (h.tracked.open_differ.forall hd hc hne).1 hdf
  exact ⟨m, e', hfind, hm⟩

lemma scan_finds (h : Attributed s g) (hc : c ∈ s.connections)
    (ht : step s (.epoll (.findFd c.fd)) = some t) :
    ∃ n b, Owns s g c n b ∧ t.epoll = .found c.clientIPPort c.fd b := by
  rw [step, epollStep] at ht
  split at ht
  · next hpc =>
    obtain ⟨n, e, hfind, ho⟩ := h.findFd hpc hc
    split_ifs at ht
    rw [hfind] at ht
    obtain rfl := Option.some.inj ht
    exact ⟨n, e.recvBuffer, ho, rfl⟩
  · cases ht

/-- What an entity has to itself: its descriptor, its buffer and its entry in the table. -/
structure Exclusive (s : State) (g : EntityLog) : Prop where
  distinct : ∀ k k' e e', s.table.lookup k = some (some e) → s.table.lookup k' = some (some e') →
    e.clientFd = e'.clientFd → k = k'
  isOpen : ∀ k e, s.table.lookup k = some (some e) →
    IsOpen s e.clientFd ∨ ∃ c, s.epoll = .closed c k ∧ c.fd = e.clientFd
  scan : ∀ c ∈ s.connections, ∀ t, step s (.epoll (.findFd c.fd)) = some t →
    ∃ n b, Owns s g c n b ∧ t.epoll = .found c.clientIPPort c.fd b
  found : ∀ k fd b, s.epoll = .found k fd b →
    ∃ c ∈ s.connections, c.fd = fd ∧ c.clientIPPort = k ∧ ∃ n, Owns s g c n b
  close : ∀ c t, step s (.epoll (.eof c)) = some t → t.connections = s.connections.erase c ∧
    ¬ IsOpen t c.fd ∧ t.table = s.table ∧ t.epoll = .closed c c.clientIPPort
  remove : ∀ c k, s.epoll = .closed c k → c.clientIPPort = k ∧
    ∃ n b, Owns s g c n b ∧ n ∉ g.deleted ∧ ∀ t, step s (.epoll .removeClient) = some t →
      (EntityLog.record s (.epoll .removeClient) t g).deleted = g.deleted ++ [n] ∧
        t.table.lookup = Function.update s.table.lookup k none ∧ t.connections = s.connections
  once : g.deleted.Nodup

lemma Attributed.exclusive (h : Attributed s g) : Exclusive s g where
  distinct k k' e e' he he' hfd := by
    obtain ⟨c, hc, rfl, hcf⟩ := (h.tracked.bound k _).mp ⟨e, he, rfl⟩
    obtain ⟨d, hd, rfl, hdf⟩ := (h.tracked.bound k' _).mp ⟨e', he', rfl⟩
    by_contra hne
    have hcd : c ≠ d := fun heq => hne (heq ▸ rfl)
    exact (h.tracked.known_differ.forall hc hd hcd).1 (hcf.trans (hfd.trans hdf.symm))
  isOpen k e he := by
    obtain ⟨c, hc, rfl, hcf⟩ := (h.tracked.bound k _).mp ⟨e, he, rfl⟩
    rw [State.known] at hc
    split at hc
    · exact Or.inl ⟨c, List.mem_of_mem_erase hc, hcf⟩
    · next d k' hpc =>
      rcases List.mem_cons.mp hc with rfl | hc
      · exact Or.inr ⟨c, h.tracked.closed c k' hpc ▸ hpc, hcf⟩
      · exact Or.inl ⟨c, hc, hcf⟩
    · exact Or.inl ⟨c, hc, hcf⟩
  scan _ hc _ ht := scan_finds h hc ht
  found := h.found
  close c t ht := by
    cases transition_of_step ht with
    | epoll hs =>
    cases hs with
    | eof hpc hc hfd =>
      have hd := ((List.perm_cons_erase hc).pairwise_iff fun hcd => Differ.symm hcd).mp
        h.tracked.open_differ
      refine ⟨rfl, ?_, rfl, by rw [h.tracked.found_key hpc hc hfd]⟩
      rintro ⟨d, hm, hdf⟩
      exact ((List.pairwise_cons.mp hd).1 d hm).1 hdf.symm
  remove c k hpc := by
    obtain ⟨rfl, n, b, ho, hdel⟩ := h.closing hpc
    refine ⟨rfl, n, b, ho, hdel, fun t ht => ⟨?_, ?_, ?_⟩⟩
    · simp only [EntityLog.record, hpc, ho.pointee, Option.toList_some]
    · cases transition_of_step ht with
      | epoll hs =>
      cases hs with
      | removeClient hpc' =>
        obtain ⟨rfl, rfl⟩ := EpollPc.closed.inj (hpc.symm.trans hpc')
        exact ClientTable.lookup_removeClient ..
    · cases transition_of_step ht with
      | epoll hs =>
      cases hs with
      | removeClient => rfl
  once := h.once

/-- Between `close` and the removal of the entry, the entry still has the descriptor. -/
theorem entries_hold_descriptors {E : SerializeEntity}
    (h : Observed step EntityLog.record Free (State.init E, EntityLog.empty) (s, g)) :
    Exclusive s g :=
  (reaches_attributed h).exclusive

def EpollPc.scanned : EpollPc → Option (Bytes × ℕ × RecvBuffer)
  | .found k fd b => some (k, fd, b)
  | .polling | .accepted .. | .closed .. | .received .. | .acquired .. | .deSerialized .. => none

lemma scanned_eq_some {pc : EpollPc} {fd : ℕ} (h : pc.scanned = some (k, fd, b)) :
    pc = .found k fd b := by
  cases pc with
  | found => simpa [EpollPc.scanned] using h
  | polling | accepted | closed | received | acquired | deSerialized => cases h

theorem entries_hold_descriptors_reused : ∃ s g,
    Observed step EntityLog.record Free (State.init serializer₀, EntityLog.empty) (s, g) ∧
      s.epoll = .found [49, 58, 53, 49] 5 buffer₀ ∧ g.deleted = [0] ∧ Exclusive s g := by
  have h : (execute (observe step EntityLog.record) (fun x a => Free x.1 a)
      (State.init serializer₀, EntityLog.empty) (connect client₀ ++
      [.epoll (.findFd 5), .epoll (.eof client₀), .epoll .removeClient] ++
      connect ⟨5, [49], 51⟩ ++ [.epoll (.findFd 5)])).map
        (fun x => (x.1.epoll.scanned, x.2.deleted))
      = some (some ([49, 58, 53, 49], 5, buffer₀), [0]) := by
    decide +kernel
  obtain ⟨⟨s, g⟩, hs, hobs⟩ := reaches_of_execute_map h
  obtain ⟨hscan, hdel⟩ := Prod.mk.inj hobs
  exact ⟨s, g, hs, scanned_eq_some hscan, hdel, entries_hold_descriptors hs⟩

/-- The loop thread handles the client's Reg message after the epoll thread has closed the
descriptor, and the entry that it fills in is still there. -/
theorem entry_outlives_descriptor : ∃ s, Reaches step Free (State.init serializer₀) s ∧
    s.history.head? = some (.handled (.reg ⟨⟨2, 40⟩, [97], [49], [53, 48]⟩)) ∧
      ∃ k e, s.table.lookup k = some (some e) ∧ ¬ IsOpen s e.clientFd := by
  have h : (execute step Free (State.init serializer₀) (connect client₀ ++
      sendFrom client₀ 0 (.reg ⟨⟨2, 0⟩, [97], [49], [53, 48]⟩) (by decide) ++
      [.epoll (.findFd 5), .epoll (.eof client₀), .loop .callBack])).map
        (fun s => (s.history.head?, s.connections, s.table.lookup [49, 58, 53, 48]))
      = some (some (.handled (.reg ⟨⟨2, 40⟩, [97], [49], [53, 48]⟩)), [],
          some (some ⟨5, buffer₀, [97], [49], [53, 48]⟩)) := by
    decide +kernel
  obtain ⟨s, hs, hobs⟩ := reaches_of_execute_map h
  simp only [Prod.mk.injEq] at hobs
  obtain ⟨hhead, hnone, hl⟩ := hobs
  refine ⟨s, hs, hhead, _, _, hl, ?_⟩
  rintro ⟨c, hc, _⟩
  rw [hnone] at hc
  cases hc

end Entities

end Xty.Server
