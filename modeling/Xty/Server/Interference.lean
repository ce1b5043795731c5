import Xty.Server.ActiveClients
import Xty.Server.Ownership

/-! Whose entries the handling of a message can change. -/

namespace Xty.Server

open Xty.General.Runs Xty.General.SortedTable Xty.General.LittleEndian
open Xty.Message

/-- For every object, by serial number, the connection and the chunk that it was decoded from. -/
abbrev SourceLog := List (Connection × ReadBytes)

def SourceLog.record (s : State) (a : Action) (_ : State) (g : SourceLog) : SourceLog :=
  match a, s.epoll with
  | .epoll (.deSerialize _), .acquired c _ d _ => g ++ [(c, d)]
  | _, _ => g

/-- The callback that the loop thread is about to run, with the connection and the chunk that its
message was decoded from. -/
def State.handles (s : State) (g : SourceLog) : Option (Connection × ReadBytes × CallBack) :=
  match s.loop with
  | .handling r => do
    let cell ← s.memory r.ptr
    let f ← callBackFun cell.object
    let (c, d) ← g[cell.serial]?
    return (c, d, f)
  | _ => none

/-- At most the name, the address and the port of the entry under one key have changed, or an
entry without a client has come under it, and so the clients under the other keys that a message
is for are the same. -/
structure Confined (key : Option Bytes) (s t : State) : Prop where
  others : ∀ k, key ≠ some k → t.table.lookup k = s.table.lookup k
  socket : ∀ k e, s.table.lookup k = some (some e) → ∃ e', t.table.lookup k = some (some e') ∧
    e'.clientFd = e.clientFd ∧ e'.recvBuffer = e.recvBuffer
  vacant : ∀ k, (s.table.lookup k).join = none → (t.table.lookup k).join = none
  named : ∀ k, key = some k → t.table.lookup k ≠ none
  routed : ∀ toIP toName,
    matching toIP toName (t.table.entries.filter fun kv => key ≠ some kv.1)
      = matching toIP toName (s.table.entries.filter fun kv => key ≠ some kv.1)

/-- The steps that bring a chunk, as a message, into the hands of the loop thread. -/
def Action.Delivers : Action → Prop
  | .epoll (.read ..) | .epoll .acquireEntity | .epoll (.deSerialize _) | .epoll .pushMsg
  | .loop .getMsg => True
  | .epoll (.accept ..) | .epoll .addClient | .epoll (.findFd _) | .epoll .wouldBlock
  | .epoll (.eof _) | .epoll .removeClient | .loop .callBack | .loop .releaseEntity
  | .send _ => False

/-- What the send job and the epoll thread look at in an entry. -/
structure EntryView where
  clientFd : ℕ
  clientName : Bytes
  clientIP : Bytes
  clientPort : Bytes
deriving DecidableEq, Repr

def ClientEntity.view (e : ClientEntity) : EntryView :=
  ⟨e.clientFd, e.clientName, e.clientIP, e.clientPort⟩

def CallBack.rewrite (v : EntryView) : CallBack → EntryView
  | .reg m => ⟨v.clientFd, m.processName, m.processIP, m.processPort⟩
  | .deReg _ => ⟨v.clientFd, logOutText, logOutText, logOutText⟩
  | .ignore | .quit | .data => v

/-- The entry under a key as the events about that key leave it. -/
def replay (k : Bytes) : List Event → Option (Option EntryView)
  | [] => none
  | .connected c :: es =>
    if c.clientIPPort = k then some (some ⟨c.fd, [], [], []⟩) else replay k es
  | .handled f :: es =>
    if f.userIPPort = some k then some (((replay k es).getD none).map f.rewrite)
    else replay k es
  | .disconnected c :: es => if c.clientIPPort = k then none else replay k es
  | _ :: es => replay k es

def State.viewAt (s : State) (k : Bytes) : Option (Option EntryView) :=
  (s.table.lookup k).map (Option.map ClientEntity.view)

section Replaying

variable {s t : State} {k : Bytes} {f : CallBack} {es es' : List Event}

lemma replay_congr (h : replay k es = replay k es') (l : List Event) :
    replay k (l ++ es) = replay k (l ++ es') := by
  induction l with
  | nil => exact h
  | cons v l ih => cases v <;> simp only [List.cons_append, replay, ih]

lemma replay_handled (h : f.userIPPort ≠ some k) : replay k (.handled f :: es) = replay k es := by
  rw [replay, if_neg h]

lemma viewAt_write {g : ClientEntity → ClientEntity} {k' : Bytes} (hf : f.userIPPort = some k')
    (hg : ∀ e, (g e).view = f.rewrite e.view)
    (ht : t.table = ClientTable.writeClient s.table k' g) (hs : s.viewAt k = replay k es) :
    t.viewAt k = replay k (.handled f :: es) := by
  rw [replay, ← hs, hf, State.viewAt, State.viewAt, ht, ClientTable.lookup_writeClient,
    Function.update_apply]
  by_cases hk : k = k'
  · rw [if_pos hk, if_pos (congrArg some hk.symm), hk, Option.map_some, Option.map_map]
    cases s.table.lookup k' with
    | none => rfl
    | some v =>
      cases v with
      | none => rfl
      | some e => exact congrArg (some ∘ some) (hg e)
  · rw [if_neg hk, if_neg fun h => hk (Option.some.inj h).symm]

lemma Transition.viewAt (h : Tracked s) {a : Action} (hs : Transition s a t)
    (hv : s.viewAt k = replay k s.history) : t.viewAt k = replay k t.history := by
  cases hs with
  | epoll hs =>
    cases hs with
    | @addClient c b hpc =>
      rw [State.viewAt, ClientTable.lookup_addClient, Function.update_apply, replay]
      by_cases hk : k = c.clientIPPort
      · rw [if_pos hk, if_pos hk.symm]
        rfl
      · rw [if_neg hk, if_neg (Ne.symm hk)]
        exact hv
    | @removeClient c k' hpc =>
      obtain rfl := h.closed c k' hpc
      rw [State.viewAt, ClientTable.lookup_removeClient, Function.update_apply, replay]
      by_cases hk : k = c.clientIPPort
      · rw [if_pos hk, if_pos hk.symm]
        rfl
      · rw [if_neg hk, if_neg (Ne.symm hk)]
        exact hv
    | refuse | read | pushMsg => exact hv
    | accept | find | findNone | wouldBlock | eof | acquireEntity | deSerialize | raise => exact hv
  | loop hs =>
    cases hs with
    | reg | deReg => exact viewAt_write rfl (fun _ => rfl) rfl hv
    | getMsg | drop | data | release => exact hv
  | send hs => cases hs <;> exact hv

lemma Transition.history_suffix {a : Action} (hs : Transition s a t) : s.history <:+ t.history := by
  cases hs with
  | epoll hs =>
    cases hs with
    | refuse | addClient | removeClient | read | pushMsg => exact List.suffix_cons _ _
    | accept | find | findNone | wouldBlock | eof | acquireEntity | deSerialize | raise =>
      exact List.suffix_rfl
  | loop hs =>
    cases hs with
    | reg | deReg => exact List.suffix_cons _ _
    | getMsg | drop | data | release => exact List.suffix_rfl
  | send hs =>
    cases hs with
    | write => exact List.suffix_cons _ _
    | popMsg | copyStrings | lockTable | unlock | skip | release => exact List.suffix_rfl

lemma reaches_replay {E : SerializeEntity} (h : Reaches step Free (State.init E) s) :
    Tracked s ∧ ∀ k, s.viewAt k = replay k s.history := by
  refine h.invariant (I := fun s => Tracked s ∧ ∀ k, s.viewAt k = replay k s.history)
    ⟨tracked_init E, fun _ => rfl⟩ fun s a t hs _ ha => ?_
  have hst := transition_of_step ha
  exact ⟨hs.1.step hst, fun k => hst.viewAt hs.1 (hs.2 k)⟩

lemma reaches_history (h : Reaches step Free s t) : s.history <:+ t.history :=
  h.invariant (I := fun t => s.history <:+ t.history) List.suffix_rfl fun _ _ _ hs _ ha =>
    hs.trans (transition_of_step ha).history_suffix

end Replaying

section Confinement

variable {s t : State} {g : SourceLog} {c : Connection} {d : ReadBytes} {f : CallBack}

lemma delivers_table {a : Action} (ha : a.Delivers) (hs : Transition s a t) :
    t.table = s.table := by
  cases hs with
  | epoll hs =>
    cases hs with
    | read | acquireEntity | deSerialize | raise | pushMsg => rfl
    | refuse | accept | addClient | find | findNone | wouldBlock | eof | removeClient =>
      exact ha.elim
  | loop hs =>
    cases hs with
    | getMsg => rfl
    | drop | reg | deReg | data | release => exact ha.elim
  | send => exact ha.elim

lemma confined_refl (h : t.table = s.table) : Confined none s t where
  others k _ := by rw [h]
  socket k e he := ⟨e, by rw [h]; exact he, rfl, rfl⟩
  vacant k hk := by rw [h]; exact hk
  named _ hk := by cases hk
  routed _ _ := by rw [h]

lemma confined_write {k' : Bytes} {g : ClientEntity → ClientEntity}
    (h : t.table = ClientTable.writeClient s.table k' g)
    (hfd : ∀ e, (g e).clientFd = e.clientFd) (hbuf : ∀ e, (g e).recvBuffer = e.recvBuffer) :
    Confined (some k') s t where
  others k hk := by
    rw [h, ClientTable.lookup_writeClient, Function.update_of_ne]
    exact fun he => hk (congrArg some he.symm)
  socket k e he := by
    rw [h, ClientTable.lookup_writeClient, Function.update_apply]
    split_ifs with hk
    · rw [hk] at he
      rw [he]
      exact ⟨g e, rfl, hfd e, hbuf e⟩
    · exact ⟨e, he, rfl, rfl⟩
  vacant k hk := by
    rw [h, ClientTable.lookup_writeClient, Function.update_apply]
    split_ifs with hk'
    · rw [hk'] at hk
      cases hl : s.table.lookup k' with
      | none => rfl
      | some v =>
        rw [hl, Option.join_some] at hk
        rw [hk]
        rfl
    · exact hk
  named k hk := by
    obtain rfl := Option.some.inj hk
    rw [h, ClientTable.lookup_writeClient, Function.update_self]
    exact Option.some_ne_none _
  routed toIP toName := by
    have hfilter : t.table.entries.filter (fun kv => some k' ≠ some kv.1)
        = s.table.entries.filter fun kv => some k' ≠ some kv.1 := by
      refine InOrder.ext (t.table.inOrder.filter _) (s.table.inOrder.filter _) fun ⟨k, v⟩ => ?_
      rw [List.mem_filter, List.mem_filter, ← Table.lookup_eq_some, ← Table.lookup_eq_some, h,
        ClientTable.lookup_writeClient]
      refine and_congr_left fun hk => ?_
      have hne : some k' ≠ some k := of_decide_eq_true hk
      rw [Function.update_of_ne fun he => hne (congrArg some he.symm)]
    rw [hfilter]

lemma handles_some (h : s.handles g = some (c, d, f)) : ∃ r cell, s.loop = .handling r ∧
    s.memory r.ptr = some cell ∧ callBackFun cell.object = some f := by
  rw [State.handles] at h
  split at h
  · next r hpc =>
    obtain ⟨cell, hcell, h⟩ := Option.bind_eq_some_iff.mp h
    obtain ⟨f', hfun, h⟩ := Option.bind_eq_some_iff.mp h
    obtain ⟨_, _, h⟩ := Option.bind_eq_some_iff.mp h
    cases h
    exact ⟨r, cell, hpc, hcell, hfun⟩
  · cases h

lemma confined_callBack (h : s.handles g = some (c, d, f))
    (ht : step s (.loop .callBack) = some t) :
    Confined f.userIPPort s t ∧ (t.history = s.history ∨ t.history = .handled f :: s.history) := by
  obtain ⟨r, cell, hpc, hcell, hfun⟩ := handles_some h
  have hf : ∀ {r' cell' f'}, s.loop = .handling r' → s.memory r'.ptr = some cell' →
      callBackFun cell'.object = some f' → f' = f := by
    intro r' cell' f' hpc' hcell' hfun'
    cases hpc.symm.trans hpc'
    cases hcell.symm.trans hcell'
    exact Option.some.inj (hfun'.symm.trans hfun)
  cases transition_of_step ht with
  | loop hs =>
  cases hs with
  | drop hpc' hcell' hfun' hend =>
    have hkey : f.userIPPort = none := by
      rw [← hf hpc' hcell' hfun']
      obtain ⟨rfl, _⟩ | ⟨rfl, _⟩ := hend <;> rfl
    rw [hkey]
    exact ⟨confined_refl rfl, Or.inl rfl⟩
  | data hpc' hcell' hfun' =>
    obtain rfl := hf hpc' hcell' hfun'
    exact ⟨confined_refl rfl, Or.inl rfl⟩
  | reg hpc' hcell' hfun' =>
    obtain rfl := hf hpc' hcell' hfun'
    exact ⟨confined_write rfl (fun _ => rfl) fun _ => rfl, Or.inr rfl⟩
  | deReg hpc' hcell' hfun' =>
    obtain rfl := hf hpc' hcell' hfun'
    exact ⟨confined_write rfl (fun _ => rfl) fun _ => rfl, Or.inr rfl⟩

/-- Handling a message changes the entry that the message names, and reading and decoding it changes
none. What becomes of another entry is what the later events make of it as it was before. -/
theorem handling_confined {E : SerializeEntity}
    (h : Observed step SourceLog.record Free (State.init E, []) (s, g))
    (hf : s.handles g = some (c, d, f)) (ht : step s (.loop .callBack) = some t) :
    Confined f.userIPPort s t ∧
    (∀ u, Reaches step Free t u → ∀ k, f.userIPPort ≠ some k →
      ∃ es, u.history = es ++ t.history ∧ u.viewAt k = replay k (es ++ s.history)) ∧
    ∀ a u v, a.Delivers → step u a = some v → v.table = u.table := by
  obtain ⟨hconf, hhist⟩ := confined_callBack hf ht
  refine ⟨hconf, fun u hu k hk => ?_, fun _ _ _ ha hs => delivers_table ha (transition_of_step hs)⟩
  obtain ⟨es, hes⟩ := reaches_history hu
  refine ⟨es, hes.symm, ?_⟩
  have hreach : Reaches step Free (State.init E) u :=
    (h.run.tail ⟨_, trivial, ht⟩).trans hu
  rw [(reaches_replay hreach).2 k, ← hes]
  apply replay_congr
  rcases hhist with hhist | hhist
  · rw [hhist]
  · rw [hhist, replay_handled hk]

lemma impersonation : ∃ s g d m t,
    Observed step SourceLog.record Free (State.init serializer₀, []) (s, g) ∧
      s.handles g = some (client₀, d, .reg m) ∧ step s (.loop .callBack) = some t ∧
        RegMsg.userIPPort m = client₁.clientIPPort ∧ client₁ ∈ s.known ∧
          t.viewAt client₁.clientIPPort ≠ s.viewAt client₁.clientIPPort := by
  have h : ((execute (observe step SourceLog.record) (fun x a => Free x.1 a)
      (State.init serializer₀, []) (connect client₀ ++ connect client₁ ++
      sendFrom client₀ 0 (.reg ⟨⟨2, 0⟩, [97], [49], [53, 49]⟩) (by decide))).bind fun x =>
        (step x.1 (.loop .callBack)).map fun t => (x, t)).map (fun y =>
          ((y.1.1.handles y.1.2).map fun q => (q.1, q.2.2), y.1.1.known,
            y.1.1.viewAt client₁.clientIPPort, y.2.viewAt client₁.clientIPPort))
      = some (some (client₀, .reg ⟨⟨2, 40⟩, [97], [49], [53, 49]⟩), [client₁, client₀],
          some (some ⟨6, [], [], []⟩), some (some ⟨6, [97], [49], [53, 49]⟩)) := by
    decide +kernel
  obtain ⟨⟨⟨s, g⟩, t⟩, hy, hobs⟩ := Option.map_eq_some_iff.mp h
  obtain ⟨x, hx, ht⟩ := Option.bind_eq_some_iff.mp hy
  obtain ⟨u, hu, he⟩ := Option.map_eq_some_iff.mp ht
  cases he
  obtain ⟨hf, hobs⟩ := Prod.mk.inj hobs
  obtain ⟨hknown, hobs⟩ := Prod.mk.inj hobs
  obtain ⟨hs, ht⟩ := Prod.mk.inj hobs
  obtain ⟨⟨c, d, f⟩, hf, hcf⟩ := Option.map_eq_some_iff.mp hf
  cases hcf
  refine ⟨s, g, d, _, t, reaches_of_execute hx, hf, hu, by decide, ?_, ?_⟩
  · rw [show s.known = [client₁, client₀] from hknown]
    exact List.mem_cons_self
  · rw [show s.viewAt client₁.clientIPPort = _ from hs,
      show t.viewAt client₁.clientIPPort = _ from ht]
    decide

theorem handling_confined_impersonation : ∃ s t, Reaches step Free (State.init serializer₀) s ∧
    step s (.loop .callBack) = some t ∧ Confined (some client₁.clientIPPort) s t ∧
      t.viewAt client₁.clientIPPort ≠ s.viewAt client₁.clientIPPort := by
  obtain ⟨s, g, d, m, t, h, hf, ht, hm, _, hne⟩ := impersonation
  exact ⟨s, t, h.run, ht, hm ▸ (handling_confined h hf ht).1, hne⟩

theorem other_entry_changed : ∃ s g c d f t c',
    Observed step SourceLog.record Free (State.init serializer₀, []) (s, g) ∧
      s.handles g = some (c, d, f) ∧ step s (.loop .callBack) = some t ∧ c' ∈ s.known ∧ c' ≠ c ∧
        t.table.lookup c'.clientIPPort ≠ s.table.lookup c'.clientIPPort := by
  obtain ⟨s, g, d, m, t, h, hf, ht, _, hknown, hne⟩ := impersonation
  refine ⟨s, g, client₀, d, .reg m, t, client₁, h, hf, ht, hknown, by decide, fun he => hne ?_⟩
  rw [State.viewAt, State.viewAt, he]

end Confinement

end Xty.Server
