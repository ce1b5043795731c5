import Xty.Server.Transitions

/-! The life of a decoded message, from the epoll thread to its last use. -/

namespace Xty.Server

open Xty.General.Runs Xty.General.SortedTable Xty.General.LittleEndian
open Xty.Message

def matching (toIP toName : Bytes) (entries : List (Bytes × Option ClientEntity)) :
    List ClientEntity :=
  (entries.filterMap Prod.snd).filter fun e => e.Matches toIP toName

def EpollPc.held : EpollPc → List Reference
  | .deSerialized _ r _ => [r]
  | _ => []

def LoopPc.held : LoopPc → List Reference
  | .handling r | .releasing r => [r]
  | .waiting | .exited => []

def SendPc.held : SendPc → List Reference
  | .popped r | .copied r _ _ | .releasing r _ _ _ => [r]
  | .iterating r toIP toName rest => if (matching toIP toName rest).isEmpty then [] else [r]
  | .waiting => []

/-- The decoded messages that have not had their last use. -/
def State.held (s : State) : List Reference :=
  s.epoll.held ++ s.recvMsgQueue ++ s.loop.held ++ s.sendMsgQueue ++ s.send.held

/-- The object is the one that was decoded, up to the length that `Serialize` stores in it, and
its entity is occupied. -/
structure Intact (s : State) (r : Reference) : Prop where
  object : ∃ cell m, s.memory r.ptr = some cell ∧ cell.serial = r.serial ∧
    s.objects[r.serial]? = some m ∧ (cell.object = m ∨ cell.object = m.measured)
  occupied : s.entities.Occupies r.ptr

/-- When the send job gives a message back, it has written it to the last client that matches. -/
def GivesBackLast (s : State) : Action → Prop
  | .send .releaseEntity =>
    match s.send with
    | .releasing _ toIP toName rest => matching toIP toName rest = []
    | _ => True
  | _ => True

/-- Entities own live objects, each its own; every object is as it was decoded, or measured; what
is held is intact, and the entity that the epoll thread has acquired owns none of it. -/
structure Owned (s : State) : Prop where
  live : ∀ i p, s.entities.owned i = some p → s.memory p ≠ none
  distinct : s.entities.Distinct
  recorded : ∀ p cell, s.memory p = some cell → ∃ m, s.objects[cell.serial]? = some m ∧
    (cell.object = m ∨ cell.object = m.measured)
  nodup : (s.held.map Reference.ptr).Nodup
  intact : ∀ r ∈ s.held, (∃ cell, s.memory r.ptr = some cell ∧ cell.serial = r.serial) ∧
    s.entities.Occupies r.ptr
  acquired : ∀ c b d i, s.epoll = .acquired c b d i →
    (∃ m, s.entities[i]? = some ⟨m, true⟩) ∧ ∀ r ∈ s.held, s.entities.owned i ≠ some r.ptr

section Ownership

variable {s t : State} {r : Reference}

lemma Owned.intact_of_held (h : Owned s) (hr : r ∈ s.held) : Intact s r := by
  obtain ⟨⟨cell, hcell, hserial⟩, hocc⟩ := h.intact r hr
  obtain ⟨m, hm, hobj⟩ := h.recorded r.ptr cell hcell
  exact ⟨⟨cell, m, hcell, hserial, hserial ▸ hm, hobj⟩, hocc⟩

lemma owned_init (E : SerializeEntity) : Owned (State.init E) where
  live i p h := by
    rw [State.init, EntityArray.owned_create] at h
    cases h
  distinct i j p h := by
    rw [State.init, EntityArray.owned_create] at h
    cases h
  recorded _ _ h := by cases h
  nodup := List.nodup_nil
  intact _ h := by cases h
  acquired _ _ _ _ h := by cases h

lemma nodup_subperm {l l' : List Reference} (h : (l.map Reference.ptr).Nodup) (hs : l'.Subperm l) :
    (l'.map Reference.ptr).Nodup := by
  obtain ⟨m, hm, hsub⟩ := hs
  exact ((hm.map _).nodup_iff).mp (h.sublist (hsub.map _))

lemma Owned.regroup (h : Owned s) (hm : t.memory = s.memory) (he : t.entities = s.entities)
    (ho : t.objects = s.objects) (hheld : t.held.Subperm s.held)
    (hpc : ∀ c b d i, t.epoll = .acquired c b d i → s.epoll = .acquired c b d i) : Owned t where
  live := he ▸ hm ▸ h.live
  distinct := he ▸ h.distinct
  recorded := hm ▸ ho ▸ h.recorded
  nodup := nodup_subperm h.nodup hheld
  intact r hr := he ▸ hm ▸ h.intact r (hheld.subset hr)
  acquired c b d i hi := by
    obtain ⟨hocc, hne⟩ := h.acquired c b d i (hpc c b d i hi)
    exact he ▸ ⟨hocc, fun r hr => hne r (hheld.subset hr)⟩

lemma Owned.release (h : Owned s) (hm : t.memory = s.memory)
    (he : t.entities = s.entities.releaseEntity r.ptr) (ho : t.objects = s.objects)
    (hheld : s.held.Perm (r :: t.held)) (hpc : t.epoll = s.epoll) : Owned t := by
  have hmem : ∀ r' ∈ t.held, r' ∈ s.held := fun r' hr' =>
    hheld.mem_iff.mpr (List.mem_cons_of_mem _ hr')
  have hnd := ((hheld.map Reference.ptr).nodup_iff).mp h.nodup
  rw [List.map_cons, List.nodup_cons] at hnd
  have hne : ∀ r' ∈ t.held, r'.ptr ≠ r.ptr := fun r' hr' hp =>
    hnd.1 (hp ▸ List.mem_map_of_mem hr')
  refine ⟨?_, ?_, hm ▸ ho ▸ h.recorded, hnd.2, ?_, ?_⟩
  · intro i p hi
    rw [he, EntityArray.release_owned] at hi
    exact hm ▸ h.live i p hi
  · rw [he]
    exact h.distinct.of_owned fun i => EntityArray.release_owned _ _
  · intro r' hr'
    obtain ⟨hobj, hocc⟩ := h.intact r' (hmem r' hr')
    rw [hm, he]
    exact ⟨hobj, hocc.release (hne r' hr')⟩
  · intro c b d i hi
    rw [hpc] at hi
    obtain ⟨⟨m, hocc⟩, hown⟩ := h.acquired c b d i hi
    have hmr : m ≠ some r.ptr := by
      rintro rfl
      exact hown r (hheld.mem_iff.mpr List.mem_cons_self) (by rw [EntityArray.owned, hocc]; rfl)
    rw [he]
    refine ⟨⟨m, EntityArray.release_getElem hocc hmr⟩, fun r' hr' => ?_⟩
    rw [EntityArray.release_owned]
    exact hown r' (hmem r' hr')

lemma freed_of_ne {i q : ℕ} (hq : s.entities.owned i ≠ some q) : s.freed i q = s.memory q := by
  rw [State.freed]
  cases ho : s.entities.owned i with
  | none => rfl
  | some q' =>
    refine Function.update_of_ne ?_ _ _
    rintro rfl
    exact hq ho

lemma memory_of_freed {i q : ℕ} {cell : Cell} (h : s.freed i q = some cell) :
    s.memory q = some cell := by
  rw [State.freed] at h
  cases ho : s.entities.owned i with
  | none =>
    rw [ho] at h
    exact h
  | some q' =>
    simp only [ho, Function.update_apply] at h
    split_ifs at h
    exact h

lemma make_memory (s : State) (i p : ℕ) (m : MsgObject) : (s.make i p m).memory
    = Function.update (s.freed i) p (some ⟨s.objects.length, m⟩) := rfl

lemma make_entities (s : State) (i p : ℕ) (m : MsgObject) :
    (s.make i p m).entities = s.entities.hold i p := rfl

lemma make_objects (s : State) (i p : ℕ) (m : MsgObject) :
    (s.make i p m).objects = s.objects ++ [m] := rfl

def Recorded (s : State) : Prop :=
  ∀ p cell, s.memory p = some cell → ∃ m, s.objects[cell.serial]? = some m ∧
    (cell.object = m ∨ cell.object = m.measured)

lemma Recorded.make (h : Recorded s) (i p : ℕ) (m : MsgObject) : Recorded (s.make i p m) := by
  intro q cell hq
  rw [make_memory, Function.update_apply] at hq
  split_ifs at hq with hqp
  · obtain rfl := Option.some.inj hq
    exact ⟨m, List.getElem?_concat_length, Or.inl rfl⟩
  · obtain ⟨m', hm', hobj⟩ := h q cell (memory_of_freed hq)
    refine ⟨m', ?_, hobj⟩
    rw [make_objects, List.getElem?_append_left (List.getElem?_eq_some_iff.mp hm').1]
    exact hm'

lemma Recorded.measure (h : Recorded s) {cell : Cell} (hcell : s.memory r.ptr = some cell)
    (hm : t.memory
      = Function.update s.memory r.ptr (some { cell with object := cell.object.measured }))
    (ho : t.objects = s.objects) : Recorded t := by
  intro q cell' hq
  rw [hm, Function.update_apply] at hq
  rw [ho]
  split_ifs at hq
  · obtain rfl := Option.some.inj hq
    obtain ⟨m, hmem, hobj⟩ := h r.ptr cell hcell
    refine ⟨m, hmem, Or.inr ?_⟩
    rcases hobj with hobj | hobj
    · exact congrArg MsgObject.measured hobj
    · exact (congrArg MsgObject.measured hobj).trans m.measured_measured
  · exact h q cell' hq

section Making

variable {c : Connection} {b : RecvBuffer} {d : ReadBytes} {i p : ℕ} {m : MsgObject}

lemma make_live {E : DeSerializeEntity} (hi : s.entities[i]? = some E)
    (hd : s.entities.Distinct) (hl : ∀ j q, s.entities.owned j = some q → s.memory q ≠ none)
    (j q : ℕ) (hj : (s.make i p m).entities.owned j = some q) :
    (s.make i p m).memory q ≠ none := by
  rw [make_memory, Function.update_apply]
  split_ifs with hqp
  · exact Option.some_ne_none _
  · by_cases hij : i = j
    · subst hij
      rw [make_entities, EntityArray.hold_owned hi] at hj
      exact absurd (Option.some.inj hj).symm hqp
    · rw [make_entities, EntityArray.hold_owned_ne hij] at hj
      rw [freed_of_ne fun hi => hij (hd i j q hi hj)]
      exact hl j q hj

lemma make_distinct {E : DeSerializeEntity} (hi : s.entities[i]? = some E)
    (hd : s.entities.Distinct) (hl : ∀ j q, s.entities.owned j = some q → s.memory q ≠ none)
    (hfree : s.freed i p = none) : (s.make i p m).entities.Distinct := by
  refine hd.hold hi fun j hji hj => ?_
  rw [freed_of_ne fun hi => hji (hd i j p hi hj).symm] at hfree
  exact hl j p hj hfree

lemma Owned.make_held (h : Owned s) (hpc : s.epoll = .acquired c b d i)
    (hfree : s.freed i p = none) (hr : r ∈ s.held) :
    r.ptr ≠ p ∧ (∃ cell, (s.make i p m).memory r.ptr = some cell ∧ cell.serial = r.serial) ∧
      (s.make i p m).entities.Occupies r.ptr := by
  have hown := (h.acquired c b d i hpc).2 r hr
  obtain ⟨⟨cell, hcell, hserial⟩, hocc⟩ := h.intact r hr
  have hkeep : s.freed i r.ptr = some cell := (freed_of_ne hown).trans hcell
  have hne : r.ptr ≠ p := by
    intro hp
    rw [hp, hfree] at hkeep
    cases hkeep
  refine ⟨hne, ⟨cell, ?_, hserial⟩, hocc.hold hown p⟩
  rw [make_memory, Function.update_of_ne hne]
  exact hkeep

lemma Owned.raise (h : Owned s) (hpc : s.epoll = .acquired c b d i) (hfree : s.freed i p = none) :
    Owned { s.make i p m with epoll := .polling } := by
  obtain ⟨_, hi⟩ := (h.acquired c b d i hpc).1
  have hheld : s.held = State.held { s.make i p m with epoll := .polling } := by
    rw [State.held, hpc]
    rfl
  refine ⟨make_live hi h.distinct h.live, make_distinct (m := m) hi h.distinct h.live hfree,
    Recorded.make h.recorded i p m, hheld ▸ h.nodup, fun r hr => ?_, nofun⟩
  exact (h.make_held hpc hfree (hheld ▸ hr)).2

lemma Owned.deSerialize (h : Owned s) (hpc : s.epoll = .acquired c b d i)
    (hfree : s.freed i p = none) :
    Owned { s.make i p m with epoll := .deSerialized c ⟨p, s.objects.length⟩ m } := by
  obtain ⟨_, hi⟩ := (h.acquired c b d i hpc).1
  have hheld : State.held { s.make i p m with
      epoll := .deSerialized c ⟨p, s.objects.length⟩ m } = ⟨p, s.objects.length⟩ :: s.held := by
    rw [State.held, State.held, hpc]
    rfl
  refine ⟨make_live hi h.distinct h.live, make_distinct (m := m) hi h.distinct h.live hfree,
    Recorded.make h.recorded i p m, ?_, fun r hr => ?_, nofun⟩
  · rw [hheld, List.map_cons, List.nodup_cons]
    refine ⟨fun hp => ?_, h.nodup⟩
    obtain ⟨r, hr, hrp⟩ := List.mem_map.mp hp
    exact (h.make_held (m := m) hpc hfree hr).1 hrp
  · rw [hheld] at hr
    rcases List.mem_cons.mp hr with rfl | hr
    · exact ⟨⟨_, Function.update_self .., rfl⟩, i, EntityArray.hold_getElem hi⟩
    · exact (h.make_held hpc hfree hr).2

end Making

lemma Owned.acquire (h : Owned s) {c : Connection} {b : RecvBuffer} {d : ReadBytes} {i : ℕ}
    {A : EntityArray} (hpc : s.epoll = .received c b d)
    (hacq : s.entities.acquireEntity = some (i, A)) :
    Owned { s with entities := A, epoll := .acquired c b d i } := by
  have hheld : s.held = State.held { s with entities := A, epoll := .acquired c b d i } := by
    rw [State.held, hpc]
    rfl
  refine ⟨?_, ?_, h.recorded, hheld ▸ h.nodup, fun r hr => ?_, fun _ _ _ _ hi => ?_⟩
  · intro j q hj
    rw [EntityArray.acquire_owned hacq] at hj
    exact h.live j q hj
  · exact h.distinct.of_owned fun j => EntityArray.acquire_owned hacq
  · obtain ⟨hobj, hocc⟩ := h.intact r (hheld ▸ hr)
    exact ⟨hobj, hocc.acquire hacq⟩
  · cases hi
    refine ⟨EntityArray.acquire_occupied hacq, fun r hr => ?_⟩
    exact EntityArray.acquire_not_owned h.distinct hacq (h.intact r (hheld ▸ hr)).2

lemma Owned.measure (h : Owned s) {cell : Cell} (hcell : s.memory r.ptr = some cell)
    (hm : t.memory
      = Function.update s.memory r.ptr (some { cell with object := cell.object.measured }))
    (he : t.entities = s.entities) (ho : t.objects = s.objects) (hheld : t.held = s.held)
    (hpc : t.epoll = s.epoll) : Owned t := by
  refine ⟨fun i q hi => ?_, he ▸ h.distinct, Recorded.measure h.recorded hcell hm ho,
    hheld ▸ h.nodup, fun r' hr' => ?_, ?_⟩
  · rw [hm, Function.update_apply]
    split_ifs
    · exact Option.some_ne_none _
    · exact h.live i q (he ▸ hi)
  · obtain ⟨⟨cell', hcell', hserial⟩, hocc⟩ := h.intact r' (hheld ▸ hr')
    refine ⟨?_, he ▸ hocc⟩
    rw [hm, Function.update_apply]
    split_ifs with hp
    · rw [hp, hcell] at hcell'
      obtain rfl := Option.some.inj hcell'
      exact ⟨_, rfl, hserial⟩
    · exact ⟨cell', hcell', hserial⟩
  · rw [hpc, he, hheld]
    exact h.acquired

section Matching

variable {toIP toName k : Bytes} {e : ClientEntity} {v : Option ClientEntity}
  {rest : List (Bytes × Option ClientEntity)}

lemma matching_cons_match (h : e.Matches toIP toName) :
    matching toIP toName ((k, some e) :: rest) = e :: matching toIP toName rest := by
  simp [matching, h]

lemma matching_cons_skip (h : ∀ e, v = some e → ¬ e.Matches toIP toName) :
    matching toIP toName ((k, v) :: rest) = matching toIP toName rest := by
  cases v with
  | none => rfl
  | some e => simp [matching, h e rfl]

lemma held_iterating_nil (h : matching toIP toName rest = []) :
    (SendPc.iterating r toIP toName rest).held = [] := by
  rw [SendPc.held, h]
  rfl

lemma held_iterating_match (h : e.Matches toIP toName) :
    (SendPc.iterating r toIP toName ((k, some e) :: rest)).held = [r] := by
  rw [SendPc.held, matching_cons_match h]
  rfl

end Matching

lemma held_count (s : State) (a : Reference) : s.held.count a = s.epoll.held.count a
    + s.recvMsgQueue.count a + s.loop.held.count a + s.sendMsgQueue.count a
    + s.send.held.count a := by
  simp only [State.held, List.count_append]

lemma Owned.epollStep (h : Owned s) {a : EpollAction} (hs : EpollTransition s a t) : Owned t := by
  have hsame : ∀ pc : EpollPc, s.epoll.held = [] → pc.held = [] →
      ∀ t : State, t.held = pc.held ++ s.recvMsgQueue ++ s.loop.held ++ s.sendMsgQueue
        ++ s.send.held → t.held.Subperm s.held := by
    intro pc he hpc t ht
    rw [ht, hpc, State.held, he]
  cases hs with
  | refuse | findNone =>
    exact h.regroup rfl rfl rfl (List.Subperm.refl _) fun _ _ _ _ => id
  | accept hpc | addClient hpc | find hpc | wouldBlock hpc | eof hpc | removeClient hpc
  | read hpc =>
    exact h.regroup rfl rfl rfl (hsame _ (by rw [hpc]; rfl) rfl _ rfl) (by simp)
  | acquireEntity hpc hacq => exact h.acquire hpc hacq
  | deSerialize hpc hfree => exact h.deSerialize hpc hfree
  | raise hpc hfree => exact h.raise hpc hfree
  | @pushMsg c r m hpc =>
    refine h.regroup rfl rfl rfl (List.subperm_iff_count.mpr fun a => ?_) (by simp)
    rw [held_count, held_count, hpc]
    simp only [EpollPc.held, List.count_append, List.count_nil]
    omega

lemma Owned.loopStep (h : Owned s) {a : LoopAction} (hs : LoopTransition s a t) : Owned t := by
  cases hs with
  | @getMsg r rs hpc hq =>
    refine h.regroup rfl rfl rfl (List.subperm_iff_count.mpr fun a => ?_) fun _ _ _ _ => id
    rw [held_count, held_count, hpc, hq, ← List.singleton_append]
    simp only [LoopPc.held, List.count_append, List.count_nil]
    omega
  | drop _ _ _ hend =>
    refine h.regroup rfl rfl rfl (List.subperm_iff_count.mpr fun a => ?_) fun _ _ _ _ => id
    rw [held_count, held_count]
    rcases hend with ⟨_, rfl⟩ | ⟨_, rfl⟩ <;>
    · simp only [LoopPc.held, List.count_nil]
      omega
  | reg hpc | deReg hpc =>
    refine h.regroup rfl rfl rfl (List.subperm_iff_count.mpr fun a => ?_) fun _ _ _ _ => id
    rw [held_count, held_count, hpc]
    exact le_rfl
  | @data r cell hpc =>
    refine h.regroup rfl rfl rfl (List.subperm_iff_count.mpr fun a => ?_) fun _ _ _ _ => id
    rw [held_count, held_count, hpc]
    simp only [LoopPc.held, List.count_append, List.count_nil]
    omega
  | @release r hpc =>
    refine h.release (r := r) rfl rfl rfl (List.perm_iff_count.mpr fun a => ?_) rfl
    rw [← List.singleton_append, List.count_append, held_count, held_count, hpc]
    simp only [LoopPc.held, List.count_nil]
    omega

lemma Owned.sendStep (h : Owned s) {a : SendAction} (hcond : GivesBackLast s (.send a))
    (hs : SendTransition s a t) : Owned t := by
  cases hs with
  | @popMsg r rs hpc hq =>
    refine h.regroup rfl rfl rfl (List.subperm_iff_count.mpr fun a => ?_) fun _ _ _ _ => id
    rw [held_count, held_count, hpc, hq, ← List.singleton_append]
    simp only [SendPc.held, List.count_append, List.count_nil]
    omega
  | copyStrings hpc =>
    refine h.regroup rfl rfl rfl (List.subperm_iff_count.mpr fun a => ?_) fun _ _ _ _ => id
    rw [held_count, held_count, hpc]
    exact le_rfl
  | @lockTable r toIP toName hpc =>
    refine h.regroup rfl rfl rfl (List.subperm_iff_count.mpr fun a => ?_) fun _ _ _ _ => id
    rw [held_count, held_count, hpc]
    simp only [SendPc.held]
    split_ifs
    · simp
    · exact le_rfl
  | unlock =>
    refine h.regroup rfl rfl rfl (List.subperm_iff_count.mpr fun a => ?_) fun _ _ _ _ => id
    rw [held_count, held_count]
    simp only [SendPc.held, List.count_nil]
    omega
  | skip hpc hskip =>
    refine h.regroup rfl rfl rfl (List.subperm_iff_count.mpr fun a => ?_) fun _ _ _ _ => id
    rw [held_count, held_count, hpc]
    simp only [SendPc.held, matching_cons_skip hskip]
    exact le_rfl
  | write hpc hmatch hcell =>
    refine h.measure hcell rfl rfl rfl ?_ rfl
    rw [State.held, State.held, hpc, held_iterating_match hmatch]
    rfl
  | @release r toIP toName rest hpc =>
    rw [GivesBackLast, hpc] at hcond
    refine h.release (r := r) rfl rfl rfl (List.perm_iff_count.mpr fun a => ?_) rfl
    rw [← List.singleton_append, List.count_append, held_count, held_count, hpc,
      held_iterating_nil hcond]
    simp only [SendPc.held, List.count_nil]
    omega

lemma Owned.step (h : Owned s) {a : Action} (hcond : GivesBackLast s a) (hs : Transition s a t) :
    Owned t := by
  cases hs with
  | epoll hs => exact h.epollStep hs
  | loop hs => exact h.loopStep hs
  | send hs => exact h.sendStep hcond hs

lemma Owned.givesBackLast (h : Owned s) {a : Action} (hs : Transition s a t)
    (ht : ∀ r ∈ t.held, Intact t r) : GivesBackLast s a := by
  cases hs with
  | epoll | loop => trivial
  | send hs =>
    cases hs with
    | popMsg | copyStrings | lockTable | unlock | skip | write => trivial
    | @release r toIP toName rest hpc =>
      rw [GivesBackLast, hpc]
      by_contra hne
      have hheld : (SendPc.iterating r toIP toName rest).held = [r] := by
        rw [SendPc.held, if_neg (by simpa using hne)]
      refine EntityArray.release_not_occupies h.distinct (ht r ?_).occupied
      rw [State.held, hheld]
      exact List.mem_append_right _ (List.mem_singleton.mpr rfl)

theorem held_messages_intact {E : SerializeEntity}
    (h : Reaches step GivesBackLast (State.init E) s) :
    (∀ r ∈ s.held, Intact s r) ∧
      ∀ a t, step s a = some t → ((∀ r ∈ t.held, Intact t r) ↔ GivesBackLast s a) := by
  have hs : Owned s := h.invariant (owned_init E) fun _ _ _ hs hcond ha =>
    hs.step hcond (transition_of_step ha)
  refine ⟨fun r => hs.intact_of_held, fun a t ha => ⟨?_, fun hcond r => ?_⟩⟩
  · exact hs.givesBackLast (transition_of_step ha)
  · exact (hs.step hcond (transition_of_step ha)).intact_of_held

instance (s : State) : (a : Action) → Decidable (GivesBackLast s a)
  | .send .releaseEntity =>
    match h : s.send with
    | .releasing _ toIP toName rest =>
      decidable_of_iff (matching toIP toName rest = []) (by rw [GivesBackLast, h])
    | .waiting | .popped _ | .copied .. | .iterating .. =>
      isTrue (by rw [GivesBackLast, h]; trivial)
  | .send .popMsg | .send .copyStrings | .send .lockTable | .send .next => isTrue trivial
  | .epoll _ | .loop _ => isTrue trivial

def register (c : Connection) (port : Bytes)
    (hm : MsgObject.encodedSize (.reg ⟨⟨2, 0⟩, [97], [49], port⟩) ≤ clientBufferSize) :
    List Action :=
  connect c ++ sendFrom c 0 (.reg ⟨⟨2, 0⟩, [97], [49], port⟩) hm ++
    [.loop .callBack, .loop .releaseEntity]

theorem held_messages_intact_one :
    ∃ s, Reaches step GivesBackLast (State.init serializer₀) s ∧ s.held = [⟨0, 2⟩] ∧
      ∀ r ∈ s.held, Intact s r := by
  have h : (execute step GivesBackLast (State.init serializer₀)
      (register client₀ [53, 48] (by decide) ++
      sendFrom client₀ 0 (.data ⟨⟨4, 0⟩, [49], [97], []⟩) (by decide) ++
      [.loop .callBack, .send .popMsg, .send .copyStrings, .send .lockTable, .send .next,
        .send .releaseEntity, .send .next] ++
      sendFrom client₀ 0 (.dull ⟨⟨0, 0⟩⟩) (by decide))).map (fun s => s.held)
      = some [⟨0, 2⟩] := by
    decide +kernel
  obtain ⟨s, hs, hheld⟩ := reaches_of_execute_map h
  exact ⟨s, hs, hheld, (held_messages_intact hs).1⟩

/-- Two clients share name and address. Between the two of them, the epoll thread takes the entity
of the message that the send job is about to serialize again. -/
theorem early_release_loses_message : ∃ s, Reaches step Free (State.init serializer₀) s ∧
    ∃ r ∈ s.held, ¬ Intact s r := by
  have h : (execute step Free (State.init serializer₀)
      (register client₀ [53, 48] (by decide) ++ register client₁ [53, 49] (by decide) ++
      sendFrom client₀ 0 (.data ⟨⟨4, 0⟩, [49], [97], []⟩) (by decide) ++
      [.loop .callBack, .send .popMsg, .send .copyStrings, .epoll (.findFd 6), .send .lockTable,
        .send .next, .send .releaseEntity,
        .epoll (.read client₁ (.frame (.dull ⟨⟨0, 0⟩⟩) (by decide))), .epoll .acquireEntity,
        .epoll (.deSerialize 0)])).map
          (fun s => (s.send.held, (s.memory 0).map Cell.serial)) = some ([⟨0, 2⟩], some 3) := by
    decide +kernel
  obtain ⟨s, hs, hw⟩ := reaches_of_execute_map h
  obtain ⟨hheld, hserial⟩ := Prod.mk.inj hw
  refine ⟨s, hs, ⟨0, 2⟩, ?_, fun hi => ?_⟩
  · rw [State.held, hheld]
    exact List.mem_append_right _ (List.mem_singleton.mpr rfl)
  · obtain ⟨cell, _, hcell, hc, _⟩ := hi.object
    rw [show s.memory 0 = some cell from hcell, Option.map_some, hc] at hserial
    cases hserial

end Ownership

end Xty.Server
