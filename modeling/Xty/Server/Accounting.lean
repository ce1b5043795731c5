import Xty.Server.Ownership

/-! Where the message of every occupied entity is, as long as every callback gives its message
back or hands it on. -/

namespace Xty.Server

open Xty.General.Runs Xty.General.LittleEndian
open Xty.Message

/-- The serial numbers of the messages that were decoded without an exception, and the messages
that have been placed in the send queue. -/
structure AccountLog where
  decoded : List ℕ
  handed : List Reference

def AccountLog.empty : AccountLog := ⟨[], []⟩

def AccountLog.record (s : State) (a : Action) (t : State) (g : AccountLog) : AccountLog :=
  match a with
  | .epoll (.deSerialize _) =>
    match t.epoll with
    | .deSerialized _ r _ => { g with decoded := g.decoded ++ [r.serial] }
    | _ => g
  | .loop .callBack => { g with handed := g.handed ++ t.sendMsgQueue.drop s.sendMsgQueue.length }
  | _ => g

def State.calls (s : State) : Option CallBack :=
  match s.loop with
  | .handling r => do
    let cell ← s.memory r.ptr
    callBackFun cell.object
  | _ => none

def GivesBack (s : State) : Action → Prop
  | .loop .callBack => s.calls ≠ some .ignore ∧ s.calls ≠ some .quit
  | _ => True

/-- The messages that are about to be pushed, in the receive queue or in a handler. -/
def State.underway (s : State) : List Reference := s.epoll.held ++ s.recvMsgQueue ++ s.loop.held

def EpollPc.acquiring : EpollPc → Option ℕ
  | .acquired _ _ _ i => some i
  | _ => none

/-- An occupied entity whose decoding has succeeded holds a message that is underway or has been
handed on. The entity that the epoll thread has acquired is yet to decode. -/
def Accounted (s : State) (g : AccountLog) : Prop :=
  ∀ i p cell, s.entities[i]? = some ⟨some p, true⟩ → s.epoll.acquiring ≠ some i →
    s.memory p = some cell → cell.serial ∈ g.decoded → ⟨p, cell.serial⟩ ∈ s.underway ++ g.handed

structure Audited (s : State) (g : AccountLog) : Prop where
  live : ∀ i p, s.entities.owned i = some p → s.memory p ≠ none
  distinct : s.entities.Distinct
  recorded : Recorded s
  ranged : ∀ i, s.epoll.acquiring = some i → i < s.entities.length
  serials : ∀ n ∈ g.decoded, n < s.objects.length
  accounted : Accounted s g

section Auditing

variable {s t : State} {g g' : AccountLog}

lemma audited_init (E : SerializeEntity) : Audited (State.init E) AccountLog.empty where
  live i p h := by
    rw [State.init, EntityArray.owned_create] at h
    cases h
  distinct i j p h := by
    rw [State.init, EntityArray.owned_create] at h
    cases h
  recorded _ _ h := by cases h
  ranged _ h := by cases h
  serials _ h := by cases h
  accounted _ _ _ _ _ h := by cases h

lemma Audited.frame (h : Audited s g) (hrec : Recorded t)
    (hmem : ∀ p, (t.memory p).map Cell.serial = (s.memory p).map Cell.serial)
    (ho : t.objects = s.objects) (hown : ∀ i, t.entities.owned i = s.entities.owned i)
    (hlen : t.entities.length = s.entities.length)
    (hocc : ∀ (i : ℕ) (m : Option ℕ), t.entities[i]? = some ⟨m, true⟩ →
      s.entities[i]? = some ⟨m, true⟩)
    (hacq : t.epoll.acquiring = s.epoll.acquiring) (hdec : g'.decoded = g.decoded)
    (hplace : ∀ r ∈ s.underway ++ g.handed,
      r ∈ t.underway ++ g'.handed ∨ ¬ t.entities.Occupies r.ptr) : Audited t g' where
  live i p hi := by
    rw [hown] at hi
    have hs := h.live i p hi
    have hm := hmem p
    intro ht
    rw [ht] at hm
    exact hs (Option.map_eq_none_iff.mp hm.symm)
  distinct := h.distinct.of_owned hown
  recorded := hrec
  ranged i hi := hlen ▸ h.ranged i (hacq ▸ hi)
  serials := by
    rw [hdec, ho]
    exact h.serials
  accounted i p cell hi hne hcell hn := by
    have hm := hmem p
    rw [hcell] at hm
    obtain ⟨cell', hcell', hserial⟩ := Option.map_eq_some_iff.mp hm.symm
    have hr := h.accounted i p cell' (hocc i _ hi) (hacq ▸ hne) hcell'
      (by rw [hserial, ← hdec]; exact hn)
    rcases hplace _ hr with hr | hr
    · exact hserial ▸ hr
    · exact absurd ⟨i, hi⟩ hr

lemma Audited.regroup (h : Audited s g) (hm : t.memory = s.memory) (he : t.entities = s.entities)
    (ho : t.objects = s.objects) (hacq : t.epoll.acquiring = s.epoll.acquiring)
    (hdec : g'.decoded = g.decoded)
    (hplace : ∀ r ∈ s.underway ++ g.handed, r ∈ t.underway ++ g'.handed) : Audited t g' := by
  refine h.frame ?_ (fun p => by rw [hm]) ho (fun i => by rw [he]) (by rw [he])
    (fun i m hi => he ▸ hi) hacq hdec fun r hr => Or.inl (hplace r hr)
  rw [Recorded, hm, ho]
  exact h.recorded

lemma Audited.release (h : Audited s g) {r : Reference} (hm : t.memory = s.memory)
    (he : t.entities = s.entities.releaseEntity r.ptr) (ho : t.objects = s.objects)
    (hpc : t.epoll = s.epoll)
    (hplace : ∀ r' ∈ s.underway ++ g.handed, r' ∈ t.underway ++ g.handed ∨ r' = r) :
    Audited t g := by
  refine h.frame ?_ (fun p => by rw [hm]) ho (fun i => ?_) ?_ (fun i m hi => ?_) (by rw [hpc]) rfl
    fun r' hr' => ?_
  · rw [Recorded, hm, ho]
    exact h.recorded
  · rw [he]
    exact EntityArray.release_owned _ _
  · rw [he]
    exact EntityArray.release_length _ _
  · rw [he] at hi
    exact EntityArray.release_occupied hi
  · refine (hplace r' hr').imp_right ?_
    rintro rfl
    rw [he]
    exact EntityArray.release_not_occupies h.distinct

section Making

variable {c : Connection} {b : RecvBuffer} {d : ReadBytes} {i p : ℕ} {m : MsgObject}

/-- What the epoll thread makes goes to the entity that it has acquired; the objects of the other
entities stay where they are. -/
lemma Audited.make (h : Audited s g) (hpc : s.epoll = .acquired c b d i)
    (hfree : s.freed i p = none)
    (hmem : t.memory = (s.make i p m).memory) (hent : t.entities = (s.make i p m).entities)
    (hobj : t.objects = (s.make i p m).objects) (hacq : t.epoll.acquiring = none)
    (hdec : ∀ n ∈ g'.decoded, n ∈ g.decoded ∨ n = s.objects.length)
    (hplace : ∀ r ∈ s.underway ++ g.handed, r ∈ t.underway ++ g'.handed)
    (hnew : s.objects.length ∈ g'.decoded → ⟨p, s.objects.length⟩ ∈ t.underway ++ g'.handed) :
    Audited t g' := by
  have hlt : i < s.entities.length := h.ranged i (by rw [hpc]; rfl)
  have hi : s.entities[i]? = some s.entities[i] := List.getElem?_eq_getElem hlt
  have hold : ∀ q cell, q ≠ p → t.memory q = some cell → s.memory q = some cell := by
    intro q cell hqp hq
    rw [hmem, make_memory, Function.update_of_ne hqp] at hq
    exact memory_of_freed hq
  refine ⟨?_, ?_, ?_, fun j hj => ?_, fun n hn => ?_, fun j q cell hj _ hcell hn => ?_⟩
  · rw [hmem, hent]
    exact make_live hi h.distinct h.live
  · rw [hent]
    exact make_distinct (m := m) hi h.distinct h.live hfree
  · rw [Recorded, hmem, hobj]
    exact h.recorded.make i p m
  · rw [hacq] at hj
    cases hj
  · rw [hobj, make_objects, List.length_append]
    rcases hdec n hn with hn | rfl
    · exact (h.serials n hn).trans_le (Nat.le_add_right _ _)
    · exact Nat.lt_succ_self _
  · by_cases hqp : q = p
    · subst hqp
      rw [hmem, make_memory, Function.update_self] at hcell
      obtain rfl := Option.some.inj hcell
      exact hnew hn
    · have hcell := hold q cell hqp hcell
      have hji : i ≠ j := by
        rintro rfl
        rw [hent, make_entities, EntityArray.hold_getElem hi] at hj
        have hm := congrArg DeSerializeEntity.deSerializedMsg (Option.some.inj hj)
        exact hqp (Option.some.inj hm).symm
      rw [hent, make_entities, EntityArray.hold_getElem_ne hji] at hj
      obtain ⟨m', hm', _⟩ := h.recorded q cell hcell
      have hser := (List.getElem?_eq_some_iff.mp hm').1
      have hne : s.epoll.acquiring ≠ some j := by
        rw [hpc]
        exact fun he => hji (Option.some.inj he)
      refine hplace _ (h.accounted j q cell hj hne hcell ?_)
      exact (hdec _ hn).resolve_right hser.ne

lemma Audited.acquire (h : Audited s g) {A : EntityArray} (hpc : s.epoll = .received c b d)
    (hacq : s.entities.acquireEntity = some (i, A)) :
    Audited { s with entities := A, epoll := .acquired c b d i } g := by
  obtain ⟨hlt, hlen⟩ := EntityArray.acquire_length hacq
  refine ⟨fun j q hj => ?_, ?_, h.recorded, ?_, h.serials, fun j q cell hj hne hcell hn => ?_⟩
  · rw [EntityArray.acquire_owned hacq] at hj
    exact h.live j q hj
  · exact h.distinct.of_owned fun j => EntityArray.acquire_owned hacq
  · rintro _ ⟨⟩
    exact hlt
  · have hji : i ≠ j := fun he => hne (congrArg some he)
    rw [EntityArray.acquire_getElem_ne hacq hji] at hj
    have hr := h.accounted j q cell hj (by rw [hpc]; nofun) hcell hn
    rw [State.underway, hpc] at hr
    exact hr

end Making

lemma calls_eq {r : Reference} {cell : Cell} {f : CallBack} (hpc : s.loop = .handling r)
    (hcell : s.memory r.ptr = some cell) (hfun : callBackFun cell.object = some f) :
    s.calls = some f := by
  rw [State.calls, hpc]
  simp [hcell, hfun]

lemma GivesBack.not_drop {r : Reference} {cell : Cell} {f : CallBack} {p : Prop} {q : Prop}
    (hc : GivesBack s (.loop .callBack)) (hpc : s.loop = .handling r)
    (hcell : s.memory r.ptr = some cell) (hfun : callBackFun cell.object = some f) :
    ¬ (f = .ignore ∧ p ∨ f = .quit ∧ q) := by
  rw [GivesBack, calls_eq hpc hcell hfun] at hc
  rintro (⟨rfl, _⟩ | ⟨rfl, _⟩)
  · exact hc.1 rfl
  · exact hc.2 rfl

lemma Audited.epollStep (h : Audited s g) {a : EpollAction} (hs : EpollTransition s a t) :
    Audited t (AccountLog.record s (.epoll a) t g) := by
  have hsame : ∀ pc : EpollPc, s.epoll.held = [] → pc.held = [] →
      ∀ r ∈ s.underway ++ g.handed, r ∈ (pc.held ++ s.recvMsgQueue ++ s.loop.held) ++ g.handed := by
    intro pc he hpc r hr
    rw [State.underway, he] at hr
    rw [hpc]
    exact hr
  cases hs with
  | refuse => exact h.regroup rfl rfl rfl rfl rfl fun r hr => hr
  | findNone => exact h
  | accept hpc | find hpc | wouldBlock hpc | eof hpc | read hpc | addClient hpc
  | removeClient hpc =>
    exact h.regroup rfl rfl rfl (by rw [hpc]; rfl) rfl (hsame _ (by rw [hpc]; rfl) rfl)
  | acquireEntity hpc hacq => exact h.acquire hpc hacq
  | @deSerialize c b d i p m _ hpc hfree =>
    refine h.make hpc hfree rfl rfl rfl rfl (fun n hn => ?_) (fun r hr => ?_) fun _ => ?_
    · exact (List.mem_append.mp hn).imp_right List.mem_singleton.mp
    · rw [State.underway, hpc] at hr
      exact List.mem_cons_of_mem _ hr
    · exact List.mem_cons_self
  | @raise c b d i p m _ hpc hfree =>
    refine h.make hpc hfree rfl rfl rfl rfl (fun n hn => Or.inl hn)
      (hsame _ (by rw [hpc]; rfl) rfl) fun hn => ?_
    exact absurd (h.serials _ hn) (lt_irrefl _)
  | @pushMsg c r m hpc =>
    refine h.regroup rfl rfl rfl (by rw [hpc]; rfl) rfl fun r' hr' => ?_
    rw [State.underway, hpc] at hr'
    simp only [State.underway, EpollPc.held, List.mem_append, List.mem_singleton] at hr' ⊢
    tauto

lemma Audited.loopStep (h : Audited s g) {a : LoopAction} (hc : GivesBack s (.loop a))
    (hs : LoopTransition s a t) : Audited t (AccountLog.record s (.loop a) t g) := by
  cases hs with
  | @getMsg r rs hpc hq =>
    refine h.regroup rfl rfl rfl rfl rfl fun r' hr' => ?_
    rw [State.underway, hpc, hq] at hr'
    simp only [State.underway, LoopPc.held, List.mem_append, List.mem_cons] at hr' ⊢
    tauto
  | drop hpc hcell hfun hend => exact absurd hend (hc.not_drop hpc hcell hfun)
  | reg hpc | deReg hpc =>
    refine h.regroup rfl rfl rfl rfl rfl fun r' hr' => ?_
    rw [State.underway, hpc] at hr'
    rcases List.mem_append.mp hr' with hr' | hr'
    · exact List.mem_append_left _ hr'
    · exact List.mem_append_right _ (List.mem_append_left _ hr')
  | @data r cell hpc =>
    refine h.regroup rfl rfl rfl rfl rfl fun r' hr' => ?_
    change r' ∈ _ ++ (g.handed ++ (s.sendMsgQueue ++ [r]).drop s.sendMsgQueue.length)
    rw [List.drop_left]
    rw [State.underway, hpc] at hr'
    simp only [State.underway, LoopPc.held, List.mem_append, List.mem_singleton] at hr' ⊢
    tauto
  | @release r hpc =>
    refine h.release rfl rfl rfl rfl fun r' hr' => ?_
    rw [State.underway, hpc] at hr'
    simp only [State.underway, LoopPc.held, List.mem_append, List.mem_singleton] at hr' ⊢
    tauto

lemma Audited.sendStep (h : Audited s g) {a : SendAction} (hs : SendTransition s a t) :
    Audited t g := by
  cases hs with
  | @write r toIP toName k e rest cell hpc hmatch hcell =>
    refine h.frame (h.recorded.measure hcell rfl rfl) (fun p => ?_) rfl (fun _ => rfl) rfl
      (fun _ _ hi => hi) rfl rfl fun r' hr' => Or.inl hr'
    change (Function.update s.memory r.ptr _ p).map Cell.serial = _
    rw [Function.update_apply]
    split_ifs with hp
    · rw [hp, hcell]
      rfl
    · rfl
  | release hpc => exact h.release rfl rfl rfl rfl fun r' hr' => Or.inl hr'
  | popMsg | copyStrings | lockTable | unlock | skip =>
    exact h.regroup rfl rfl rfl rfl rfl fun r' hr' => hr'

lemma Audited.step (h : Audited s g) {a : Action} (hc : GivesBack s a) (hs : Transition s a t) :
    Audited t (AccountLog.record s a t g) := by
  cases hs with
  | epoll hs => exact h.epollStep hs
  | loop hs => exact h.loopStep hc hs
  | send hs => exact h.sendStep hs

lemma Audited.settled (h : Audited s g) {a : Action} (hc : GivesBack s a) (hs : Transition s a t)
    {r : Reference} (hr : r ∈ s.loop.held) (ht : r ∉ t.loop.held) :
    r ∈ (AccountLog.record s a t g).handed ∨ ¬ t.entities.Occupies r.ptr := by
  cases hs with
  | epoll hs => cases hs <;> exact absurd hr ht
  | send hs => cases hs <;> exact absurd hr ht
  | loop hs =>
    cases hs with
    | getMsg hpc =>
      rw [hpc] at hr
      cases hr
    | drop hpc hcell hfun hend => exact absurd hend (hc.not_drop hpc hcell hfun)
    | reg hpc | deReg hpc =>
      rw [hpc] at hr
      exact absurd hr ht
    | @data r' cell hpc =>
      rw [hpc] at hr
      obtain rfl := List.mem_singleton.mp hr
      refine Or.inl (List.mem_append_right _ ?_)
      change r ∈ (s.sendMsgQueue ++ [r]).drop s.sendMsgQueue.length
      rw [List.drop_left]
      exact hr
    | @release r' hpc =>
      rw [hpc] at hr
      obtain rfl := List.mem_singleton.mp hr
      exact Or.inr (EntityArray.release_not_occupies h.distinct)

/-- The callbacks of Dull and Quit messages do nothing for the entity. -/
theorem occupied_entities_accounted {E : SerializeEntity}
    (h : Observed step AccountLog.record GivesBack (State.init E, AccountLog.empty) (s, g)) :
    Accounted s g ∧ ∀ a t, GivesBack s a → step s a = some t → ∀ r ∈ s.loop.held,
      r ∉ t.loop.held → r ∈ (AccountLog.record s a t g).handed ∨ ¬ t.entities.Occupies r.ptr := by
  have hs : Audited s g := h.invariant (I := fun x => Audited x.1 x.2) (audited_init E)
    fun _ _ _ _ hi hc ha => hi.step hc (transition_of_step ha)
  exact ⟨hs.accounted, fun a t hc ha r => hs.settled hc (transition_of_step ha)⟩

instance (s : State) : (a : Action) → Decidable (GivesBack s a)
  | .loop .callBack => inferInstanceAs (Decidable (_ ≠ _ ∧ _ ≠ _))
  | .loop .getMsg | .loop .releaseEntity | .epoll _ | .send _ => isTrue trivial

theorem occupied_entities_accounted_data : ∃ s g, Accounted s g ∧ s.entities.Occupies 1 ∧
    s.underway = [] ∧ g.handed = [⟨1, 1⟩] := by
  have h : (execute (observe step AccountLog.record) (fun x a => GivesBack x.1 a)
      (State.init serializer₀, AccountLog.empty) (register client₀ [53, 48] (by decide) ++
      sendFrom client₀ 1 (.data ⟨⟨4, 0⟩, [49], [97], []⟩) (by decide) ++
      [.loop .callBack])).map (fun x => ((x.1.entities[0]?).map fun E =>
        (E.deSerializedMsg, E.isOccupied), x.1.underway, x.2.handed))
      = some (some (some 1, true), [], [⟨1, 1⟩]) := by
    decide +kernel
  obtain ⟨⟨s, g⟩, hs, hobs⟩ := reaches_of_execute_map h
  simp only [Prod.mk.injEq] at hobs
  obtain ⟨hent, hunder, hhanded⟩ := hobs
  obtain ⟨⟨p, b⟩, hE, he⟩ := Option.map_eq_some_iff.mp hent
  cases he
  exact ⟨s, g, (occupied_entities_accounted hs).1, ⟨0, hE⟩, hunder, hhanded⟩

def sendDull : List Action :=
  connect client₀ ++ sendFrom client₀ 0 (.dull ⟨⟨0, 0⟩⟩) (by decide) ++ [.loop .callBack]

theorem dull_message_kept : ∃ s g,
    Observed step AccountLog.record Free (State.init serializer₀, AccountLog.empty) (s, g) ∧
      s.underway ++ g.handed = [] ∧ s.entities.Occupies 0 ∧ ¬ Accounted s g := by
  have hent : (execute (observe step AccountLog.record) (fun x a => Free x.1 a)
      (State.init serializer₀, AccountLog.empty) sendDull).map (fun x =>
        ((x.1.entities[0]?).map (fun E => (E.deSerializedMsg, E.isOccupied)), x.1.epoll.acquiring))
      = some (some (some 0, true), none) := by
    decide +kernel
  have hlog : (execute (observe step AccountLog.record) (fun x a => Free x.1 a)
      (State.init serializer₀, AccountLog.empty) sendDull).map (fun x =>
        ((x.1.memory 0).map Cell.serial, x.1.underway ++ x.2.handed, x.2.decoded))
      = some (some 0, [], [0]) := by
    decide +kernel
  obtain ⟨⟨s, g⟩, hs, hobs⟩ := Option.map_eq_some_iff.mp hent
  rw [hs, Option.map_some] at hlog
  simp only [Prod.mk.injEq, Option.some.injEq] at hobs hlog
  obtain ⟨hent, hacq⟩ := hobs
  obtain ⟨hmem, hplace, hdec⟩ := hlog
  obtain ⟨⟨p, b⟩, hE, he⟩ := Option.map_eq_some_iff.mp hent
  cases he
  obtain ⟨cell, hcell, hserial⟩ := Option.map_eq_some_iff.mp hmem
  have hn : cell.serial ∈ g.decoded := by
    rw [hdec, hserial]
    exact List.mem_singleton.mpr rfl
  refine ⟨s, g, reaches_of_execute hs, hplace, ⟨0, hE⟩, fun ha => ?_⟩
  have hr := ha 0 0 cell hE (by rw [hacq]; nofun) hcell hn
  rw [hplace] at hr
  cases hr

end Auditing

end Xty.Server
