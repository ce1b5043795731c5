import Xty.Server.Values

/-! The Data messages on their way from the epoll thread through the loop thread to the send
thread. -/

namespace Xty.Server

open Xty.General.Runs
open Xty.Message

structure DataLog where
  pushed : List Reference
  popped : List Reference

def DataLog.record (s : State) (a : Action) (_ : State) (g : DataLog) : DataLog :=
  match a with
  | .epoll .pushMsg =>
    match s.epoll with
    | .deSerialized _ r (.data _) => { g with pushed := g.pushed ++ [r] }
    | _ => g
  | .send .popMsg => { g with popped := g.popped ++ s.sendMsgQueue.head?.toList }
  | _ => g

def State.isData (s : State) (r : Reference) : Bool :=
  match s.value r with
  | some (.data _) => true
  | _ => false

def LoopPc.inHands : LoopPc → List Reference
  | .handling r => [r]
  | .waiting | .releasing _ | .exited => []

def State.dataUnderway (s : State) : List Reference :=
  s.sendMsgQueue ++ s.loop.inHands.filter s.isData ++ s.recvMsgQueue.filter s.isData

/-- What has been pushed is what has been popped, followed by what is underway, oldest first. -/
structure Ordered (s : State) (g : DataLog) : Prop where
  remembered : Remembered s
  order : g.pushed = g.popped ++ s.dataUnderway
  data : ∀ r ∈ g.pushed, s.isData r = true
  valued : ∀ r ∈ s.loop.inHands ++ s.recvMsgQueue, ∃ m, s.value r = some m
  increasing : g.pushed.Pairwise fun r r' => r.serial < r'.serial
  pending : ∀ c r m, s.epoll = .deSerialized c r m →
    s.value r = some m ∧ ∀ r' ∈ g.pushed, r'.serial < r.serial

section Ordering

variable {s t : State} {g : DataLog} {r : Reference} {m : MsgObject}

lemma isData_of_value (h : s.value r = some m) : s.isData r = true ↔ ∃ d, m = .data d := by
  rw [State.isData, h]
  cases m <;> simp

lemma isData_mono (h : s.objects <+: t.objects) (hm : s.value r = some m) :
    t.isData r = s.isData r := by
  rw [State.isData, State.isData, hm, value_mono h hm]

lemma value_of_isData (h : s.isData r = true) : ∃ d, s.value r = some (.data d) := by
  rw [State.isData] at h
  split at h
  · next d hd => exact ⟨d, hd⟩
  · cases h

lemma serial_lt (h : s.value r = some m) : r.serial < s.objects.length :=
  (List.getElem?_eq_some_iff.mp h).1

lemma filter_isData (ho : s.objects <+: t.objects) {l : List Reference}
    (hl : ∀ r ∈ l, ∃ m, s.value r = some m) : l.filter t.isData = l.filter s.isData := by
  refine List.filter_congr fun r hr => ?_
  obtain ⟨m, hm⟩ := hl r hr
  exact isData_mono ho hm

lemma ordered_init (E : SerializeEntity) : Ordered (State.init E) ⟨[], []⟩ where
  remembered := remembered_init E
  order := rfl
  data _ h := by cases h
  valued _ h := by cases h
  increasing := List.Pairwise.nil
  pending _ _ _ h := by cases h

lemma Ordered.frame (h : Ordered s g) (ht : Remembered t) (ho : s.objects <+: t.objects)
    (hsend : t.sendMsgQueue = s.sendMsgQueue) (hloop : t.loop.inHands = s.loop.inHands)
    (hrecv : t.recvMsgQueue = s.recvMsgQueue)
    (hpc : ∀ c r m, t.epoll = .deSerialized c r m →
      t.value r = some m ∧ ∀ r' ∈ g.pushed, r'.serial < r.serial) : Ordered t g where
  remembered := ht
  order := by
    have hl : ∀ r ∈ s.loop.inHands, ∃ m, s.value r = some m := fun r hr =>
      h.valued r (List.mem_append_left _ hr)
    have hq : ∀ r ∈ s.recvMsgQueue, ∃ m, s.value r = some m := fun r hr =>
      h.valued r (List.mem_append_right _ hr)
    rw [h.order, State.dataUnderway, State.dataUnderway, hsend, hloop, hrecv, filter_isData ho hl,
      filter_isData ho hq]
  data r hr := by
    obtain ⟨d, hd⟩ := value_of_isData (h.data r hr)
    rw [isData_mono ho hd]
    exact h.data r hr
  valued r hr := by
    rw [hloop, hrecv] at hr
    obtain ⟨m, hm⟩ := h.valued r hr
    exact ⟨m, value_mono ho hm⟩
  increasing := h.increasing
  pending := hpc

lemma record_push {c : Connection} (hpc : s.epoll = .deSerialized c r m) (hm : s.value r = some m) :
    DataLog.record s (.epoll .pushMsg) t g
      = { g with pushed := g.pushed ++ [r].filter s.isData } := by
  rw [DataLog.record, List.filter_singleton, State.isData, hm]
  simp only [hpc]
  cases m <;> simp

lemma Ordered.push (h : Ordered s g) {c : Connection} (hpc : s.epoll = .deSerialized c r m)
    {es : List Event} :
    Ordered { s with recvMsgQueue := s.recvMsgQueue ++ [r], epoll := .polling, history := es }
      (DataLog.record s (.epoll .pushMsg) t g) := by
  obtain ⟨hm, hlast⟩ := h.pending c r m hpc
  have hnew : ∀ r' ∈ [r].filter s.isData, r' = r ∧ s.isData r' = true := by
    intro r' hr'
    obtain ⟨hr, hd⟩ := List.mem_filter.mp hr'
    exact ⟨List.mem_singleton.mp hr, hd⟩
  rw [record_push hpc hm]
  refine ⟨h.remembered.congr rfl rfl, ?_, ?_, ?_, ?_, nofun⟩
  · change g.pushed ++ [r].filter s.isData = g.popped ++ (s.sendMsgQueue
      ++ s.loop.inHands.filter s.isData ++ (s.recvMsgQueue ++ [r]).filter s.isData)
    rw [h.order, State.dataUnderway, List.filter_append]
    simp only [List.append_assoc]
  · intro r' hr'
    rcases List.mem_append.mp hr' with hr' | hr'
    · exact h.data r' hr'
    · exact (hnew r' hr').2
  · intro r' hr'
    rw [← List.append_assoc] at hr'
    rcases List.mem_append.mp hr' with hr' | hr'
    · exact h.valued r' hr'
    · exact ⟨m, List.mem_singleton.mp hr' ▸ hm⟩
  · refine List.pairwise_append.mpr ⟨h.increasing, (List.pairwise_singleton _ _).filter _, ?_⟩
    intro r' hr' q hq
    exact (hnew q hq).1 ▸ hlast r' hr'

lemma Ordered.epollStep (h : Ordered s g) {a : EpollAction} (hs : EpollTransition s a t) :
    Ordered t (DataLog.record s (.epoll a) t g) := by
  have ht := h.remembered.step (.epoll hs)
  have ho := (Transition.epoll hs).objects_grow
  cases hs with
  | refuse | findNone => exact h.frame ht ho rfl rfl rfl h.pending
  | accept | addClient | find | wouldBlock | eof | removeClient | read | acquireEntity | raise =>
    exact h.frame ht ho rfl rfl rfl nofun
  | @deSerialize c b d i p m a hpc =>
    refine h.frame ht ho rfl rfl rfl ?_
    rintro _ _ _ ⟨⟩
    refine ⟨List.getElem?_concat_length, fun r hr => ?_⟩
    obtain ⟨d, hd⟩ := value_of_isData (h.data r hr)
    exact serial_lt hd
  | pushMsg hpc => exact h.push hpc

lemma Ordered.drop (h : Ordered s g) (hpc : s.loop = .handling r) (hr : s.isData r = false)
    (ht : Remembered t) (ho : t.objects = s.objects) (hsend : t.sendMsgQueue = s.sendMsgQueue)
    (hloop : t.loop.inHands = []) (hrecv : t.recvMsgQueue = s.recvMsgQueue)
    (he : t.epoll = s.epoll) : Ordered t g where
  remembered := ht
  order := by
    have hdata : t.isData = s.isData := by
      funext r'
      rw [State.isData, State.isData, State.value, State.value, ho]
    rw [h.order, State.dataUnderway, State.dataUnderway, hsend, hloop, hrecv, hdata, hpc,
      LoopPc.inHands, List.filter_singleton, hr]
    simp only [cond_false, List.filter_nil]
  data r' hr' := by
    rw [State.isData, State.value, ho]
    exact h.data r' hr'
  valued r' hr' := by
    rw [hloop, List.nil_append, hrecv] at hr'
    rw [State.value, ho]
    exact h.valued r' (List.mem_append_right _ hr')
  increasing := h.increasing
  pending c r' m hm := by
    rw [State.value, ho]
    exact h.pending c r' m (he ▸ hm)

lemma Ordered.loopStep (h : Ordered s g) {a : LoopAction} (hv : ByValue s (.loop a))
    (hs : LoopTransition s a t) : Ordered t (DataLog.record s (.loop a) t g) := by
  have ht := h.remembered.step (.loop hs)
  have hkind : ∀ {r cell f}, ByValue s (.loop .callBack) → s.loop = .handling r →
      s.memory r.ptr = some cell → callBackFun cell.object = some f →
      (s.isData r = true ↔ f = .data) := by
    intro r cell f hv hpc hcell hfun
    obtain ⟨m, hm, hf⟩ := h.remembered.callBack hv hpc hcell hfun
    rw [isData_of_value hm]
    rcases hf with rfl | rfl <;> cases m <;>
      simp [callBackOf, MsgObject.measured, MsgObject.setHead]
  cases hs with
  | @getMsg r rs hpc hq =>
    refine ⟨ht, ?_, h.data, fun r' hr' => h.valued r' ?_, h.increasing, h.pending⟩
    · change g.pushed = g.popped ++ (s.sendMsgQueue ++ [r].filter s.isData ++ rs.filter s.isData)
      rw [h.order, State.dataUnderway, hpc, hq, ← List.singleton_append, List.filter_append]
      simp only [LoopPc.inHands, List.filter_nil, List.append_nil, List.append_assoc]
    · rw [hpc, hq]
      exact hr'
  | @drop r cell f pc hpc hcell hfun hend =>
    have hr : s.isData r = false := by
      rw [Bool.eq_false_iff, ne_eq, hkind hv hpc hcell hfun]
      rcases hend with ⟨rfl, _⟩ | ⟨rfl, _⟩ <;> simp
    refine h.drop hpc hr ht rfl rfl ?_ rfl rfl
    rcases hend with ⟨_, rfl⟩ | ⟨_, rfl⟩ <;> rfl
  | @reg r m cell hpc hcell hfun =>
    have hr : s.isData r = false := by
      rw [Bool.eq_false_iff, ne_eq, hkind hv hpc hcell hfun]
      simp
    exact h.drop hpc hr ht rfl rfl rfl rfl rfl
  | @deReg r m cell hpc hcell hfun =>
    have hr : s.isData r = false := by
      rw [Bool.eq_false_iff, ne_eq, hkind hv hpc hcell hfun]
      simp
    exact h.drop hpc hr ht rfl rfl rfl rfl rfl
  | @data r cell hpc hcell hfun =>
    have hr : s.isData r = true := (hkind hv hpc hcell hfun).mpr rfl
    refine ⟨ht, ?_, h.data, fun r' hr' => h.valued r' ?_, h.increasing, h.pending⟩
    · change g.pushed = g.popped ++ (s.sendMsgQueue ++ [r] ++ [].filter s.isData
        ++ s.recvMsgQueue.filter s.isData)
      rw [h.order, State.dataUnderway, hpc, LoopPc.inHands, List.filter_singleton, hr]
      simp only [cond_true, List.filter_nil, List.append_nil]
    · rw [hpc]
      exact List.mem_cons_of_mem _ hr'
  | release hpc =>
    exact h.frame ht List.prefix_rfl rfl (by rw [hpc]; rfl) rfl h.pending

lemma Ordered.sendStep (h : Ordered s g) {a : SendAction} (hs : SendTransition s a t) :
    Ordered t (DataLog.record s (.send a) t g) := by
  have ht := h.remembered.step (.send hs)
  cases hs with
  | @popMsg r rs hpc hq =>
    refine ⟨ht, ?_, h.data, h.valued, h.increasing, h.pending⟩
    change g.pushed = g.popped ++ s.sendMsgQueue.head?.toList ++ (rs
      ++ s.loop.inHands.filter s.isData ++ s.recvMsgQueue.filter s.isData)
    rw [h.order, State.dataUnderway, hq]
    simp only [List.head?_cons, Option.toList_some, List.append_assoc, List.cons_append,
      List.nil_append]
  | copyStrings | lockTable | unlock | skip | write | release =>
    exact h.frame ht List.prefix_rfl rfl rfl rfl h.pending

lemma Ordered.step (h : Ordered s g) {a : Action} (hv : ByValue s a) (hs : Transition s a t) :
    Ordered t (DataLog.record s a t g) := by
  cases hs with
  | epoll hs => exact h.epollStep hs
  | loop hs => exact h.loopStep hv hs
  | send hs => exact h.sendStep hs

lemma Ordered.nodup (h : Ordered s g) : g.pushed.Nodup :=
  h.increasing.imp fun hlt he => hlt.ne (congrArg Reference.serial he)

lemma Ordered.count_underway (h : Ordered s g) (hr : r ∈ g.pushed) :
    (s.sendMsgQueue ++ s.loop.inHands ++ s.recvMsgQueue).count r = s.dataUnderway.count r := by
  have hf : ∀ l : List Reference, (l.filter s.isData).count r = l.count r := fun l =>
    List.count_filter (h.data r hr)
  rw [State.dataUnderway]
  simp only [List.count_append, hf]

/-- What the send thread has popped is a beginning of what the epoll thread has pushed; every
other Data message is in one place, once, and the send queue holds nothing but Data messages. -/
theorem data_messages_in_order {E : SerializeEntity}
    (h : Observed step DataLog.record ByValue (State.init E, ⟨[], []⟩) (s, g)) :
    g.popped <+: g.pushed ∧
      (∀ r ∈ g.pushed, (s.sendMsgQueue ++ s.loop.inHands ++ s.recvMsgQueue).count r
        = if r ∈ g.popped then 0 else 1) ∧
      ∀ r ∈ s.sendMsgQueue, ∃ d, s.value r = some (.data d) := by
  have hs : Ordered s g := h.invariant (I := fun x => Ordered x.1 x.2) (ordered_init E)
    fun _ _ _ _ hi hv ha => hi.step hv (transition_of_step ha)
  refine ⟨⟨s.dataUnderway, hs.order.symm⟩, fun r hr => ?_, fun r hr => ?_⟩
  · have hone := List.count_eq_one_of_mem hs.nodup hr
    rw [hs.order, List.count_append] at hone
    rw [hs.count_underway hr]
    split_ifs with hpop
    · have := List.count_pos_iff.mpr hpop
      omega
    · rw [List.count_eq_zero.mpr hpop] at hone
      omega
  · apply value_of_isData
    apply hs.data r
    rw [hs.order, State.dataUnderway, List.append_assoc]
    exact List.mem_append_right _ (List.mem_append_left _ hr)

instance (s : State) (r : Reference) : Decidable (Denotes s r) :=
  inferInstanceAs (Decidable (∀ cell ∈ s.memory r.ptr, _))

instance (s : State) : (a : Action) → Decidable (ByValue s a)
  | .loop .callBack => inferInstanceAs (Decidable (∀ r ∈ s.loop.held, Denotes s r))
  | .send .copyStrings | .send .next =>
    inferInstanceAs (Decidable (∀ r ∈ s.send.held, Denotes s r))
  | .loop .getMsg | .loop .releaseEntity | .epoll _ => isTrue trivial
  | .send .popMsg | .send .lockTable | .send .releaseEntity => isTrue trivial

theorem data_messages_in_order_two : ∃ s g,
    Observed step DataLog.record ByValue (State.init serializer₀, ⟨[], []⟩) (s, g) ∧
      g.pushed = [⟨0, 0⟩, ⟨1, 2⟩] ∧ g.popped = [⟨0, 0⟩] ∧ g.popped <+: g.pushed := by
  have h : (execute (observe step DataLog.record) (fun x a => ByValue x.1 a)
      (State.init serializer₀, ⟨[], []⟩) (connect client₀ ++
      sendFrom client₀ 0 (.data ⟨⟨4, 0⟩, [49], [97], []⟩) (by decide) ++ [.loop .callBack] ++
      sendFrom client₀ 2 (.dull ⟨⟨0, 0⟩⟩) (by decide) ++ [.loop .callBack] ++
      sendFrom client₀ 1 (.data ⟨⟨4, 0⟩, [49], [97], []⟩) (by decide) ++ [.send .popMsg])).map
        (fun x => (x.2.pushed, x.2.popped)) = some ([⟨0, 0⟩, ⟨1, 2⟩], [⟨0, 0⟩]) := by
    decide +kernel
  obtain ⟨⟨s, g⟩, hs, hg⟩ := reaches_of_execute_map h
  obtain ⟨hpush, hpop⟩ := Prod.mk.inj hg
  exact ⟨s, g, hs, hpush, hpop,
    (data_messages_in_order hs).1⟩

end Ordering

end Xty.Server
