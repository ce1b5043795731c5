import Xty.Server.DataOrder

/-! The clients that each Data message is forwarded to, over the schedules of the loop thread and
the send thread. -/

namespace Xty.Server

open Xty.General.Runs Xty.General.SortedTable Xty.General.LittleEndian
open Xty.Message

def handle (T : ClientTable) : MsgObject → ClientTable
  | .reg m => handleRegMsg T m
  | .deReg m => handleDeRegMsg T m
  | .dull _ | .quit _ | .data _ => T

def handleAll (T : ClientTable) (ms : List MsgObject) : ClientTable := ms.foldl handle T

def recipients (toIP toName : Bytes) (entries : List (Bytes × Option ClientEntity)) :
    List (Bytes × ℕ) :=
  entries.filterMap fun (k, v) =>
    v.bind fun e => if e.Matches toIP toName then some (k, e.clientFd) else none

/-- The place of a Data message in the order of arrival, how many messages had been handled when
the table was locked for it, and the clients that it was written to. -/
structure Service where
  index : ℕ
  handled : ℕ
  clients : List (Bytes × ℕ)
deriving DecidableEq, Repr

/-- How many messages the loop thread has handled, the places of those in the send queue, and the
Data messages that the send thread has in hand and is done with. -/
structure ForwardLog where
  handled : ℕ
  queued : List ℕ
  serving : Option Service
  finished : List Service

def ForwardLog.empty : ForwardLog := ⟨0, [], none, []⟩

def ForwardLog.record (s : State) (a : Action) (t : State) (g : ForwardLog) : ForwardLog :=
  match a with
  | .loop .callBack => { g with
      handled := g.handled + 1
      queued := g.queued ++ (t.sendMsgQueue.drop s.sendMsgQueue.length).map fun _ => g.handled }
  | .send .popMsg => { g with
      queued := g.queued.tail
      serving := g.queued.head?.map fun i => ⟨i, 0, []⟩ }
  | .send .lockTable =>
    { g with serving := g.serving.map fun v => { v with handled := g.handled } }
  | .send .next =>
    match s.send, t.send with
    | .iterating _ _ _ ((k, some e) :: _), .releasing .. =>
      { g with serving := g.serving.map fun v =>
          { v with clients := v.clients ++ [(k, e.clientFd)] } }
    | .iterating .., .waiting =>
      { g with serving := none, finished := g.finished ++ g.serving.toList }
    | _, _ => g
  | _ => g

def Scheduled (_ : State) : Action → Prop
  | .epoll _ => False
  | .loop _ | .send _ => True

def Stands (s : State) (r : Reference) (m : MsgObject) : Prop :=
  (s.memory r.ptr).map Cell.object = some m

/-- The messages are in the receive queue, and the two threads wait for them. -/
structure Loaded (s : State) (ms : List MsgObject) : Prop where
  loop : s.loop = .waiting
  send : s.send = .waiting
  sendMsgQueue : s.sendMsgQueue = []
  recvMsgQueue : List.Forall₂ (Stands s) s.recvMsgQueue ms
  tagged : ∀ m ∈ ms, m.Tagged

/-- A Data message went to the clients that it is for once the messages handled so far, and it
was one of them, have been handled in the order of arrival. -/
structure Served (T : ClientTable) (ms : List MsgObject) (v : Service) : Prop where
  after : v.index < v.handled
  within : v.handled ≤ ms.length
  clients : ∃ d, ms[v.index]? = some (.data d) ∧ v.clients
    = recipients d.toProcessIP d.toProcessName (handleAll T (ms.take v.handled)).entries

def dataPlaces (ms : List MsgObject) (n : ℕ) : List ℕ :=
  (List.range n).filter fun i => ms[i]?.map callBackOf = some .data

section Handling

variable {T : ClientTable} {m : MsgObject} {ms : List MsgObject} {f : CallBack} {n : ℕ}

lemma handle_measured (T : ClientTable) (m : MsgObject) : handle T m.measured = handle T m := by
  cases m <;> rfl

lemma handleAll_take_succ (T : ClientTable) (h : ms[n]? = some m) :
    handleAll T (ms.take (n + 1)) = handle (handleAll T (ms.take n)) m := by
  rw [handleAll, handleAll, List.take_add_one, h, List.foldl_append]
  rfl

lemma dataPlaces_succ (ms : List MsgObject) (n : ℕ) : dataPlaces ms (n + 1)
    = dataPlaces ms n ++ if ms[n]?.map callBackOf = some .data then [n] else [] := by
  rw [dataPlaces, List.range_succ, List.filter_append, List.filter_singleton]
  split_ifs with h <;> simp [h, dataPlaces]

lemma mem_dataPlaces {i : ℕ} : i ∈ dataPlaces ms n ↔ i < n ∧ ∃ d, ms[i]? = some (.data d) := by
  rw [dataPlaces, List.mem_filter, List.mem_range, decide_eq_true_iff, Option.map_eq_some_iff]
  refine and_congr_right fun _ => ⟨?_, ?_⟩
  · rintro ⟨m, hm, hd⟩
    cases m <;> cases hd
    exact ⟨_, hm⟩
  · rintro ⟨d, hd⟩
    exact ⟨_, hd, rfl⟩

lemma handleAll_quiet (h : ∀ m ∈ ms, (callBackOf m).userIPPort = none) : handleAll T ms = T := by
  induction ms with
  | nil => rfl
  | cons m ms ih =>
    have hm : handle T m = T := by
      have hm := h m List.mem_cons_self
      cases m <;> first | rfl | cases hm
    rw [handleAll, List.foldl_cons, hm]
    exact ih fun m' hm' => h m' (List.mem_cons_of_mem _ hm')

end Handling

/-- The table that the send thread has locked held what the messages handled until then had left
in it; what is still to be looked at completes the clients that have been written to. -/
structure Serving (T : ClientTable) (ms : List MsgObject) (g : ForwardLog) (toIP toName : Bytes)
    (rest : List (Bytes × Option ClientEntity)) (v : Service) : Prop where
  after : v.index < v.handled
  within : v.handled ≤ g.handled
  increasing : ∀ w ∈ g.finished, w.handled ≤ v.handled
  clients : v.clients ++ recipients toIP toName rest
    = recipients toIP toName (handleAll T (ms.take v.handled)).entries

def InHand (s₀ : State) (ms : List MsgObject) (g : ForwardLog) : SendPc → Prop
  | .waiting => g.serving = none
  | .popped r => ∃ i d, g.serving = some ⟨i, 0, []⟩ ∧ ms[i]? = some (.data d) ∧
      Stands s₀ r (.data d)
  | .copied _ toIP toName => ∃ i d, g.serving = some ⟨i, 0, []⟩ ∧ ms[i]? = some (.data d) ∧
      d.toProcessIP = toIP ∧ d.toProcessName = toName
  | .iterating _ toIP toName rest | .releasing _ toIP toName rest =>
    ∃ v d, g.serving = some v ∧ ms[v.index]? = some (.data d) ∧ d.toProcessIP = toIP ∧
      d.toProcessName = toName ∧ Serving s₀.table ms g toIP toName rest v

def Kept (s₀ s : State) : Prop :=
  ∀ p m, (s₀.memory p).map Cell.object = some m → ∃ cell, s.memory p = some cell ∧
    (cell.object = m ∨ cell.object = m.measured)

/-- Two threads that are at work on the messages `ms` since the state `s₀`. -/
structure Arranged (s₀ : State) (ms : List MsgObject) (s : State) (g : ForwardLog) : Prop where
  kept : Kept s₀ s
  within : g.handled ≤ ms.length
  arriving : List.Forall₂ (Stands s₀) (s.loop.inHands ++ s.recvMsgQueue) (ms.drop g.handled)
  table : s.table = handleAll s₀.table (ms.take g.handled)
  queued : List.Forall₂ (fun r i => ∃ d, ms[i]? = some (.data d) ∧ Stands s₀ r (.data d))
    s.sendMsgQueue g.queued
  order : g.finished.map Service.index ++ g.serving.toList.map Service.index ++ g.queued
    = dataPlaces ms g.handled
  inHand : InHand s₀ ms g s.send
  served : ∀ v ∈ g.finished, Served s₀.table ms v
  increasing : g.finished.Pairwise fun v w => v.handled ≤ w.handled
  finished_le : ∀ v ∈ g.finished, v.handled ≤ g.handled

section Scheduling

variable {s₀ s t : State} {ms : List MsgObject} {g : ForwardLog} {r : Reference} {m : MsgObject}

lemma arranged_loaded (h : Loaded s ms) : Arranged s ms s ForwardLog.empty where
  kept p m hp := by
    obtain ⟨cell, hcell, rfl⟩ := Option.map_eq_some_iff.mp hp
    exact ⟨cell, hcell, Or.inl rfl⟩
  within := Nat.zero_le _
  arriving := by
    rw [h.loop]
    exact h.recvMsgQueue
  table := rfl
  queued := by
    rw [h.sendMsgQueue]
    exact List.Forall₂.nil
  order := rfl
  inHand := by
    rw [h.send]
    rfl
  served _ hv := by cases hv
  increasing := List.Pairwise.nil
  finished_le _ hv := by cases hv

structure CalledBack (s t : State) (r : Reference) (m : MsgObject) : Prop where
  table : t.table = handle s.table m
  sendMsgQueue : t.sendMsgQueue = s.sendMsgQueue ++ if callBackOf m = .data then [r] else []
  inHands : t.loop.inHands = []
  recvMsgQueue : t.recvMsgQueue = s.recvMsgQueue
  memory : t.memory = s.memory
  send : t.send = s.send

lemma handle_of_callBackFun {f : CallBack} {m' : MsgObject} (hm : m.Tagged)
    (hobj : m' = m ∨ m' = m.measured) (hf : callBackFun m' = some f) :
    f = callBackOf m' ∧ (callBackOf m = .data ↔ f = .data) ∧ ∀ T, handle T m = handle T m' := by
  obtain rfl := callBackFun_eq hm hobj hf
  rcases hobj with rfl | rfl
  · exact ⟨rfl, Iff.rfl, fun _ => rfl⟩
  · refine ⟨rfl, ?_, fun T => (handle_measured T m).symm⟩
    cases m <;> simp [callBackOf, MsgObject.measured, MsgObject.setHead]

lemma LoopTransition.calledBack (hs : LoopTransition s .callBack t) (hpc : s.loop = .handling r)
    (hk : Kept s₀ s) (hr : Stands s₀ r m) (hm : m.Tagged) : CalledBack s t r m := by
  have hfun : ∀ {r' cell f}, s.loop = .handling r' → s.memory r'.ptr = some cell →
      callBackFun cell.object = some f → r' = r ∧ f = callBackOf cell.object ∧
        (callBackOf m = .data ↔ f = .data) ∧ ∀ T, handle T m = handle T cell.object := by
    intro r' cell f hpc' hcell hf
    cases hpc.symm.trans hpc'
    obtain ⟨cell', hcell', hobj⟩ := hk r.ptr m hr
    cases hcell.symm.trans hcell'
    exact ⟨rfl, handle_of_callBackFun hm hobj hf⟩
  have hrest : ∀ {f : CallBack}, (callBackOf m = .data ↔ f = .data) → f ≠ .data →
      s.sendMsgQueue = s.sendMsgQueue ++ if callBackOf m = .data then [r] else [] := by
    intro f hd hf
    rw [if_neg fun h => hf (hd.mp h), List.append_nil]
  cases hs with
  | @drop r' cell f pc hpc' hcell hf hend =>
    obtain ⟨rfl, hcall, hdata, htab⟩ := hfun hpc' hcell hf
    have hsame : handle s.table cell.object = s.table := by
      cases ho : cell.object <;> rw [ho] at hcall <;>
        rcases hend with ⟨rfl, _⟩ | ⟨rfl, _⟩ <;> first | rfl | cases hcall
    refine ⟨((htab _).trans hsame).symm, hrest hdata ?_, ?_, rfl, rfl, rfl⟩
    · rcases hend with ⟨rfl, _⟩ | ⟨rfl, _⟩ <;> nofun
    · rcases hend with ⟨_, rfl⟩ | ⟨_, rfl⟩ <;> rfl
  | @reg r' m' cell hpc' hcell hf hlock =>
    obtain ⟨rfl, hcall, hdata, htab⟩ := hfun hpc' hcell hf
    have hobj : cell.object = .reg m' := by
      cases ho : cell.object <;> rw [ho] at hcall <;> cases hcall
      rfl
    exact ⟨by rw [htab, hobj, handle], hrest hdata nofun, rfl, rfl, rfl, rfl⟩
  | @deReg r' m' cell hpc' hcell hf hlock =>
    obtain ⟨rfl, hcall, hdata, htab⟩ := hfun hpc' hcell hf
    have hobj : cell.object = .deReg m' := by
      cases ho : cell.object <;> rw [ho] at hcall <;> cases hcall
      rfl
    exact ⟨by rw [htab, hobj, handle], hrest hdata nofun, rfl, rfl, rfl, rfl⟩
  | @data r' cell hpc' hcell hf =>
    obtain ⟨rfl, hcall, hdata, htab⟩ := hfun hpc' hcell hf
    have hobj : ∃ d, cell.object = .data d := by
      cases ho : cell.object <;> rw [ho] at hcall <;> cases hcall
      exact ⟨_, rfl⟩
    obtain ⟨d, hobj⟩ := hobj
    exact ⟨by rw [htab, hobj, handle], by rw [if_pos (hdata.mpr rfl)], rfl, rfl, rfl, rfl⟩

lemma InHand.congr {p : SendPc} {g' : ForwardLog} (h : InHand s₀ ms g p)
    (hs : g'.serving = g.serving) (hf : g'.finished = g.finished) (hh : g.handled ≤ g'.handled) :
    InHand s₀ ms g' p := by
  have hserving : ∀ {toIP toName rest v}, Serving s₀.table ms g toIP toName rest v →
      Serving s₀.table ms g' toIP toName rest v := fun hv =>
    ⟨hv.after, hv.within.trans hh, hf ▸ hv.increasing, hv.clients⟩
  cases p with
  | waiting => exact hs.trans h
  | popped | copied =>
    rw [InHand, hs]
    exact h
  | iterating | releasing =>
    obtain ⟨v, d, hv, hd, hip, hname, hsv⟩ := h
    exact ⟨v, d, hs.trans hv, hd, hip, hname, hserving hsv⟩

lemma Arranged.callBack (h : Arranged s₀ ms s g) (hm : ∀ m ∈ ms, m.Tagged)
    (hs : LoopTransition s .callBack t) :
    Arranged s₀ ms t (ForwardLog.record s (.loop .callBack) t g) := by
  have hpc : ∃ r, s.loop = .handling r := by
    cases hs with
    | drop hpc | reg hpc | deReg hpc | data hpc => exact ⟨_, hpc⟩
  obtain ⟨r, hpc⟩ := hpc
  have harr := h.arriving
  rw [hpc, LoopPc.inHands, List.singleton_append, List.forall₂_cons_left_iff] at harr
  obtain ⟨m, l, hr, hrest, hl⟩ := harr
  have hget : ms[g.handled]? = some m := by
    rw [← Nat.add_zero g.handled, ← List.getElem?_drop, hl]
    rfl
  have hdrop : ms.drop (g.handled + 1) = l := by
    rw [← List.tail_drop, hl]
    rfl
  have hlt : g.handled < ms.length := (List.getElem?_eq_some_iff.mp hget).1
  have hcall := hs.calledBack hpc h.kept hr (hm m (List.mem_of_getElem? hget))
  have hdata : callBackOf m = .data → ∃ d, m = .data d := by
    cases m <;> simp [callBackOf]
  refine ⟨?_, hlt, ?_, ?_, ?_, ?_, ?_, h.served, h.increasing, ?_⟩
  · rw [Kept, hcall.memory]
    exact h.kept
  · rw [hcall.inHands, hcall.recvMsgQueue, List.nil_append]
    exact hdrop ▸ hrest
  · rw [hcall.table, h.table]
    exact (handleAll_take_succ _ hget).symm
  · change List.Forall₂ _ t.sendMsgQueue (g.queued
      ++ (t.sendMsgQueue.drop s.sendMsgQueue.length).map fun _ => g.handled)
    rw [hcall.sendMsgQueue, List.drop_left]
    refine List.rel_append h.queued ?_
    split_ifs with hd
    · obtain ⟨d, rfl⟩ := hdata hd
      exact List.Forall₂.cons ⟨d, hget, hr⟩ List.Forall₂.nil
    · exact List.Forall₂.nil
  · change g.finished.map _ ++ g.serving.toList.map _ ++ (g.queued
      ++ (t.sendMsgQueue.drop s.sendMsgQueue.length).map fun _ => g.handled) = _
    rw [hcall.sendMsgQueue, List.drop_left, ← List.append_assoc, h.order]
    change _ = dataPlaces ms (g.handled + 1)
    rw [dataPlaces_succ, hget]
    by_cases hd : callBackOf m = .data <;> simp [hd]
  · rw [hcall.send]
    exact h.inHand.congr rfl rfl (Nat.le_succ _)
  · exact fun v hv => (h.finished_le v hv).trans (Nat.le_succ _)

lemma Arranged.frame (h : Arranged s₀ ms s g) (hmem : t.memory = s.memory)
    (harr : t.loop.inHands ++ t.recvMsgQueue = s.loop.inHands ++ s.recvMsgQueue)
    (htab : t.table = s.table) (hq : t.sendMsgQueue = s.sendMsgQueue) (hsend : t.send = s.send) :
    Arranged s₀ ms t g where
  kept := by
    rw [Kept, hmem]
    exact h.kept
  within := h.within
  arriving := harr ▸ h.arriving
  table := htab.trans h.table
  queued := hq ▸ h.queued
  order := h.order
  inHand := hsend ▸ h.inHand
  served := h.served
  increasing := h.increasing
  finished_le := h.finished_le

lemma Arranged.loopStep (h : Arranged s₀ ms s g) (hm : ∀ m ∈ ms, m.Tagged) {a : LoopAction}
    (hs : LoopTransition s a t) : Arranged s₀ ms t (ForwardLog.record s (.loop a) t g) := by
  cases a with
  | callBack => exact h.callBack hm hs
  | getMsg =>
    cases hs with
    | getMsg hpc hq =>
      refine h.frame rfl ?_ rfl rfl rfl
      rw [hpc, hq]
      rfl
  | releaseEntity =>
    cases hs with
    | release hpc =>
      refine h.frame rfl ?_ rfl rfl rfl
      rw [hpc]
      rfl

lemma recipients_cons_match {toIP toName k : Bytes} {e : ClientEntity}
    {rest : List (Bytes × Option ClientEntity)} (h : e.Matches toIP toName) :
    recipients toIP toName ((k, some e) :: rest)
      = (k, e.clientFd) :: recipients toIP toName rest := by
  simp [recipients, h]

lemma recipients_cons_skip {toIP toName k : Bytes} {v : Option ClientEntity}
    {rest : List (Bytes × Option ClientEntity)} (h : ∀ e, v = some e → ¬ e.Matches toIP toName) :
    recipients toIP toName ((k, v) :: rest) = recipients toIP toName rest := by
  cases v with
  | none => rfl
  | some e => simp [recipients, h e rfl]

lemma Arranged.proceed (h : Arranged s₀ ms s g) {g' : ForwardLog} (hk : Kept s₀ t)
    (harr : t.loop.inHands ++ t.recvMsgQueue = s.loop.inHands ++ s.recvMsgQueue)
    (htab : t.table = s.table) (hq : t.sendMsgQueue = s.sendMsgQueue)
    (hh : g'.handled = g.handled) (hqueued : g'.queued = g.queued)
    (hf : g'.finished = g.finished)
    (hv : g'.serving.toList.map Service.index = g.serving.toList.map Service.index)
    (hin : InHand s₀ ms g' t.send) : Arranged s₀ ms t g' where
  kept := hk
  within := hh ▸ h.within
  arriving := by
    rw [harr, hh]
    exact h.arriving
  table := by
    rw [htab, hh]
    exact h.table
  queued := by
    rw [hq, hqueued]
    exact h.queued
  order := by
    rw [hf, hv, hqueued, hh]
    exact h.order
  inHand := hin
  served := hf ▸ h.served
  increasing := hf ▸ h.increasing
  finished_le := hf ▸ hh ▸ h.finished_le

lemma Arranged.popMsg (h : Arranged s₀ ms s g) {rs : List Reference} (hpc : s.send = .waiting)
    (hq : s.sendMsgQueue = r :: rs) :
    Arranged s₀ ms { s with sendMsgQueue := rs, send := .popped r }
      (ForwardLog.record s (.send .popMsg) t g) := by
  have hqueued := h.queued
  rw [hq, List.forall₂_cons_left_iff] at hqueued
  obtain ⟨i, is, ⟨d, hd, hr⟩, hrest, his⟩ := hqueued
  have hserving := h.inHand
  rw [hpc, InHand] at hserving
  have horder := h.order
  rw [hserving, his] at horder
  have hrec : ForwardLog.record s (.send .popMsg) t g
      = { g with queued := is, serving := some ⟨i, 0, []⟩ } := by
    rw [ForwardLog.record, his]
    rfl
  rw [hrec]
  refine ⟨h.kept, h.within, h.arriving, h.table, hrest, ?_, ⟨i, d, rfl, hd, hr⟩, h.served,
    h.increasing, h.finished_le⟩
  rw [← horder]
  simp

lemma Arranged.unlock (h : Arranged s₀ ms s g) {toIP toName : Bytes}
    (hpc : s.send = .iterating r toIP toName []) :
    Arranged s₀ ms { s with send := .waiting }
      (ForwardLog.record s (.send .next) { s with send := .waiting } g) := by
  have hin := h.inHand
  rw [hpc] at hin
  obtain ⟨v, d, hv, hd, rfl, rfl, hs⟩ := hin
  have hrec : ForwardLog.record s (.send .next) { s with send := .waiting } g
      = { g with serving := none, finished := g.finished ++ [v] } := by
    rw [ForwardLog.record]
    simp only [hpc, hv, Option.toList_some]
  have hserved : Served s₀.table ms v := by
    refine ⟨hs.after, hs.within.trans h.within, d, hd, ?_⟩
    rw [← hs.clients, recipients, List.filterMap_nil, List.append_nil]
  rw [hrec]
  refine ⟨h.kept, h.within, h.arriving, h.table, h.queued, ?_, rfl, fun w hw => ?_, ?_,
    fun w hw => ?_⟩
  · rw [← h.order, hv]
    simp
  · rcases List.mem_append.mp hw with hw | hw
    · exact h.served w hw
    · exact List.mem_singleton.mp hw ▸ hserved
  · refine List.pairwise_append.mpr ⟨h.increasing, List.pairwise_singleton _ _, fun w hw u hu => ?_⟩
    exact List.mem_singleton.mp hu ▸ hs.increasing w hw
  · rcases List.mem_append.mp hw with hw | hw
    · exact h.finished_le w hw
    · exact List.mem_singleton.mp hw ▸ hs.within

lemma Kept.measure (h : Kept s₀ s) {cell : Cell} (hcell : s.memory r.ptr = some cell)
    (ht : t.memory
      = Function.update s.memory r.ptr (some { cell with object := cell.object.measured })) :
    Kept s₀ t := by
  intro p m hp
  obtain ⟨cell', hcell', hobj⟩ := h p m hp
  rw [ht, Function.update_apply]
  split_ifs with hpr
  · rw [hpr, hcell] at hcell'
    obtain rfl := Option.some.inj hcell'
    refine ⟨_, rfl, Or.inr ?_⟩
    rcases hobj with hobj | hobj
    · exact congrArg MsgObject.measured hobj
    · exact (congrArg MsgObject.measured hobj).trans m.measured_measured
  · exact ⟨cell', hcell', hobj⟩

lemma Arranged.lockTable (h : Arranged s₀ ms s g) {toIP toName : Bytes}
    (hpc : s.send = .copied r toIP toName) :
    Arranged s₀ ms { s with send := .iterating r toIP toName s.table.entries }
      (ForwardLog.record s (.send .lockTable) t g) := by
  have hin := h.inHand
  rw [hpc] at hin
  obtain ⟨i, d, hv, hd, rfl, rfl⟩ := hin
  have hrec : (ForwardLog.record s (.send .lockTable) t g).serving = some ⟨i, g.handled, []⟩ := by
    change g.serving.map _ = _
    rw [hv]
    rfl
  have hmem : i ∈ dataPlaces ms g.handled := by
    rw [← h.order, hv]
    simp
  refine h.proceed h.kept rfl rfl rfl rfl rfl rfl ?_ ⟨_, d, hrec, hd, rfl, rfl, ?_⟩
  · rw [hrec, hv]
    rfl
  · refine ⟨(mem_dataPlaces.mp hmem).1, le_rfl, h.finished_le, ?_⟩
    rw [List.nil_append, h.table]

lemma Arranged.write (h : Arranged s₀ ms s g) {toIP toName k : Bytes} {e : ClientEntity}
    {rest : List (Bytes × Option ClientEntity)}
    (hpc : s.send = .iterating r toIP toName ((k, some e) :: rest)) (hmatch : e.Matches toIP toName)
    (hk : Kept s₀ t) (hloop : t.loop = s.loop) (hrecv : t.recvMsgQueue = s.recvMsgQueue)
    (htab : t.table = s.table) (hq : t.sendMsgQueue = s.sendMsgQueue)
    (ht : t.send = .releasing r toIP toName rest) :
    Arranged s₀ ms t (ForwardLog.record s (.send .next) t g) := by
  have hin := h.inHand
  rw [hpc] at hin
  obtain ⟨v, d, hv, hd, hip, hname, hsv⟩ := hin
  have hrec : ForwardLog.record s (.send .next) t g = { g with serving := g.serving.map fun v =>
      { v with clients := v.clients ++ [(k, e.clientFd)] } } := by
    rw [ForwardLog.record]
    simp only [hpc, ht]
  rw [hrec]
  refine h.proceed hk (by rw [hloop, hrecv]) htab hq rfl rfl rfl ?_ ?_
  · simp only [hv]
    rfl
  · rw [ht]
    refine ⟨{ v with clients := v.clients ++ [(k, e.clientFd)] }, d, ?_, hd, hip, hname, ?_⟩
    · simp only [hv, Option.map_some]
    · refine ⟨hsv.after, hsv.within, hsv.increasing, ?_⟩
      rw [← hsv.clients, recipients_cons_match hmatch, List.append_assoc]
      rfl

lemma Arranged.sendStep (h : Arranged s₀ ms s g) {a : SendAction} (hs : SendTransition s a t) :
    Arranged s₀ ms t (ForwardLog.record s (.send a) t g) := by
  have hin := h.inHand
  cases hs with
  | popMsg hpc hq => exact h.popMsg hpc hq
  | @copyStrings r d' n hpc hcell =>
    rw [hpc] at hin
    obtain ⟨i, d, hv, hd, hr⟩ := hin
    refine h.proceed h.kept rfl rfl rfl rfl rfl rfl rfl ⟨i, d, hv, hd, ?_⟩
    obtain ⟨cell, hcell', hobj⟩ := h.kept r.ptr (.data d) hr
    cases hcell.symm.trans hcell'
    rcases hobj with hobj | hobj <;> cases hobj <;> exact ⟨rfl, rfl⟩
  | lockTable hpc => exact h.lockTable hpc
  | unlock hpc => exact h.unlock hpc
  | @skip r toIP toName k w rest hpc hskip =>
    rw [hpc] at hin
    obtain ⟨v, d, hv, hd, hip, hname, hsv⟩ := hin
    have hrec : ForwardLog.record s (.send .next)
        { s with send := .iterating r toIP toName rest } g = g := by
      rw [ForwardLog.record, hpc]
      cases w <;> rfl
    rw [hrec]
    refine h.proceed h.kept rfl rfl rfl rfl rfl rfl rfl ⟨v, d, hv, hd, hip, hname, ?_⟩
    refine ⟨hsv.after, hsv.within, hsv.increasing, ?_⟩
    rw [← hsv.clients, recipients_cons_skip hskip]
  | write hpc hmatch hcell =>
    exact h.write hpc hmatch (h.kept.measure hcell rfl) rfl rfl rfl rfl rfl
  | @release r toIP toName rest hpc =>
    rw [hpc] at hin
    exact h.proceed h.kept rfl rfl rfl rfl rfl rfl rfl hin

lemma Arranged.step (h : Arranged s₀ ms s g) (hm : ∀ m ∈ ms, m.Tagged) {a : Action}
    (ha : Scheduled s a) (hs : Transition s a t) :
    Arranged s₀ ms t (ForwardLog.record s a t g) := by
  cases hs with
  | epoll => exact ha.elim
  | loop hs => exact h.loopStep hm hs
  | send hs => exact h.sendStep hs

/-- Whatever the schedule, the Data messages are served in the order of arrival, each for what
the messages handled until its turn have left in the table. -/
theorem forwarded_in_turn (h₀ : Loaded s₀ ms)
    (h : Observed step ForwardLog.record Scheduled (s₀, ForwardLog.empty) (s, g)) :
    g.finished.map Service.index ++ g.serving.toList.map Service.index ++ g.queued
        = dataPlaces ms g.handled ∧
      (∀ v ∈ g.finished, Served s₀.table ms v) ∧
        (g.finished.Pairwise fun v w => v.handled ≤ w.handled) ∧
          ∀ v ∈ g.finished, ∀ d, ms[v.index]? = some (.data d) →
            (∀ m ∈ (ms.take v.handled).drop v.index, (callBackOf m).userIPPort = none) →
              v.clients = recipients d.toProcessIP d.toProcessName
                (handleAll s₀.table (ms.take v.index)).entries := by
  have hs : Arranged s₀ ms s g := h.invariant (I := fun x => Arranged s₀ ms x.1 x.2)
    (arranged_loaded h₀) fun _ _ _ _ hi hc ha => hi.step h₀.tagged hc (transition_of_step ha)
  refine ⟨hs.order, hs.served, hs.increasing, fun v hv d hd hquiet => ?_⟩
  obtain ⟨hafter, _, d', hd', hclients⟩ := hs.served v hv
  cases hd.symm.trans hd'
  have htake : (ms.take v.handled).take v.index = ms.take v.index := by
    rw [List.take_take, Nat.min_eq_left hafter.le]
  have hsplit : handleAll s₀.table (ms.take v.handled) = handleAll s₀.table (ms.take v.index) := by
    rw [← List.take_append_drop v.index (ms.take v.handled), handleAll, List.foldl_append, htake]
    exact handleAll_quiet hquiet
  rw [hclients, hsplit]

deriving instance DecidableEq for LoopPc, SendPc

instance (s : State) : (a : Action) → Decidable (Scheduled s a)
  | .epoll _ => isFalse id
  | .loop _ | .send _ => isTrue trivial

def takeNext : List Action := [.loop .getMsg, .loop .callBack]

def serveOne : List Action :=
  [.send .popMsg, .send .copyStrings, .send .lockTable, .send .next, .send .releaseEntity,
    .send .next]

def serveNone : List Action :=
  [.send .popMsg, .send .copyStrings, .send .lockTable, .send .next, .send .next]

def farewell : List Action :=
  register client₀ [53, 48] (by decide) ++
    (sendFrom client₀ 1 (.data ⟨⟨4, 0⟩, [49], [97], []⟩) (by decide)).dropLast ++
    (sendFrom client₀ 2 (.deReg ⟨⟨3, 0⟩, [97], [49], [53, 48]⟩) (by decide)).dropLast

lemma farewell_loaded : ∃ s₀ ms, execute step Free (State.init serializer₀) farewell = some s₀ ∧
    Loaded s₀ ms := by
  have hwait : (execute step Free (State.init serializer₀) farewell).map
      (fun s => (s.loop, s.send, s.sendMsgQueue)) = some (.waiting, .waiting, []) := by
    decide +kernel
  have hqueue : (execute step Free (State.init serializer₀) farewell).map
      (fun s => (s.recvMsgQueue, (s.memory 1).map Cell.object, (s.memory 2).map Cell.object))
        = some ([⟨1, 1⟩, ⟨2, 2⟩], some (.data ⟨⟨4, 38⟩, [49], [97], []⟩),
          some (.deReg ⟨⟨3, 40⟩, [97], [49], [53, 48]⟩)) := by
    decide +kernel
  obtain ⟨s₀, hs₀, hw⟩ := Option.map_eq_some_iff.mp hwait
  rw [hs₀, Option.map_some] at hqueue
  simp only [Prod.mk.injEq, Option.some.injEq] at hw hqueue
  obtain ⟨hrq, hdata, hdeReg⟩ := hqueue
  refine ⟨s₀, [.data ⟨⟨4, 38⟩, [49], [97], []⟩, .deReg ⟨⟨3, 40⟩, [97], [49], [53, 48]⟩], hs₀,
    hw.1, hw.2.1, hw.2.2, ?_, ?_⟩
  · rw [hrq]
    exact .cons hdata (.cons hdeReg .nil)
  · intro m hm
    fin_cases hm <;> rfl

lemma observed_farewell (as : List Action) (vs : List Service)
    (hs : execute step Free (State.init serializer₀) farewell = some s₀)
    (h : ((execute step Free (State.init serializer₀) farewell).bind fun s =>
      (execute (observe step ForwardLog.record) (fun x a => Scheduled x.1 a)
        (s, ForwardLog.empty) as).map fun x => x.2.finished) = some vs) :
    ∃ s g, Observed step ForwardLog.record Scheduled (s₀, ForwardLog.empty) (s, g) ∧
      g.finished = vs := by
  rw [hs] at h
  obtain ⟨⟨s, g⟩, hx, hg⟩ := reaches_of_execute_map h
  exact ⟨s, g, hx, hg⟩

/-- The send thread serves the Data message before the loop thread handles the other, or after. -/
lemma farewell_served : ∃ s₀ ms s g s' g', Reaches step Free (State.init serializer₀) s₀ ∧
    Loaded s₀ ms ∧ Observed step ForwardLog.record Scheduled (s₀, ForwardLog.empty) (s, g) ∧
      Observed step ForwardLog.record Scheduled (s₀, ForwardLog.empty) (s', g') ∧
        g.finished = [⟨0, 1, [(client₀.clientIPPort, 5)]⟩] ∧ g'.finished = [⟨0, 2, []⟩] := by
  obtain ⟨s₀, ms, hs₀, hl⟩ := farewell_loaded
  obtain ⟨s, g, hs, hg⟩ := observed_farewell (takeNext ++ serveOne ++ takeNext)
    [⟨0, 1, [(client₀.clientIPPort, 5)]⟩] hs₀ (by decide +kernel)
  obtain ⟨s', g', hs', hg'⟩ := observed_farewell (takeNext ++ takeNext ++ serveNone)
    [⟨0, 2, []⟩] hs₀ (by decide +kernel)
  exact ⟨s₀, ms, s, g, s', g', reaches_of_execute hs₀, hl, hs, hs', hg, hg'⟩

theorem forwarded_in_turn_early : ∃ s₀ ms g, Loaded s₀ ms ∧
    g.finished = [⟨0, 1, [(client₀.clientIPPort, 5)]⟩] ∧
      ∀ v ∈ ForwardLog.finished g, Served s₀.table ms v := by
  obtain ⟨s₀, ms, s, g, s', g', _, h₀, h, _, hg, _⟩ := farewell_served
  exact ⟨s₀, ms, g, h₀, hg, (forwarded_in_turn h₀ h).2.1⟩

theorem late_service_misses_client : ∃ s₀ ms s g s' g' v v',
    Reaches step Free (State.init serializer₀) s₀ ∧ Loaded s₀ ms ∧
      Observed step ForwardLog.record Scheduled (s₀, ForwardLog.empty) (s, g) ∧
      Observed step ForwardLog.record Scheduled (s₀, ForwardLog.empty) (s', g') ∧
        v ∈ g.finished ∧ v' ∈ g'.finished ∧ v.index = v'.index ∧ v.clients ≠ v'.clients := by
  obtain ⟨s₀, ms, s, g, s', g', h₀, hl, h, h', hg, hg'⟩ := farewell_served
  refine ⟨s₀, ms, s, g, s', g', ⟨0, 1, [(client₀.clientIPPort, 5)]⟩, ⟨0, 2, []⟩, h₀, hl, h, h',
    ?_, ?_, rfl, List.cons_ne_nil _ _⟩
  · rw [hg]
    exact List.mem_singleton.mpr rfl
  · rw [hg']
    exact List.mem_singleton.mpr rfl

end Scheduling

end Xty.Server
