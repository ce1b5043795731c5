import Xty.Map.Refinement
import Xty.Server.Values

/-! The callback table of the message loop, and the class of every message that it is asked for. -/

namespace Xty.Server

open Xty.General.Programs Xty.General.RedBlack Xty.General.Runs
open Xty.Message Xty.RbTree Xty.Map

instance uint32LinearOrder : LinearOrder UInt32 where
  le_refl := UInt32.le_refl
  le_trans _ _ _ := UInt32.le_trans
  le_antisymm _ _ := UInt32.le_antisymm
  le_total := UInt32.le_total
  lt_iff_le_not_ge a b := by
    rw [UInt32.not_le]
    exact ⟨fun h => ⟨UInt32.le_of_lt h, h⟩, And.right⟩
  toDecidableLE := inferInstance
  toDecidableEq := inferInstance
  toDecidableLT := inferInstance

inductive MsgCallBackFun where
  | dullMsgCallBackFun
  | quitMsgCallBackFun
  | regMsgCallBackFun
  | deRegMsgCallBackFun
  | dataMsgCallBackFun
deriving DecidableEq, Repr

abbrev CallBackProgram (α : Type) := MapProgram UInt32 (Option MsgCallBackFun) α

def bindCallBack (t : MsgType) (f : MsgCallBackFun) : CallBackProgram Unit := do
  setValue (← index t.code) (some f)

def initCallBackTable : CallBackProgram Unit := do
  bindCallBack .dullMsg .dullMsgCallBackFun
  bindCallBack .quitMsg .quitMsgCallBackFun
  bindCallBack .regMsg .regMsgCallBackFun
  bindCallBack .deRegMsg .deRegMsgCallBackFun
  bindCallBack .dataMsg .dataMsgCallBackFun

def searchCallBack (msgType : UInt32) : CallBackProgram (Option MsgCallBackFun) := do
  let mapNode ← searchKey msgType
  if mapNode ≠ .null then getValue mapNode else return none

/-- What the function does with the message; a `dynamic_cast` that fails gives a null pointer. -/
def MsgCallBackFun.call : MsgCallBackFun → MsgObject → Option CallBack
  | dullMsgCallBackFun, _ => some .ignore
  | quitMsgCallBackFun, _ => some .quit
  | regMsgCallBackFun, .reg m => some (.reg m)
  | deRegMsgCallBackFun, .deReg m => some (.deReg m)
  | dataMsgCallBackFun, .data _ => some .data
  | regMsgCallBackFun, _ | deRegMsgCallBackFun, _ | dataMsgCallBackFun, _ => none

def dispatch (m : MsgObject) : CallBackProgram (Option CallBack) := do
  match ← searchCallBack m.head.msgType with
  | some g => return g.call m
  | none => return some .ignore

def boundCallBack : MsgType → MsgCallBackFun
  | .dullMsg => .dullMsgCallBackFun
  | .quitMsg => .quitMsgCallBackFun
  | .regMsg => .regMsgCallBackFun
  | .deRegMsg => .deRegMsgCallBackFun
  | .dataMsg => .dataMsgCallBackFun

def bind (f : Binding UInt32 (Option MsgCallBackFun)) (t : MsgType) :
    Binding UInt32 (Option MsgCallBackFun) :=
  Function.update f t.code (some (some (boundCallBack t)))

def callBackTable : Binding UInt32 (Option MsgCallBackFun) :=
  [.dullMsg, .quitMsg, .regMsg, .deRegMsg, .dataMsg].foldl bind fun _ => none

section CallBackTable

variable {t : LinkedTree (MapNode UInt32 (Option MsgCallBackFun))} {c : ColorTree ℕ}
  {f : Binding UInt32 (Option MsgCallBackFun)}

lemma bindCallBack_spec (h : Binds t c f) (m : MsgType) :
    Yields (bindCallBack m (boundCallBack m)) t fun _ t' => ∃ c', Binds t' c' (bind f m) := by
  apply (index_spec h m.code).bind
  rintro p t' ⟨c', h', hp⟩
  apply (setValue_spec h' hp (some (boundCallBack m))).mono
  rintro _ t'' ⟨h'', _⟩
  rw [Function.update_idem] at h''
  exact ⟨c', h''⟩

lemma initCallBackTable_spec :
    Yields initCallBackTable create fun _ t => ∃ c, Binds t c callBackTable := by
  apply (bindCallBack_spec create_binds .dullMsg).bind
  rintro _ t₁ ⟨c₁, h₁⟩
  apply (bindCallBack_spec h₁ .quitMsg).bind
  rintro _ t₂ ⟨c₂, h₂⟩
  apply (bindCallBack_spec h₂ .regMsg).bind
  rintro _ t₃ ⟨c₃, h₃⟩
  apply (bindCallBack_spec h₃ .deRegMsg).bind
  rintro _ t₄ ⟨c₄, h₄⟩
  exact bindCallBack_spec h₄ .dataMsg

lemma searchCallBack_spec (h : Binds t c f) (k : UInt32) :
    Yields (searchCallBack k) t fun g t' => t' = t ∧ g = (f k).join := by
  apply (searchKey_spec h k).bind
  rintro p t' ⟨rfl, ⟨v, hv, hp⟩ | ⟨hn, rfl⟩⟩
  · rw [if_pos hp.ne_null, hv]
    exact Yields.of_eq (getValue_run h hp) ⟨rfl, rfl⟩
  · rw [if_neg fun hne => hne rfl, hn]
    exact Yields.pure ⟨rfl, rfl⟩

lemma callBackTable_code (t : MsgType) : callBackTable t.code = some (some (boundCallBack t)) := by
  cases t <;> rfl

lemma callBackTable_none {k : UInt32} (h : ∀ t : MsgType, k ≠ t.code) : callBackTable k = none := by
  simp [callBackTable, bind, h]

lemma callBackFun_eq_call (m : MsgObject) :
    callBackFun m = match (callBackTable m.head.msgType).join with
      | some g => g.call m
      | none => some .ignore := by
  by_cases h : ∃ t : MsgType, m.head.msgType = t.code
  · obtain ⟨t, ht⟩ := h
    unfold callBackFun
    rw [ht, callBackTable_code]
    cases t <;> cases m <;> rfl
  · rw [not_exists] at h
    rw [callBackTable_none h]
    simp [callBackFun, h]

lemma dispatch_spec (h : Binds t c callBackTable) (m : MsgObject) :
    Yields (dispatch m) t fun r t' => t' = t ∧ r = callBackFun m := by
  apply (searchCallBack_spec h m.head.msgType).bind
  rintro g t' ⟨rfl, rfl⟩
  rw [callBackFun_eq_call]
  cases (callBackTable m.head.msgType).join with
  | none => exact Yields.pure ⟨rfl, rfl⟩
  | some g => exact Yields.pure ⟨rfl, rfl⟩

structure Dispatches (T : LinkedTree (MapNode UInt32 (Option MsgCallBackFun))) (m : MsgObject) :
    Prop where
  found : Yields (searchCallBack m.head.msgType) T fun g t =>
    t = T ∧ g = some (boundCallBack m.type)
  called : Yields (dispatch m) T fun r t => t = T ∧ r = some (callBackOf m)
  step : callBackFun m = some (callBackOf m)

lemma initCallBackTable_dispatches : ∃ T, initCallBackTable create = some ((), T) ∧
    ∀ m : MsgObject, m.Tagged → Dispatches T m := by
  obtain ⟨⟨⟩, T, hT, c, hc⟩ := initCallBackTable_spec
  refine ⟨T, hT, fun m hm => ⟨?_, ?_, callBackFun_tagged hm⟩⟩
  · apply (searchCallBack_spec hc m.head.msgType).mono
    rintro g t ⟨rfl, rfl⟩
    rw [hm, callBackTable_code]
    exact ⟨rfl, rfl⟩
  · rw [← callBackFun_tagged hm]
    exact dispatch_spec hc m

end CallBackTable

def SendPc.carried : SendPc → List Reference
  | .popped r | .copied r _ _ | .iterating r _ _ _ | .releasing r _ _ _ => [r]
  | .waiting => []

structure IsDataFrame (m : MsgObject) : Prop where
  type : m.type = .dataMsg
  tagged : m.Tagged
  fits : m.encodedSize ≤ serializeBufLen

structure Classed (s : State) : Prop where
  remembered : Remembered s
  decoded : ∀ c r m, s.epoll = .deSerialized c r m → s.value r = some m
  received : ∀ r ∈ s.recvMsgQueue ++ s.loop.held, ∃ m, s.value r = some m
  sent : ∀ r ∈ s.sendMsgQueue ++ s.send.carried, ∃ d, s.value r = some (.data d)
  written : ∀ c m, .wrote c m ∈ s.history → IsDataFrame m

section Classes

variable {s t : State} {r : Reference}

lemma classed_init (E : SerializeEntity) : Classed (State.init E) where
  remembered := remembered_init E
  decoded _ _ _ h := by cases h
  received _ h := by cases h
  sent _ h := by cases h
  written _ _ h := by cases h

lemma Classed.frame (h : Classed s) (ht : Remembered t) (ho : s.objects <+: t.objects)
    (hd : ∀ c r m, t.epoll = .deSerialized c r m → t.value r = some m)
    (hr : t.recvMsgQueue ++ t.loop.held ⊆ s.recvMsgQueue ++ s.loop.held)
    (hs : t.sendMsgQueue ++ t.send.carried ⊆ s.sendMsgQueue ++ s.send.carried)
    (hw : ∀ c m, .wrote c m ∈ t.history → .wrote c m ∈ s.history) : Classed t where
  remembered := ht
  decoded := hd
  received r hm := by
    obtain ⟨m, hv⟩ := h.received r (hr hm)
    exact ⟨m, value_mono ho hv⟩
  sent r hm := by
    obtain ⟨d, hv⟩ := h.sent r (hs hm)
    exact ⟨d, value_mono ho hv⟩
  written c m hm := h.written c m (hw c m hm)

lemma Classed.epollStep (h : Classed s) {a : EpollAction} (hs : EpollTransition s a t) :
    Classed t := by
  have ht := h.remembered.step (.epoll hs)
  have ho := (Transition.epoll hs).objects_grow
  cases hs with
  | findNone => exact h
  | refuse =>
    exact h.frame ht ho h.decoded (List.Subset.refl _) (List.Subset.refl _) (by simp)
  | accept | addClient | find | wouldBlock | eof | removeClient | read | acquireEntity | raise =>
    refine h.frame ht ho (fun _ _ _ hb => by cases hb) (List.Subset.refl _) (List.Subset.refl _) ?_
    simp [State.make]
  | deSerialize =>
    refine h.frame ht ho ?_ (List.Subset.refl _) (List.Subset.refl _) (fun _ _ => id)
    rintro _ _ _ ⟨⟩
    exact List.getElem?_concat_length
  | @pushMsg c r m hpc =>
    refine ⟨ht, fun _ _ _ hb => (by cases hb), fun r' hr' => ?_, h.sent, fun c m hm => ?_⟩
    · rw [List.append_assoc] at hr'
      rcases List.mem_append.mp hr' with hr' | hr'
      · exact h.received r' (List.mem_append_left _ hr')
      rcases List.mem_append.mp hr' with hr' | hr'
      · exact ⟨m, List.mem_singleton.mp hr' ▸ h.decoded c r m hpc⟩
      · exact h.received r' (List.mem_append_right _ hr')
    · exact h.written c m (by simpa using hm)

lemma Classed.loopStep (h : Classed s) {a : LoopAction} (hv : ByValue s (.loop a))
    (hs : LoopTransition s a t) : Classed t := by
  have ht := h.remembered.step (.loop hs)
  cases hs with
  | getMsg hpc hq =>
    refine h.frame ht List.prefix_rfl h.decoded ?_ (List.Subset.refl _) (fun _ _ => id)
    rw [hpc, hq]
    simp [LoopPc.held]
  | drop hpc _ _ hend =>
    refine h.frame ht List.prefix_rfl h.decoded ?_ (List.Subset.refl _) (fun _ _ => id)
    obtain ⟨_, rfl⟩ | ⟨_, rfl⟩ := hend <;> simp [LoopPc.held]
  | reg hpc | deReg hpc =>
    refine h.frame ht List.prefix_rfl h.decoded ?_ (List.Subset.refl _) (by simp)
    rw [hpc]
    exact List.Subset.refl _
  | @data r cell hpc hcell hfun =>
    obtain ⟨m, hm, hf⟩ := h.remembered.callBack hv hpc hcell hfun
    obtain ⟨d, rfl⟩ : ∃ d, m = .data d := by
      rcases hf with hf | hf <;> cases m <;> cases hf <;> exact ⟨_, rfl⟩
    refine ⟨ht, h.decoded, fun r' hr' => h.received r' ?_, fun r' hr' => ?_, h.written⟩
    · simp only [LoopPc.held, List.append_nil] at hr'
      exact List.mem_append_left _ hr'
    · rw [List.append_assoc] at hr'
      rcases List.mem_append.mp hr' with hr' | hr'
      · exact h.sent r' (List.mem_append_left _ hr')
      rcases List.mem_append.mp hr' with hr' | hr'
      · exact ⟨d, List.mem_singleton.mp hr' ▸ hm⟩
      · exact h.sent r' (List.mem_append_right _ hr')
  | release =>
    refine h.frame ht List.prefix_rfl h.decoded ?_ (List.Subset.refl _) (fun _ _ => id)
    simp [LoopPc.held]

lemma Classed.read (h : Classed s) (hr : r ∈ s.send.carried) (hden : Denotes s r) {cell : Cell}
    (hcell : s.memory r.ptr = some cell) :
    cell.object.type = .dataMsg ∧ cell.object.Tagged ∧
      cell.object.encodedSize ≤ serializeBufLen := by
  obtain ⟨d, hd⟩ := h.sent r (List.mem_append_right _ hr)
  obtain ⟨m, hm, hobj⟩ := h.remembered.read hden hcell
  obtain rfl := Option.some.inj (hd.symm.trans hm)
  obtain ⟨htag, hfits, _⟩ := h.remembered.cell_object hcell
  refine ⟨?_, htag, hfits⟩
  rcases hobj with hobj | hobj <;> rw [hobj]
  · rfl
  · exact MsgObject.measured_type _

lemma Classed.sendStep (h : Classed s) {a : SendAction} (hv : ByValue s (.send a))
    (hs : SendTransition s a t) : Classed t := by
  have ht := h.remembered.step (.send hs)
  cases hs with
  | popMsg hpc hq =>
    refine h.frame ht List.prefix_rfl h.decoded (List.Subset.refl _) ?_ (fun _ _ => id)
    rw [hpc, hq]
    simp [SendPc.carried]
  | copyStrings hpc | lockTable hpc | skip hpc | release hpc =>
    refine h.frame ht List.prefix_rfl h.decoded (List.Subset.refl _) ?_ (fun _ _ => id)
    rw [hpc]
    exact List.Subset.refl _
  | unlock =>
    refine h.frame ht List.prefix_rfl h.decoded (List.Subset.refl _) ?_ (fun _ _ => id)
    simp [SendPc.carried]
  | @write r toIP toName k e rest cell hpc hmatch hcell =>
    have hheld : r ∈ s.send.held := by
      simp [hpc, SendPc.held, matching_cons_match hmatch]
    have hcar : r ∈ s.send.carried := by
      simp [hpc, SendPc.carried]
    obtain ⟨hdata, htag, hfits⟩ := h.read hcar (hv r hheld) hcell
    refine ⟨ht, h.decoded, h.received, fun r' hr' => h.sent r' (by rw [hpc]; exact hr'), ?_⟩
    intro c m hm
    rcases List.mem_cons.mp hm with hm | hm
    · obtain ⟨_, rfl⟩ := Event.wrote.inj hm
      refine ⟨?_, htag.measured, ?_⟩
      · rw [MsgObject.measured_type, hdata]
      · rw [MsgObject.encodedSize, MsgObject.measured_strings]
        exact hfits
    · exact h.written c m hm

lemma Classed.step (h : Classed s) {a : Action} (hv : ByValue s a) (hs : Transition s a t) :
    Classed t := by
  cases hs with
  | epoll hs => exact h.epollStep hs
  | loop hs => exact h.loopStep hv hs
  | send hs => exact h.sendStep hv hs

lemma reaches_classed {E : SerializeEntity} (h : Reaches step ByValue (State.init E) s) :
    Classed s :=
  h.invariant (classed_init E) fun _ _ _ hs hv ha => hs.step hv (transition_of_step ha)

end Classes

end Xty.Server
