import Xty.General.Measures
import Xty.Server.Dispatch
import Xty.Server.MessageLoop
import Xty.Server.Schedules
import Xty.Server.SendPass

/-! The loop thread and the send thread finish what they have, when the epoll thread brings nothing
new. -/

namespace Xty.Server

open Xty.General.Runs Xty.General.SortedTable Xty.General.LittleEndian
open Xty.Message

structure AtRest (s : State) : Prop where
  send : s.send = .waiting
  sendMsgQueue : s.sendMsgQueue = []
  loop : s.loop = .exited ∨ s.loop = .waiting ∧ s.recvMsgQueue = []

/-- The threads can go on: what they hold is there, and of the right class. -/
structure Ready (s : State) : Prop where
  classed : Classed s
  valued : ∀ r ∈ s.held, ∃ cell, s.memory r.ptr = some cell ∧ cell.serial = r.serial
  serializer : s.serializer.isOccupied = s.send.serializes

/-- A `Reg` or a `DeReg` may add an entry to the table. -/
def State.breadth (s : State) : ℕ :=
  s.table.entries.length + s.recvMsgQueue.length + s.loop.inHands.length

def State.passLength (s : State) : ℕ := 2 * s.breadth + 5

def LoopPc.work (w : ℕ) : LoopPc → ℕ
  | .handling _ => w + 1
  | .releasing _ => 1
  | .waiting | .exited => 0

def SendPc.work (w : ℕ) : SendPc → ℕ
  | .waiting => 0
  | .popped _ => w - 1
  | .copied .. => w - 2
  | .iterating _ _ _ rest => 2 * rest.length + 1
  | .releasing _ _ _ rest => 2 * rest.length + 2

def State.workOf (s : State) (w : ℕ) : ℕ :=
  s.recvMsgQueue.length * (w + 2) + s.loop.work w + s.sendMsgQueue.length * w + s.send.work w

def State.work (s : State) : ℕ := s.workOf s.passLength

section Work

variable {s t : State} {w v : ℕ}

lemma LoopPc.work_mono (pc : LoopPc) (h : v ≤ w) : pc.work v ≤ pc.work w := by
  cases pc with
  | handling => exact Nat.add_le_add_right h 1
  | releasing | waiting | exited => exact le_rfl

lemma SendPc.work_mono (pc : SendPc) (h : v ≤ w) : pc.work v ≤ pc.work w := by
  cases pc with
  | popped | copied => exact Nat.sub_le_sub_right h _
  | waiting | iterating | releasing => exact le_rfl

lemma State.workOf_mono (s : State) (h : v ≤ w) : s.workOf v ≤ s.workOf w := by
  apply Nat.add_le_add
  · apply Nat.add_le_add
    · apply Nat.add_le_add
      · exact Nat.mul_le_mul_left _ (Nat.add_le_add_right h 2)
      · exact s.loop.work_mono h
    · exact Nat.mul_le_mul_left _ h
  · exact s.send.work_mono h

lemma length_writeClient (T : ClientTable) (k : Bytes) (f : ClientEntity → ClientEntity) :
    (T.writeClient k f).entries.length ≤ T.entries.length + 1 := by
  have hsub : (T.writeClient k f).keys ⊆ k :: T.keys := by
    intro k' hk'
    rw [Table.mem_keys, ClientTable.lookup_writeClient, Function.update_apply] at hk'
    rw [List.mem_cons, Table.mem_keys]
    split_ifs at hk' with he
    · exact .inl he
    · exact .inr hk'
  have hle := ((Table.keys_nodup _).subperm hsub).length_le
  rwa [Table.length_keys, List.length_cons, Table.length_keys] at hle

lemma workOf_lt (hb : t.breadth ≤ s.breadth) (h : t.workOf s.passLength < s.workOf s.passLength) :
    t.work < s.work := by
  apply (t.workOf_mono _).trans_lt h
  rw [State.passLength, State.passLength]
  omega

lemma handled_work {r : Reference} {T : ClientTable} {es : List Event}
    (hpc : s.loop = .handling r) (hT : T.entries.length ≤ s.table.entries.length + 1) :
    State.work { s with table := T, loop := .releasing r, history := es } < s.work := by
  apply workOf_lt
  · simp only [State.breadth, hpc, LoopPc.inHands, List.length_singleton, List.length_nil]
    omega
  · simp only [State.workOf, State.passLength, hpc, LoopPc.work]
    omega

lemma loopStep_work {a : LoopAction} (hs : LoopTransition s a t) : t.work < s.work := by
  cases hs with
  | getMsg hpc hq =>
    apply workOf_lt
    · simp [State.breadth, hpc, hq, LoopPc.inHands]
    · simp only [State.workOf, hpc, hq, LoopPc.work, List.length_cons, Nat.succ_mul]
      omega
  | drop hpc _ _ hend =>
    obtain ⟨_, rfl⟩ | ⟨_, rfl⟩ := hend <;>
    · apply workOf_lt
      · simp [State.breadth, hpc, LoopPc.inHands]
      · simp only [State.workOf, hpc, LoopPc.work]
        omega
  | reg hpc => exact handled_work hpc (length_writeClient _ _ _)
  | deReg hpc => exact handled_work hpc (length_writeClient _ _ _)
  | data hpc =>
    apply workOf_lt
    · simp [State.breadth, hpc, LoopPc.inHands]
    · simp only [State.workOf, hpc, LoopPc.work, List.length_append, List.length_singleton,
        Nat.add_mul, Nat.one_mul]
      omega
  | release hpc =>
    apply workOf_lt
    · simp [State.breadth, hpc, LoopPc.inHands]
    · simp only [State.workOf, hpc, LoopPc.work]
      omega

lemma sendStep_work {a : SendAction} (hs : SendTransition s a t) : t.work < s.work := by
  have hb : t.breadth = s.breadth := by
    cases hs <;> rfl
  apply workOf_lt hb.le
  cases hs with
  | popMsg hpc hq =>
    simp only [State.workOf, State.passLength, hpc, hq, SendPc.work, List.length_cons,
      Nat.succ_mul]
    omega
  | copyStrings hpc | unlock hpc | skip hpc | write hpc | release hpc =>
    simp only [State.workOf, State.passLength, hpc, SendPc.work, List.length_cons, List.length_nil]
    omega
  | lockTable hpc =>
    simp only [State.workOf, State.passLength, State.breadth, hpc, SendPc.work]
    omega

lemma scheduled_work {a : Action} (ha : Scheduled s a) (hs : Transition s a t) :
    t.work < s.work := by
  cases hs with
  | epoll => exact ha.elim
  | loop hs => exact loopStep_work hs
  | send hs => exact sendStep_work hs

end Work

section Readiness

variable {s t : State}

lemma SendPc.mem_held {r r' : Reference} {toIP toName : Bytes}
    {rest : List (Bytes × Option ClientEntity)}
    (h : r' ∈ (SendPc.iterating r toIP toName rest).held) : r' ∈ [r] := by
  rw [SendPc.held] at h
  split_ifs at h
  · cases h
  · exact h

lemma scheduled_memory {a : Action} (ha : Scheduled s a) (hs : Transition s a t) (p : ℕ) :
    (t.memory p).map Cell.serial = (s.memory p).map Cell.serial := by
  cases hs with
  | epoll => exact ha.elim
  | loop hs => cases hs <;> rfl
  | send hs =>
    cases hs with
    | @write r _ _ _ _ _ cell _ _ hcell =>
      change (Function.update s.memory r.ptr _ p).map Cell.serial = _
      rw [Function.update_apply]
      split_ifs with hp
      · rw [hp, hcell]
        rfl
      · rfl
    | popMsg | copyStrings | lockTable | unlock | skip | release => rfl

lemma scheduled_held {a : Action} (ha : Scheduled s a) (hs : Transition s a t) :
    t.held ⊆ s.held := by
  intro r hr
  simp only [State.held, List.mem_append] at hr ⊢
  cases hs with
  | epoll => exact ha.elim
  | loop hs =>
    cases hs with
    | getMsg hpc hq =>
      simp only [hpc, hq, LoopPc.held, List.mem_cons, List.not_mem_nil] at hr ⊢
      tauto
    | drop hpc _ _ hend =>
      obtain ⟨_, rfl⟩ | ⟨_, rfl⟩ := hend <;>
      · simp only [LoopPc.held, List.not_mem_nil] at hr
        tauto
    | reg hpc | deReg hpc | data hpc | release hpc =>
      simp only [hpc, LoopPc.held, List.mem_append, List.mem_singleton, List.not_mem_nil] at hr ⊢
      tauto
  | send hs =>
    cases hs with
    | popMsg hpc hq =>
      simp only [hpc, hq, SendPc.held, List.mem_cons, List.not_mem_nil] at hr ⊢
      tauto
    | copyStrings hpc =>
      rw [hpc]
      exact hr
    | lockTable hpc =>
      rw [hpc]
      exact hr.imp_right SendPc.mem_held
    | unlock =>
      simp only [SendPc.held, List.not_mem_nil] at hr
      tauto
    | skip hpc hskip =>
      rw [hpc, SendPc.held, matching_cons_skip hskip]
      exact hr
    | write hpc hmatch =>
      rw [hpc, SendPc.held, matching_cons_match hmatch]
      exact hr
    | release hpc =>
      rw [hpc]
      exact hr.imp_right SendPc.mem_held

lemma Ready.denotes (h : Ready s) {r : Reference} (hr : r ∈ s.held) : Denotes s r := by
  intro cell hcell
  obtain ⟨cell', hcell', hserial⟩ := h.valued r hr
  obtain rfl := Option.some.inj (hcell'.symm.trans hcell)
  exact hserial

lemma Ready.byValue (h : Ready s) (a : Action) : ByValue s a := by
  have hloop : ∀ r ∈ s.loop.held, Denotes s r := fun r hr => h.denotes (by simp [State.held, hr])
  have hsend : ∀ r ∈ s.send.held, Denotes s r := fun r hr => h.denotes (by simp [State.held, hr])
  cases a with
  | epoll => trivial
  | loop a =>
    cases a with
    | callBack => exact hloop
    | getMsg | releaseEntity => trivial
  | send a =>
    cases a with
    | copyStrings | next => exact hsend
    | popMsg | lockTable | releaseEntity => trivial

lemma Ready.step (h : Ready s) {a : Action} (ha : Scheduled s a) (hs : Transition s a t) :
    Ready t where
  classed := h.classed.step (h.byValue a) hs
  valued r hr := by
    obtain ⟨cell, hcell, hserial⟩ := h.valued r (scheduled_held ha hs hr)
    have hm := scheduled_memory ha hs r.ptr
    rw [hcell] at hm
    obtain ⟨cell', hcell', he⟩ := Option.map_eq_some_iff.mp hm
    exact ⟨cell', hcell', he.trans hserial⟩
  serializer := serializer_step hs h.serializer

lemma Ready.popped (h : Ready s) {r : Reference} (hpc : s.send = .popped r) :
    ∃ n d, s.memory r.ptr = some ⟨n, .data d⟩ := by
  have hr : r ∈ s.held := by simp [State.held, hpc, SendPc.held]
  obtain ⟨cell, hcell, _⟩ := h.valued r hr
  obtain ⟨htype, _⟩ := h.classed.read (by simp [hpc, SendPc.carried]) (h.denotes hr) hcell
  obtain ⟨n, m⟩ := cell
  cases m <;> cases htype
  exact ⟨n, _, hcell⟩

lemma Ready.matched (h : Ready s) {r : Reference} {toIP toName k : Bytes} {e : ClientEntity}
    {rest : List (Bytes × Option ClientEntity)}
    (hpc : s.send = .iterating r toIP toName ((k, some e) :: rest))
    (hmatch : e.Matches toIP toName) :
    ∃ cell, s.memory r.ptr = some cell ∧ s.serializer.isOccupied = false ∧
      cell.object.encodedSize ≤ serializeBufLen := by
  have hr : r ∈ s.held := by
    simp [State.held, hpc, SendPc.held, matching_cons_match hmatch]
  obtain ⟨cell, hcell, _⟩ := h.valued r hr
  obtain ⟨_, _, hfits⟩ :=
    h.classed.read (by simp [hpc, SendPc.carried]) (h.denotes hr) hcell
  refine ⟨cell, hcell, ?_, hfits⟩
  rw [h.serializer, hpc]
  rfl

lemma Ready.send_progress (h : Ready s) :
    (s.send = .waiting ∧ s.sendMsgQueue = []) ∨ ∃ a t, Server.step s (.send a) = some t := by
  cases hpc : s.send with
  | waiting =>
    cases hq : s.sendMsgQueue with
    | nil => exact .inl ⟨rfl, rfl⟩
    | cons r rs => exact .inr ⟨.popMsg, _, by rw [Server.step, sendStep, hpc, hq]⟩
  | popped r =>
    obtain ⟨n, d, hcell⟩ := h.popped hpc
    exact .inr ⟨.copyStrings, _, by simp only [Server.step, sendStep, hpc, hcell]; rfl⟩
  | copied => exact .inr ⟨.lockTable, _, by rw [Server.step, sendStep, hpc]⟩
  | releasing => exact .inr ⟨.releaseEntity, _, by rw [Server.step, sendStep, hpc]⟩
  | iterating r toIP toName rest =>
    refine .inr ⟨.next, ?_⟩
    cases rest with
    | nil => exact ⟨_, by rw [Server.step, sendStep, hpc]⟩
    | cons kv rest =>
      obtain ⟨k, v⟩ := kv
      cases v with
      | none => exact ⟨_, by rw [Server.step, sendStep, hpc]⟩
      | some e =>
        by_cases hmatch : e.Matches toIP toName
        · obtain ⟨cell, hcell, hfree, hfits⟩ := h.matched hpc hmatch
          exact ⟨_, next_match hpc hmatch hcell hfree hfits⟩
        · exact ⟨_, by rw [Server.step, sendStep, hpc]; exact if_neg hmatch⟩

lemma Ready.progress (h : Ready s) :
    AtRest s ∨ ∃ a t, Scheduled s a ∧ Server.step s a = some t := by
  rcases h.send_progress with ⟨hsend, hq⟩ | ⟨a, t, ha⟩
  · have hlock : s.send.locksTable = false := by
      rw [hsend]
      rfl
    cases hpc : s.loop with
    | exited => exact .inl ⟨hsend, hq, .inl hpc⟩
    | waiting =>
      cases hrecv : s.recvMsgQueue with
      | nil => exact .inl ⟨hsend, hq, .inr ⟨hpc, hrecv⟩⟩
      | cons r rs =>
        exact .inr ⟨.loop .getMsg, _, trivial, by rw [Server.step, loopStep, hpc, hrecv]⟩
    | handling r =>
      obtain ⟨cell, hcell, _⟩ := h.valued r (by simp [State.held, hpc, LoopPc.held])
      obtain ⟨t, ht⟩ := callBack_enabled h.classed.remembered hpc hcell hlock
      exact .inr ⟨.loop .callBack, t, trivial, ht⟩
    | releasing r =>
      exact .inr ⟨.loop .releaseEntity, _, trivial, by rw [Server.step, loopStep, hpc]⟩
  · exact .inr ⟨.send a, t, trivial, ha⟩

lemma ready_decreasing : Decreasing Server.step Scheduled Ready State.work := by
  intro s a t h ha hs
  have hs := transition_of_step hs
  exact ⟨h.step ha hs, scheduled_work ha hs⟩

lemma ready_progressing : Progressing Server.step Scheduled Ready AtRest :=
  fun _ h => h.progress

lemma Owned.ready (h : Owned s) (hc : Classed s)
    (hser : s.serializer.isOccupied = s.send.serializes) : Ready s :=
  ⟨hc, fun r hr => (h.intact r hr).1, hser⟩

lemma ready_of_reaches {E : SerializeEntity} (h : Reaches step GivesBackLast (State.init E) s) :
    Ready s := by
  have hall : Owned s ∧ Classed s ∧ s.serializer.isOccupied = s.send.serializes := by
    refine h.invariant (I := fun s => Owned s ∧ Classed s ∧
      s.serializer.isOccupied = s.send.serializes) ⟨owned_init E, classed_init E, rfl⟩ ?_
    rintro s a t ⟨ho, hcl, hser⟩ hc ha
    have hs := transition_of_step ha
    exact ⟨ho.step hc hs, hcl.step (ho.byValue a) hs, serializer_step hs hser⟩
  exact hall.1.ready hall.2.1 hall.2.2

lemma AtRest.stays (h : AtRest s) {a : Action} (ha : Scheduled s a) : step s a = none := by
  obtain ⟨hsend, hq, hloop⟩ := h
  cases a with
  | epoll => exact ha.elim
  | loop a =>
    rcases hloop with hloop | ⟨hloop, hrecv⟩
    · cases a <;> simp [step, loopStep, hloop]
    · cases a <;> simp [step, loopStep, hloop, hrecv]
  | send a => cases a <;> simp [step, sendStep, hsend, hq]

lemma AtRest.unlocked (h : AtRest s) : s.send.locksTable = false := by
  rw [h.send]
  rfl

lemma scheduled_epoll {a : Action} (ha : Scheduled s a) (hs : Transition s a t) :
    t.epoll = s.epoll := by
  cases hs with
  | epoll => exact ha.elim
  | loop hs => cases hs <;> rfl
  | send hs => cases hs <;> rfl

lemma AtRest.held (h : AtRest s) (hloop : s.loop = .waiting) : s.held = s.epoll.held := by
  have hrecv : s.recvMsgQueue = [] := by
    rcases h.loop with hexit | ⟨_, hrecv⟩
    · cases hexit.symm.trans hloop
    · exact hrecv
  simp [State.held, h.send, h.sendMsgQueue, hrecv, hloop, LoopPc.held, SendPc.held]

end Readiness

section Result

variable {s : State}

/-- While the epoll thread brings nothing, the two other threads can only make so many steps, in
whatever order, and they cannot stand still before everything that they had has been used for the
last time. Only a `Quit` leaves messages behind. -/
theorem server_comes_to_rest {E : SerializeEntity}
    (h : Reaches step GivesBackLast (State.init E) s) :
    (∀ as t, execute step Scheduled s as = some t → as.length ≤ s.work) ∧
    (∃ t, Reaches step Scheduled s t ∧ AtRest t) ∧
    ∀ t, Reaches step Scheduled s t →
      (AtRest t ↔ ∀ a, Scheduled t a → step t a = none) ∧
      (AtRest t → t.loop = .exited ∨ t.held = s.epoll.held) := by
  have hready := ready_of_reaches h
  refine ⟨fun as t ht => ?_, ready_decreasing.ends ready_progressing hready, fun t ht => ?_⟩
  · exact (Nat.le_add_right _ _).trans (ready_decreasing.length_le hready ht)
  · have hinv : Ready t ∧ t.epoll = s.epoll := by
      refine ht.invariant (I := fun t => Ready t ∧ t.epoll = s.epoll) ⟨hready, rfl⟩ ?_
      rintro u a v ⟨hu, he⟩ ha hs
      have hs := transition_of_step hs
      exact ⟨hu.step ha hs, (scheduled_epoll ha hs).trans he⟩
    refine ⟨⟨fun hrest a ha => hrest.stays ha, fun hstuck => ?_⟩, fun hrest => ?_⟩
    · rcases hinv.1.progress with hrest | ⟨a, u, ha, hu⟩
      · exact hrest
      · rw [hstuck a ha] at hu
        cases hu
    · rcases hrest.loop with hexit | ⟨hloop, _⟩
      · exact .inl hexit
      · exact .inr ((hrest.held hloop).trans (congrArg EpollPc.held hinv.2))

theorem server_comes_to_rest_farewell : ∃ s, Reaches step GivesBackLast (State.init serializer₀) s ∧
    s.recvMsgQueue.length = 2 ∧ (∃ t, Reaches step Scheduled s t ∧ AtRest t) ∧
      ∀ as t, execute step Scheduled s as = some t → as.length ≤ 26 := by
  have h : (execute step GivesBackLast (State.init serializer₀) farewell).map
      (fun s => (s.recvMsgQueue.length, s.work)) = some (2, 26) := by
    decide +kernel
  obtain ⟨s, hs, hobs⟩ := reaches_of_execute_map h
  obtain ⟨hlen, hwork⟩ := Prod.mk.inj hobs
  obtain ⟨hbound, hends, _⟩ := server_comes_to_rest hs
  exact ⟨s, hs, hlen, hends, fun as t ht => hwork ▸ hbound as t ht⟩

end Result

end Xty.Server
