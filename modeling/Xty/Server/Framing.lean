import Xty.Server.Transitions

/-! The messages that the epoll thread pushes, against the byte stream of a connection. -/

namespace Xty.Server

open Xty.General.Runs Xty.General.LittleEndian Xty.General.Cursor
open Xty.Message

def received (c : Connection) : List Event → Bytes
  | [] => []
  | .connected d :: es => if d = c then [] else received c es
  | .received d bs :: es => if d = c then received c es ++ bs else received c es
  | _ :: es => received c es

def pushedFrom (c : Connection) : List Event → List MsgObject
  | [] => []
  | .connected d :: es => if d = c then [] else pushedFrom c es
  | .pushed d m :: es => if d = c then pushedFrom c es ++ [m] else pushedFrom c es
  | _ :: es => pushedFrom c es

def Encodable (m : MsgObject) : Prop := m.Tagged ∧ m.encodedSize ≤ serializeBufLen

def stream (ms : List MsgObject) : Bytes := ms.flatMap MsgObject.encoding

/-- The messages whose encodings lie in the first `n` bytes of the stream, as `Serialize` leaves
them. -/
def completed : List MsgObject → ℕ → List MsgObject
  | [], _ => []
  | m :: ms, n =>
    if m.encodedSize ≤ n then m.measured :: completed ms (n - m.encodedSize) else []

def EpollPc.Idle (c : Connection) : EpollPc → Prop
  | .received d _ _ | .acquired d _ _ _ | .deSerialized d _ _ => d ≠ c
  | _ => True

/-- Whatever the client has written, what is pushed is what has been read completely. -/
def InStep (c : Connection) (s : State) : Prop :=
  ∀ ms, (∀ m ∈ ms, Encodable m) → received c s.history <+: stream ms →
    pushedFrom c s.history <+: completed ms (received c s.history).length ∧
      (s.epoll.Idle c →
        pushedFrom c s.history = completed ms (received c s.history).length)

def WholeReads (c : Connection) (_ : State) : Action → Prop
  | .epoll (.read d r) => d = c → ∃ m, Encodable m ∧ r.bytes = m.encoding
  | _ => True

section Streams

lemma completed_zero (ms : List MsgObject) : completed ms 0 = [] := by
  cases ms with
  | nil => rfl
  | cons m ms =>
    have hpos : 0 < m.encodedSize := by
      rw [MsgObject.encodedSize, serializedSize, sizeofMsgType]
      omega
    rw [completed, if_neg (by omega)]

lemma completed_stream {ms ns : List MsgObject} (hms : ∀ m ∈ ms, Encodable m)
    (hns : ∀ n ∈ ns, Encodable n) (h : stream ns <+: stream ms) :
    completed ms (stream ns).length = ns.map MsgObject.measured := by
  induction ns generalizing ms with
  | nil => exact completed_zero ms
  | cons n ns ih =>
    obtain ⟨hn, hnf⟩ := hns n List.mem_cons_self
    obtain ⟨t, ht⟩ := h
    rw [stream, List.flatMap_cons, List.append_assoc] at ht
    cases ms with
    | nil =>
      have hlen := congrArg List.length ht
      rw [List.length_append, n.encoding_length, MsgObject.encodedSize, serializedSize,
        sizeofMsgType] at hlen
      simp only [stream, List.flatMap_nil, List.length_nil] at hlen
      omega
    | cons m ms =>
      obtain ⟨hm, hmf⟩ := hms m List.mem_cons_self
      rw [stream, List.flatMap_cons] at ht
      have hmeas := MsgObject.measured_of_append hn hm hnf hmf ht
      obtain ⟨_, hstr, hrest⟩ := MsgObject.encoding_append_inj hn hm hnf hmf ht
      have hsize : m.encodedSize = n.encodedSize := by
        rw [MsgObject.encodedSize, MsgObject.encodedSize, hstr]
      have hlen : (stream (n :: ns)).length = n.encodedSize + (stream ns).length := by
        rw [stream, List.flatMap_cons, List.length_append, n.encoding_length]
        rfl
      rw [completed, hlen, if_pos (by omega), hsize, Nat.add_sub_cancel_left, List.map_cons, hmeas]
      exact congrArg _ (ih (fun m' h' => hms m' (List.mem_cons_of_mem _ h'))
        (fun n' h' => hns n' (List.mem_cons_of_mem _ h')) ⟨t, hrest⟩)

end Streams

def decodedRead (b : RecvBuffer) (r : ReadBytes) : Option MsgObject :=
  match DeSerializeEntity.deSerialize (b.region r) with
  | .ok (m, _) => some m
  | .error _ => none

def EpollPc.inHand (c : Connection) : EpollPc → List MsgObject
  | .received d b r | .acquired d b r _ => if d = c then (decodedRead b r).toList else []
  | .deSerialized d _ m => if d = c then [m] else []
  | _ => []

lemma EpollPc.inHand_idle {c : Connection} {pc : EpollPc} (h : pc.Idle c) : pc.inHand c = [] := by
  cases pc <;> first | rfl | exact if_neg h

/-- What has been read is the stream of some messages, and these are pushed or in hand. -/
def Framed (c : Connection) (s : State) : Prop :=
  ∃ ns, (∀ n ∈ ns, Encodable n) ∧ received c s.history = stream ns ∧
    pushedFrom c s.history ++ s.epoll.inHand c = ns.map MsgObject.measured

section Framing

variable {c : Connection} {s t : State}

lemma Framed.inStep (h : Framed c s) : InStep c s := by
  intro ms hms hread
  obtain ⟨ns, hns, hrec, hpush⟩ := h
  rw [hrec] at hread ⊢
  rw [completed_stream hms hns hread, ← hpush]
  refine ⟨List.prefix_append _ _, fun hidle => ?_⟩
  rw [EpollPc.inHand_idle hidle, List.append_nil]

lemma framed_init (E : SerializeEntity) : Framed c (State.init E) :=
  ⟨[], by simp, rfl, rfl⟩

lemma Framed.congr (h : Framed c s) (hr : received c t.history = received c s.history)
    (hp : pushedFrom c t.history = pushedFrom c s.history)
    (hi : t.epoll.inHand c = s.epoll.inHand c) : Framed c t := by
  rw [Framed, hr, hp, hi]
  exact h

lemma decodedRead_frame (b : RecvBuffer) {r : ReadBytes} {m : MsgObject} (hm : Encodable m)
    (hr : r.bytes = m.encoding) : decodedRead b r = some m.measured := by
  have hd := m.deSerialize_encoding hm.1 (R := b.region r) (t := [])
    (hr.trans (List.append_nil _).symm)
  rw [decodedRead, hd]

lemma Framed.read (h : Framed c s) {d : Connection} {b : RecvBuffer} {r : ReadBytes}
    (hnone : s.epoll.inHand c = [])
    (hcond : d = c → ∃ m, Encodable m ∧ r.bytes = m.encoding) :
    Framed c { s with epoll := .received d b r, history := .received d r.bytes :: s.history } := by
  by_cases hdc : d = c
  · obtain ⟨m, hm, hr⟩ := hcond hdc
    obtain ⟨ns, hns, hrec, hpush⟩ := h
    rw [hnone, List.append_nil] at hpush
    refine ⟨ns ++ [m], ?_, ?_, ?_⟩
    · intro n hn
      rcases List.mem_append.mp hn with hn | hn
      · exact hns n hn
      · exact List.mem_singleton.mp hn ▸ hm
    · rw [received, if_pos hdc, hrec, hr]
      simp [stream]
    · rw [EpollPc.inHand, if_pos hdc, decodedRead_frame b hm hr, List.map_append, ← hpush]
      rfl
  · refine h.congr ?_ rfl ?_
    · rw [received, if_neg hdc]
    · rw [hnone, EpollPc.inHand, if_neg hdc]

lemma Framed.connected (h : Framed c s) {d : Connection} {T : ClientTable}
    (hnone : s.epoll.inHand c = []) :
    Framed c { s with table := T, epoll := .polling, history := .connected d :: s.history } := by
  by_cases hdc : d = c
  · refine ⟨[], by simp, ?_, ?_⟩
    · rw [received, if_pos hdc]
      rfl
    · rw [pushedFrom, if_pos hdc]
      rfl
  · refine h.congr ?_ ?_ hnone.symm
    · rw [received, if_neg hdc]
    · rw [pushedFrom, if_neg hdc]

lemma Framed.push (h : Framed c s) {d : Connection} {r : Reference} {m : MsgObject}
    (hpc : s.epoll = .deSerialized d r m) :
    Framed c { s with
      recvMsgQueue := s.recvMsgQueue ++ [r]
      epoll := .polling
      history := .pushed d m :: s.history } := by
  obtain ⟨ns, hns, hrec, hpush⟩ := h
  refine ⟨ns, hns, hrec, ?_⟩
  rw [← hpush, hpc, EpollPc.inHand, pushedFrom]
  split_ifs
  · exact List.append_nil _
  · rfl

lemma Framed.epollStep (h : Framed c s) {a : EpollAction} (hcond : WholeReads c s (.epoll a))
    (hs : EpollTransition s a t) : Framed c t := by
  cases hs with
  | refuse | findNone => exact h.congr rfl rfl rfl
  | accept hpc | find hpc | wouldBlock hpc | eof hpc | removeClient hpc =>
    exact h.congr rfl rfl (by rw [hpc]; rfl)
  | addClient hpc => exact h.connected (by rw [hpc]; rfl)
  | read hpc => exact h.read (by rw [hpc]; rfl) hcond
  | acquireEntity hpc => exact h.congr rfl rfl (by rw [hpc]; rfl)
  | @deSerialize d b r i p m a hpc _ hdec =>
    refine h.congr rfl rfl ?_
    rw [hpc, EpollPc.inHand, EpollPc.inHand, decodedRead, hdec]
    rfl
  | @raise d b r i p m e hpc _ hdec =>
    have hnone : EpollPc.inHand c (.acquired d b r i) = [] := by
      rw [EpollPc.inHand, decodedRead, hdec]
      exact ite_self _
    exact h.congr rfl rfl (by rw [hpc, hnone]; rfl)
  | pushMsg hpc => exact h.push hpc

lemma Framed.step (h : Framed c s) {a : Action} (hcond : WholeReads c s a)
    (hs : Transition s a t) : Framed c t := by
  cases hs with
  | epoll hs => exact h.epollStep hcond hs
  | loop hs => cases hs <;> exact h.congr rfl rfl rfl
  | send hs => cases hs <;> exact h.congr rfl rfl rfl

theorem pushed_in_step {E : SerializeEntity}
    (h : Reaches step (WholeReads c) (State.init E) s) : InStep c s :=
  Framed.inStep <| h.invariant (framed_init E) fun _ _ _ hs hcond ha =>
    hs.step hcond (transition_of_step ha)

def ReadsOf (ms : List MsgObject) (_ : State) : Action → Prop
  | .epoll (.read _ r) => ∃ m ∈ ms, r.bytes = m.encoding
  | _ => True

instance (ms : List MsgObject) (s : State) : (a : Action) → Decidable (ReadsOf ms s a)
  | .epoll (.read _ _) => inferInstanceAs (Decidable (∃ m ∈ ms, _))
  | .epoll (.accept ..) | .epoll .addClient | .epoll (.findFd _) | .epoll .wouldBlock
  | .epoll (.eof _) | .epoll .removeClient | .epoll .acquireEntity | .epoll (.deSerialize _)
  | .epoll .pushMsg | .loop _ | .send _ => isTrue trivial

lemma wholeReads_of_readsOf {ms : List MsgObject} (hms : ∀ m ∈ ms, Encodable m) (a : Action)
    (h : ReadsOf ms s a) : WholeReads c s a := by
  match a, h with
  | .epoll (.read _ _), h =>
    obtain ⟨m, hm, hr⟩ := h
    exact fun _ => ⟨m, hms m hm, hr⟩
  | .epoll (.accept ..), _ | .epoll .addClient, _ | .epoll (.findFd _), _ | .epoll .wouldBlock, _
  | .epoll (.eof _), _ | .epoll .removeClient, _ | .epoll .acquireEntity, _
  | .epoll (.deSerialize _), _ | .epoll .pushMsg, _ | .loop _, _ | .send _, _ => trivial

instance (pc : EpollPc) : Decidable (pc.Idle c) :=
  match pc with
  | .received .. | .acquired .. | .deSerialized .. => inferInstanceAs (Decidable (_ ≠ _))
  | .polling | .accepted .. | .found .. | .closed .. => isTrue trivial

theorem pushed_in_step_two : ∃ s, Reaches step (WholeReads client₀) (State.init serializer₀) s ∧
    pushedFrom client₀ s.history
      = [.reg ⟨⟨2, 40⟩, [97], [49], [53, 48]⟩, .data ⟨⟨4, 37⟩, [], [], [7]⟩] ∧
    InStep client₀ s := by
  have h : (execute step
      (ReadsOf [.reg ⟨⟨2, 0⟩, [97], [49], [53, 48]⟩, .data ⟨⟨4, 0⟩, [], [], [7]⟩])
      (State.init serializer₀) (connect client₀ ++
        sendFrom client₀ 0 (.reg ⟨⟨2, 0⟩, [97], [49], [53, 48]⟩) (by decide) ++
        [.loop .callBack, .loop .releaseEntity] ++
        sendFrom client₀ 1 (.data ⟨⟨4, 0⟩, [], [], [7]⟩) (by decide))).map
          (fun s => pushedFrom client₀ s.history)
      = some [.reg ⟨⟨2, 40⟩, [97], [49], [53, 48]⟩, .data ⟨⟨4, 37⟩, [], [], [7]⟩] := by
    decide +kernel
  obtain ⟨s, hs, hp⟩ := reaches_of_execute_map h
  have hreach := hs.mono fun _ => wholeReads_of_readsOf (c := client₀)
    (by simp only [List.mem_cons, List.not_mem_nil, or_false, forall_eq_or_imp, forall_eq,
      Encodable]; decide)
  exact ⟨s, hreach, hp, pushed_in_step hreach⟩

theorem joined_messages_lost : ∃ s, Reaches step Free (State.init serializer₀) s ∧
    ¬ InStep client₀ s := by
  have h : (execute step Free (State.init serializer₀) (connect client₀ ++
      [.epoll (.findFd 5),
        .epoll (.read client₀ ⟨stream [.dull ⟨⟨0, 0⟩⟩, .dull ⟨⟨0, 0⟩⟩], by decide, by decide⟩),
        .epoll .acquireEntity, .epoll (.deSerialize 0), .epoll .pushMsg])).map
          (fun s => (decide (s.epoll.Idle client₀), pushedFrom client₀ s.history,
            received client₀ s.history))
      = some (true, [.dull ⟨⟨0, 12⟩⟩], stream [.dull ⟨⟨0, 0⟩⟩, .dull ⟨⟨0, 0⟩⟩]) := by
    decide +kernel
  obtain ⟨s, hs, hw⟩ := reaches_of_execute_map h
  simp only [Prod.mk.injEq, decide_eq_true_eq] at hw
  obtain ⟨hidle, hp, hr⟩ := hw
  refine ⟨s, hs, fun hstep => ?_⟩
  have hin := (hstep [.dull ⟨⟨0, 0⟩⟩, .dull ⟨⟨0, 0⟩⟩] (by simp [Encodable]; decide)
    (by rw [hr])).2 hidle
  rw [hp, hr] at hin
  exact absurd hin (by decide)

end Framing

end Xty.Server
