import Xty.Server.Framing
import Xty.Session.Receiving
import Xty.Session.SendThread

/-! The bytes that a session has written to its socket, as the stream of its messages. -/

namespace Xty.Session

open Xty.General.LittleEndian
open Xty.Message
open Xty.Server (Encodable stream)

def dataMsgs (ms : List MsgObject) : List DataMsg := ms.filterMap asDataMsg

def Stage.output : Stage → Bytes
  | .sending data => data
  | .acquiring | .acquired | .passed => []

namespace SendThread

def MainPc.output : MainPc → Bytes
  | .deRegistering p => p.output
  | .running | .raised _ | .cleaning | .joining | .exited => []

namespace State

def output (s : State) : Bytes := s.sent.reverse.flatten ++ s.cut

def puts (s : State) : Action → Bytes
  | .advance => s.work.elim [] fun w => w.2.output
  | .deRegister => s.main.output
  | .quit n => s.work.elim [] fun w => w.2.written n
  | .sendMsg _ | .pop | .exit | .kill | .join => []

/-- The messages `ms` are what the session writes. Only a signal can leave a part of one. -/
structure Outgoing (s : State) (d : MsgObject) (ms : List MsgObject) : Prop where
  encodable : ∀ m ∈ ms, Encodable m
  own : ∀ m ∈ ms, m = d ∨ ∃ x, m = .data x
  output : s.output <+: stream ms
  submitted : dataMsgs ms <+: s.submitted
  whole : s.sender ≠ .quit → s.output = stream ms ∧ s.submitted = dataMsgs ms ++ s.unsent

end State

section Output

variable {s t : State} {d : MsgObject}

@[simp] lemma dataMsgs_append (ms ns : List MsgObject) :
    dataMsgs (ms ++ ns) = dataMsgs ms ++ dataMsgs ns := List.filterMap_append

@[simp] lemma dataMsgs_data (xs : List DataMsg) : dataMsgs (xs.map .data) = xs := by
  rw [dataMsgs, List.filterMap_map]
  exact List.filterMap_some

lemma stream_append (ms ns : List MsgObject) : stream (ms ++ ns) = stream ms ++ stream ns :=
  List.flatMap_append

lemma stream_data (xs : List DataMsg) : stream (xs.map .data) = (xs.map frame).flatten := by
  rw [stream, List.flatMap_map, List.flatMap_def]
  rfl

lemma advance_output {u : SessionState} {m : MsgObject} {p : Stage} {r : SessionState × After}
    (h : u.advance m p = some r) :
    r.1.sent.reverse.flatten = u.sent.reverse.flatten ++ p.output := by
  obtain ⟨t, a⟩ := r
  cases advance_of_some h with
  | acquire | serialize | raise | release => simp [Stage.output]
  | send data => simp [Stage.output]

lemma sendJob_output (s : State) (m : DataMsg) (r : SessionState × After) :
    (s.sendJob m r).output = r.1.sent.reverse.flatten ++ s.cut := by
  obtain ⟨t, q | _ | x⟩ := r <;> rfl

lemma deRegistered_output (s : State) (r : SessionState × After) :
    (s.deRegistered r).output = r.1.sent.reverse.flatten ++ s.cut := by
  obtain ⟨t, q | _ | x⟩ := r <;> rfl

lemma output_step (h : s.Inv d) {a : Action} (hs : step s a = some t) :
    t.output = s.output ++ s.puts a := by
  cases a with
  | sendMsg m =>
    rw [step] at hs
    split_ifs at hs
    obtain rfl := Option.some.inj hs
    simp [State.output, State.puts]
  | pop =>
    rw [step] at hs
    split_ifs at hs
    split at hs
    · cases hs
    · obtain rfl := Option.some.inj hs
      simp [State.output, State.puts]
  | advance =>
    rw [step] at hs
    split_ifs at hs with hr
    obtain ⟨⟨m, p⟩, hw, hs⟩ := Option.bind_eq_some_iff.mp hs
    obtain ⟨r, ha, rfl⟩ := Option.map_eq_some_iff.mp hs
    rw [sendJob_output, advance_output ha, State.output, h.cut_running hr, State.puts, hw]
    simp
  | exit | kill | join =>
    rw [step] at hs
    split_ifs at hs
    obtain rfl := Option.some.inj hs
    simp [State.output, State.puts]
  | deRegister =>
    rw [step] at hs
    split_ifs at hs with hr
    split at hs
    · next p hm =>
      obtain ⟨r, ha, rfl⟩ := Option.map_eq_some_iff.mp hs
      rw [deRegistered_output, advance_output ha, State.output, h.cut_running hr, State.puts, hm]
      simp [MainPc.output]
    all_goals cases hs
  | quit n =>
    rw [step] at hs
    split_ifs at hs with hg
    obtain rfl := Option.some.inj hs
    rw [State.output, State.output, h.cut_running hg.2, List.append_nil]
    rfl

lemma submitted_step {P : DataMsg → Prop} {a : Action} (h : ∀ m ∈ s.submitted, P m)
    (ha : ∀ m, a = .sendMsg m → P m) (hs : step s a = some t) : ∀ m ∈ t.submitted, P m := by
  cases a with
  | sendMsg m =>
    rw [step] at hs
    split_ifs at hs
    obtain rfl := Option.some.inj hs
    intro x hx
    rcases List.mem_append.mp hx with hx | hx
    · exact h x hx
    · exact List.mem_singleton.mp hx ▸ ha m rfl
  | pop =>
    rw [step] at hs
    split_ifs at hs
    split at hs
    · cases hs
    · obtain rfl := Option.some.inj hs
      exact h
  | advance =>
    rw [step] at hs
    split_ifs at hs
    obtain ⟨w, _, hs⟩ := Option.bind_eq_some_iff.mp hs
    obtain ⟨⟨u, q | _ | x⟩, _, rfl⟩ := Option.map_eq_some_iff.mp hs <;> exact h
  | exit | kill | quit | join =>
    rw [step] at hs
    split_ifs at hs
    obtain rfl := Option.some.inj hs
    exact h
  | deRegister =>
    rw [step] at hs
    split_ifs at hs
    split at hs
    · obtain ⟨⟨u, q | _ | x⟩, _, rfl⟩ := Option.map_eq_some_iff.mp hs <;> exact h
    all_goals cases hs

lemma State.Inv.outgoing (h : s.Inv d) (hd : d.Tagged)
    (ht : ∀ m ∈ s.submitted, (MsgObject.data m).Tagged) : ∃ ms, s.Outgoing d ms := by
  obtain ⟨first, after, hsub, hsent, _, hfits⟩ := h.split
  let bye : List MsgObject := if s.main.written then [d] else []
  have hbye : ∀ m ∈ bye, Encodable m ∧ m = d := by
    intro m hm
    by_cases hw : s.main.written = true
    · obtain rfl : m = d := by simpa [bye, hw] using hm
      exact ⟨⟨hd, h.deRegFits hw⟩, rfl⟩
    · simp [bye, hw] at hm
  have hdata : ∀ m ∈ first ++ after, Encodable (.data m) := fun m hm =>
    ⟨ht m (by rw [hsub]; exact List.mem_append_left _ hm), hfits m hm⟩
  have hnone : dataMsgs bye = [] := by
    rw [dataMsgs, List.filterMap_eq_nil_iff]
    intro m hm
    rw [(hbye m hm).2, ← h.deReg]
    rfl
  have hstream : s.sent.reverse.flatten
      = stream (first.map .data ++ bye ++ after.map .data) := by
    rw [hsent, stream_append, stream_append, stream_data, stream_data]
    by_cases hw : s.main.written = true <;> simp [bye, hw, stream]
  have hmsgs : dataMsgs (first.map .data ++ bye ++ after.map .data) = first ++ after := by
    simp [hnone]
  have hall : ∀ m ∈ first.map MsgObject.data ++ bye ++ after.map .data,
      Encodable m ∧ (m = d ∨ ∃ x, m = .data x) := by
    intro m hm
    simp only [List.mem_append, List.mem_map] at hm
    rcases hm with (⟨x, hx, rfl⟩ | hm) | ⟨x, hx, rfl⟩
    · exact ⟨hdata x (List.mem_append_left _ hx), .inr ⟨x, rfl⟩⟩
    · exact ⟨(hbye m hm).1, .inl (hbye m hm).2⟩
    · exact ⟨hdata x (List.mem_append_right _ hx), .inr ⟨x, rfl⟩⟩
  rcases h.cut with hcut | ⟨hquit, m, data, hw, hcut⟩
  · refine ⟨first.map .data ++ bye ++ after.map .data, fun m hm => (hall m hm).1,
      fun m hm => (hall m hm).2, ?_, ?_, fun _ => ⟨?_, ?_⟩⟩
    · rw [State.output, hcut, hstream, List.append_nil]
    · rw [hmsgs, hsub]
      exact List.prefix_append _ _
    · rw [State.output, hcut, hstream, List.append_nil]
    · rw [hmsgs, hsub]
  · -- the message that the signal has cut off is the next one of those that were submitted
    obtain ⟨rfl, hfit⟩ : data = frame m ∧ Fits (.data m) := h.ready _ hw
    have hunsent : s.unsent = m :: s.sendMsgQueue := by
      rw [State.unsent, hw]
      rfl
    refine ⟨first.map .data ++ bye ++ after.map .data ++ [.data m], ?_, ?_, ?_, ?_, ?_⟩
    · intro x hx
      rcases List.mem_append.mp hx with hx | hx
      · exact (hall x hx).1
      · rw [List.mem_singleton.mp hx]
        exact ⟨ht m (by simp [hsub, hunsent]), hfit⟩
    · intro x hx
      rcases List.mem_append.mp hx with hx | hx
      · exact (hall x hx).2
      · exact .inr ⟨m, List.mem_singleton.mp hx⟩
    · rw [State.output, hstream, stream_append _ [.data m]]
      refine (List.prefix_append_right_inj _).mpr ?_
      simpa [stream, frame] using hcut
    · rw [dataMsgs_append, hmsgs, hsub, hunsent]
      exact ⟨s.sendMsgQueue, by simp [dataMsgs, asDataMsg]⟩
    · exact fun hne => absurd hquit hne

end Output

end SendThread

end Xty.Session
