import Xty.Network.Uplink
import Xty.Server.Rounds

/-! From the send job of the server to the threads that call `RecvMsg`. -/

namespace Xty.Network

open Xty.General.LittleEndian
open Xty.Message Xty.Session
open Xty.Server (Reference DataLog InTurn stream)
open Xty.Session.RecvThread (Chunk ReceiverPc)

def chunkMessage (c : Chunk) : Option MsgObject :=
  match c.deSerialize with
  | .ok (m, _) => some m
  | .error _ => none

def inHand : ReceiverPc → List MsgObject
  | .acquiring c | .acquired c _ | .prepared c _ => (chunkMessage c).toList
  | .receiving | .decoded _ | .undefined => []

def received {κ : Type} (s : RecvThread.State κ) : List MsgObject := s.decoded ++ inHand s.receiver

section Receiving

variable {κ : Type} [DecidableEq κ] [Fintype κ] {s t : RecvThread.State κ}

lemma chunkMessage_prepare {c : Chunk} {x : General.Cursor.Failure ExceptionCode}
    (h : c.prepare = .error x) : chunkMessage c = none := by
  rw [Chunk.prepare] at h
  rw [chunkMessage, Chunk.deSerialize, DeSerializeEntity.deSerializeAt, h]

lemma received_recv {b : RecvBuf} {d : RecvData} {m : MsgObject}
    (hm : runJobRoutine b d = .pushed m) (h : RecvThread.step s (.recv b d) = some t) :
    received t = received s ++ [m] := by
  rw [RecvThread.step] at h
  split at h
  · next hr =>
    split_ifs at h
    rw [runJobRoutine] at hm
    split at hm
    · cases hm
    · cases hm
    · next len hlen =>
      rw [hlen] at h
      obtain rfl := Option.some.inj h
      split at hm
      · next hdec =>
        cases hm
        have hc : chunkMessage ⟨b, d, len⟩ = some m := by
          rw [chunkMessage, Chunk.deSerialize, hdec]
        simp [received, hr, inHand, hc]
      · cases hm
      · cases hm
  all_goals cases h

lemma received_same {a : RecvThread.Action κ} (ha : ∀ b d, a ≠ .recv b d)
    (h : RecvThread.step s a = some t) : received t = received s := by
  cases a with
  | recv b d => exact absurd rfl (ha b d)
  | acquire =>
    rw [RecvThread.step] at h
    split at h
    · next hr =>
      obtain ⟨r, _, rfl⟩ := Option.map_eq_some_iff.mp h
      simp [received, hr, inHand]
    all_goals cases h
  | prepare p =>
    rw [RecvThread.step] at h
    split at h
    · next hr =>
      split at h
      · split_ifs at h
        obtain rfl := Option.some.inj h
        simp [received, hr, inHand]
      · next hprep =>
        obtain rfl := Option.some.inj h
        simp [received, hr, inHand, chunkMessage_prepare hprep]
    all_goals cases h
  | decode =>
    rw [RecvThread.step] at h
    split at h
    · next hr =>
      split at h <;>
      · next hdec =>
        obtain rfl := Option.some.inj h
        simp [received, hr, inHand, chunkMessage, hdec]
    all_goals cases h
  | enQueue =>
    rw [RecvThread.step] at h
    split at h
    · next hr =>
      obtain ⟨q, _, rfl⟩ := Option.map_eq_some_iff.mp h
      simp [received, hr, inHand]
    all_goals cases h
  | produce | signal | wake | copy =>
    obtain ⟨q, _, rfl⟩ := Option.map_eq_some_iff.mp h
    rfl
  | consume k =>
    rw [RecvThread.step] at h
    split_ifs at h
    obtain ⟨q, _, rfl⟩ := Option.map_eq_some_iff.mp h
    rfl
  | deQueue k =>
    obtain ⟨q, _, rfl⟩ := Option.map_eq_some_iff.mp h
    split <;> rfl
  | release k =>
    rw [RecvThread.step] at h
    split at h
    · obtain rfl := Option.some.inj h
      rfl
    all_goals cases h

end Receiving

section Downlinks

variable {ι κ : Type} {n n' : State ι κ} {g : Log ι} {i j : ι}

def Valued (s : Server.State) (rs : List Reference) (ms : List MsgObject) : Prop :=
  rs.map s.value = ms.map some

/-- The references stand for the messages, up to the length that `Serialize` stores in them. -/
def Carries (s : Server.State) (rs : List Reference) (ms : List MsgObject) : Prop :=
  ∃ xs, Valued s rs xs ∧ xs.map MsgObject.measured = ms

/-- The frames that the client's socket has taken have been read, or are on their way to it. -/
def Downlink (n : State ι κ) (g : Log ι) (i : ι) : Prop :=
  ∃ ks, (∀ k ∈ ks, Server.Encodable k ∧ ∃ d, k = .data d) ∧ n.toClient i = stream ks ∧
    Carries n.server (g.taken i)
      (received (n.clients i).receiver ++ ks.map MsgObject.measured)

lemma Valued.grow {s t : Server.State} {rs : List Reference} {ms : List MsgObject}
    (h : Valued s rs ms) (ho : s.objects <+: t.objects) : Valued t rs ms := by
  refine Eq.trans (List.map_congr_left fun r hr => ?_) h
  have hmem : s.value r ∈ ms.map some := by
    rw [← h]
    exact List.mem_map_of_mem hr
  obtain ⟨m, _, hm⟩ := List.mem_map.mp hmem
  rw [← hm, Server.value_mono ho hm.symm]

lemma Valued.append {s : Server.State} {rs : List Reference} {ms : List MsgObject}
    (h : Valued s rs ms) {r : Reference} {m : MsgObject} (hm : s.value r = some m) :
    Valued s (rs ++ [r]) (ms ++ [m]) := by
  rw [Valued, List.map_append, List.map_append, h]
  simp [hm]

lemma Carries.grow {s t : Server.State} {rs : List Reference} {ms : List MsgObject}
    (h : Carries s rs ms) (ho : s.objects <+: t.objects) : Carries t rs ms := by
  obtain ⟨xs, hxs, rfl⟩ := h
  exact ⟨xs, hxs.grow ho, rfl⟩

lemma Downlink.congr (h : Downlink n g i) {g' : Log ι} (hs : n.server.objects <+: n'.server.objects)
    (hc : (n'.clients i).receiver = (n.clients i).receiver)
    (ht : n'.toClient i = n.toClient i) (hg : g'.taken i = g.taken i) : Downlink n' g' i := by
  obtain ⟨ks, hks, hstream, hcar⟩ := h
  refine ⟨ks, hks, ht.trans hstream, ?_⟩
  rw [hc, hg]
  exact hcar.grow hs

lemma Link.hasFd_iff {l : Link} {fd : ℕ} :
    l.hasFd fd = true ↔ ∃ c, l = .established c ∧ c.fd = fd := by
  cases l <;> simp [Link.hasFd]

/-- What is delivered to a client is the whole frame of the Data message of the round. -/
lemma delivery {a : Server.Action} {res : Server.SendResult} (h : InTurn n.server g.data)
    (hw : ∀ p ∈ n.server.sending a, res.taken = 0 ∨ p.2.length ≤ res.taken)
    (hd : n.delivered i a res ≠ []) : a = .send .next ∧ ∃ c r toIP toName k e rest d,
      (n.clients i).link = .established c ∧ Server.Bound n.server.table k c.fd ∧
      n.server.send = .iterating r toIP toName ((k, some e) :: rest) ∧
      e.Matches toIP toName ∧ n.server.value r = some (.data d) ∧
      n.delivered i a res = (MsgObject.data d).encoding ∧ n.takes i a res = [r] := by
  rw [State.delivered] at hd
  split at hd
  · next k fd data hsend =>
    split_ifs at hd with hfd
    case neg => exact absurd rfl hd
    obtain ⟨c, hl, rfl⟩ := Link.hasFd_iff.mp hfd
    obtain ⟨rfl, hbound, r, toIP, toName, e, rest, d, hpc, hval, hmatch, rfl⟩ := h.sending hsend
    have hwhole : (MsgObject.data d).encoding.take res.taken = (MsgObject.data d).encoding := by
      rcases hw _ hsend with hzero | hle
      · rw [hzero, List.take_zero] at hd
        exact absurd rfl hd
      · exact List.take_of_length_le hle
    have hdel : n.delivered i (.send .next) res = (MsgObject.data d).encoding := by
      rw [State.delivered, hsend]
      simp only [hfd, if_true, hwhole]
    refine ⟨rfl, c, r, toIP, toName, k, e, rest, d, hl, hbound, hpc, hmatch, hval, hdel, ?_⟩
    rw [State.takes, hdel, if_neg (List.ne_nil_of_length_pos (MsgObject.encoding_pos _)), hpc]
    rfl
  · exact absurd rfl hd

lemma Downlink.server (h : Downlink n g i) {a : Server.Action} {res : Server.SendResult}
    {s : Server.State} (hn : InTurn n.server g.data)
    (hw : ∀ p ∈ n.server.sending a, res.taken = 0 ∨ p.2.length ≤ res.taken)
    (hs : Server.Transition n.server a s) {g' : Log ι}
    (hg : g'.taken i = g.taken i ++ n.takes i a res) :
    Downlink { n with
      server := s
      toClient := fun i => n.toClient i ++ n.delivered i a res } g' i := by
  by_cases hd : n.delivered i a res = []
  · refine h.congr hs.objects_grow rfl ?_ ?_
    · simp only [hd, List.append_nil]
    · rw [hg, State.takes, if_pos hd, List.append_nil]
  · obtain ⟨_, c, r, toIP, toName, k, e, rest, d, _, _, _, _, hval, hdel, htakes⟩ :=
      delivery hn hw hd
    obtain ⟨ks, hks, hstream, hcar⟩ := h
    have hmem : MsgObject.data d ∈ n.server.objects := List.mem_of_getElem? hval
    have henc : Server.Encodable (.data d) :=
      ⟨hn.classed.remembered.tagged _ hmem, hn.classed.remembered.fits _ hmem⟩
    refine ⟨ks ++ [.data d], ?_, ?_, ?_⟩
    · intro x hx
      rcases List.mem_append.mp hx with hx | hx
      · exact hks x hx
      · exact List.mem_singleton.mp hx ▸ ⟨henc, d, rfl⟩
    · simp only [hdel, hstream, SendThread.stream_append]
      simp [stream]
    · obtain ⟨xs, hxs, hmeas⟩ := hcar
      refine ⟨xs ++ [.data d], ?_, ?_⟩
      · rw [hg, htakes]
        exact (hxs.grow hs.objects_grow).append (Server.value_mono hs.objects_grow hval)
      · rw [List.map_append, hmeas, List.map_append, List.append_assoc]

lemma Downlink.frame (h : Downlink n g i) {b : RecvBuf} {d : RecvData}
    (hm : ∃ m, Server.Encodable m ∧ d.bytes = m.encoding) (hr : d.bytes <+: n.toClient i) :
    ∃ x ks, runJobRoutine b d = .pushed (.data x) ∧
      (∀ k ∈ ks, Server.Encodable k ∧ ∃ d, k = .data d) ∧
      (n.toClient i).drop d.bytes.length = stream ks ∧
      Carries n.server (g.taken i)
        (received (n.clients i).receiver ++ [.data x] ++ ks.map MsgObject.measured) := by
  obtain ⟨ks, hks, hstream, hcar⟩ := h
  obtain ⟨m, hm, hbytes⟩ := hm
  rw [hstream, hbytes] at hr
  obtain ⟨k, ks, rfl, hmeas, hdrop⟩ := frame_of_prefix hm (fun k hk => (hks k hk).1) hr
  obtain ⟨y, rfl⟩ := (hks k List.mem_cons_self).2
  have hx : (MsgObject.data y).measured = .data y.calculateSerializedMsgLen := rfl
  rw [List.map_cons, hx, ← List.singleton_append, ← List.append_assoc] at hcar
  refine ⟨_, ks, ?_, fun k hk => hks k (List.mem_cons_of_mem _ hk), ?_, hcar⟩
  · rw [runJobRoutine_encoding hm.1 hm.2 hbytes, ← hmeas, hx]
  · rw [hstream, hbytes, hdrop]

variable [DecidableEq ι] [DecidableEq κ] [Fintype κ]

lemma Downlink.recv (h : Downlink n g i) {a : RecvThread.Action κ} {t : RecvThread.State κ}
    (hm : ∀ b d, a = .recv b d → ∃ m, Server.Encodable m ∧ d.bytes = m.encoding)
    (hr : consumed a <+: n.toClient i) (hs : RecvThread.step (n.clients i).receiver a = some t) :
    Downlink { n with
      clients := Function.update n.clients i { n.clients i with receiver := t }
      toClient := Function.update n.toClient i ((n.toClient i).drop (consumed a).length) } g i := by
  by_cases ha : ∃ b d, a = .recv b d
  · obtain ⟨b, d, rfl⟩ := ha
    obtain ⟨x, ks, hrun, hks, hdrop, hcar⟩ := h.frame (hm b d rfl) hr
    refine ⟨ks, hks, by simpa [consumed] using hdrop, ?_⟩
    simp only [Function.update_self]
    rw [received_recv hrun hs]
    exact hcar
  · push Not at ha
    have hnone : consumed a = [] := by
      cases a with
      | recv b d => exact absurd rfl (ha b d)
      | acquire | prepare | decode | enQueue | produce | signal | consume | wake | deQueue | copy
      | release => rfl
    obtain ⟨ks, hks, hstream, hcar⟩ := h
    refine ⟨ks, hks, by simpa [hnone] using hstream, ?_⟩
    simp only [Function.update_self]
    rw [received_same ha hs]
    exact hcar

end Downlinks

end Xty.Network
