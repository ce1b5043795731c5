import Xty.Network.Order

/-! Where each of the messages is that the sessions have submitted. -/

namespace Xty.Network

open Xty.General.Runs
open Xty.Message Xty.Session

variable {ι κ : Type} [DecidableEq ι] {u : ι → SessionState} {n : State ι κ} {g : Log ι} {i : ι}

/-- The Data messages of the client that the epoll thread has read and not pushed. -/
def State.reading (n : State ι κ) (g : Log ι) (i : ι) : List DataMsg :=
  if g.reader = some i then dataMsgs (messages n.server.epoll) else []

lemma Uplink.accounted {u : SessionState} (h : Uplink u n g i) (hs : Session u (n.clients i))
    (hq : (n.clients i).sender.sender ≠ .quit) : ∃ ks, (∀ k ∈ ks, Server.Encodable k) ∧
      n.toServer i = Server.stream ks ∧
      (n.clients i).sender.submitted.map DataMsg.calculateSerializedMsgLen
        = g.arrivedFrom i ++ n.reading g i ++
          (dataMsgs ks ++ (n.clients i).sender.unsent).map DataMsg.calculateSerializedMsgLen := by
  obtain ⟨ns, hns, hout, hdata⟩ := h
  obtain ⟨ms, hms, _, _, hwhole⟩ := hs.stream
  obtain ⟨hwritten, hsub⟩ := hwhole hq
  rw [hwritten] at hout
  have hstream : Server.stream ns <+: Server.stream ms := by
    rw [hout]
    exact List.prefix_append _ _
  obtain ⟨ls, ks, rfl, hmeas, hls⟩ := split_of_prefix hns (fun m hm => (hms m hm).1) hstream
  rw [SendThread.stream_append, hls, List.append_cancel_left_eq] at hout
  rw [← hmeas, dataMsgs_measured] at hdata
  refine ⟨ks, fun k hk => (hms k (List.mem_append_right _ hk)).1, hout.symm, ?_⟩
  rw [hsub, SendThread.dataMsgs_append, List.append_assoc, List.map_append, hdata]
  rfl

variable [DecidableEq κ] [Fintype κ]

/-- As long as no signal has ended its send thread, what a client has submitted has arrived, is in
the hands of the epoll thread, is on the way or is still in the session, in this order. What has
arrived is with the loop thread or has been popped, and what a client's socket has taken of that has
been read by the client or is on the way to it. -/
theorem messages_accounted {E : SerializeEntity}
    (h : Observed step Log.record Orderly (State.init E u, Log.empty) (n, g)) :
    (∀ i, (n.clients i).sender.sender ≠ .quit → ∃ ks, (∀ k ∈ ks, Server.Encodable k) ∧
      n.toServer i = Server.stream ks ∧
      (n.clients i).sender.submitted.map DataMsg.calculateSerializedMsgLen
        = g.arrivedFrom i ++ n.reading g i ++
          (dataMsgs ks ++ (n.clients i).sender.unsent).map DataMsg.calculateSerializedMsgLen) ∧
      Valued n.server (g.data.popped ++ n.server.dataUnderway) (g.arrived.map fun a => .data a.2) ∧
      ∀ i, (g.taken i).Sublist g.data.popped ∧ ∃ ks, (∀ k ∈ ks, Server.Encodable k) ∧
        n.toClient i = Server.stream ks ∧ Carries n.server (g.taken i)
          (received (n.clients i).receiver ++ ks.map MsgObject.measured) := by
  have hi := inv_of_observed h
  refine ⟨fun i hq => (hi.uplinks i).accounted (hi.sessions i) hq, ?_, fun i => ⟨?_, ?_⟩⟩
  · rw [← hi.inTurn.ordered.order]
    exact hi.arrived
  · exact (hi.rounds i).sublist
  · obtain ⟨ks, hks, hstream, hcar⟩ := hi.downlinks i
    exact ⟨ks, fun k hk => (hks k hk).1, hstream, hcar⟩

theorem messages_accounted_underway : ∃ (n : State (Fin 2) (Fin 1)) (g : Log (Fin 2)),
    Observed step Log.record Orderly (State.init Server.serializer₀ ![alpha, beta], Log.empty)
      (n, g) ∧
    (n.clients 0).sender.submitted = [toBeta 7, toBeta 8] ∧
    g.arrivedFrom 0 = [⟨⟨4, 39⟩, [49], [98], [7]⟩] ∧
    ∃ ks, n.toServer 0 = Server.stream ks ∧ ([toBeta 7, toBeta 8] : List DataMsg).map
      DataMsg.calculateSerializedMsgLen = g.arrivedFrom 0 ++ n.reading g 0 ++
        (dataMsgs ks ++ (n.clients 0).sender.unsent).map DataMsg.calculateSerializedMsgLen := by
  have h : (execute (observe step Log.record) (fun x a => OrderlyOf alphaBetaMsgs x.1 a)
      ((State.init Server.serializer₀ ![alpha, beta] : State (Fin 2) (Fin 1)), Log.empty)
      (connectAlphaBeta ++ alphaToBeta 7 (by decide) ++
        [.send 0 (.sendMsg (toBeta 8)), .send 0 .pop, .send 0 .advance, .send 0 .advance,
          .send 0 .advance])).map
          (fun x => ((x.1.clients 0).sender.submitted, x.2.arrivedFrom 0,
            decide ((x.1.clients 0).sender.sender = .running)))
      = some ([toBeta 7, toBeta 8], [⟨⟨4, 39⟩, [49], [98], [7]⟩], true) := by
    decide +kernel
  obtain ⟨⟨n, g⟩, hn, hw⟩ := reaches_of_execute_map h
  simp only [Prod.mk.injEq, decide_eq_true_eq] at hw
  obtain ⟨hsub, harr, hrun⟩ := hw
  have hreach : Observed step Log.record Orderly
      (State.init Server.serializer₀ ![alpha, beta], Log.empty) (n, g) :=
    hn.mono fun x => orderly_of alphaBetaMsgs_encodable
  obtain ⟨ks, _, hks, hall⟩ := (messages_accounted hreach).1 0 (by rw [hrun]; simp)
  rw [hsub] at hall
  exact ⟨n, g, hreach, hsub, harr, ks, hks, hall⟩

end Xty.Network
