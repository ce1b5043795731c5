import Xty.Network.Accounts
import Xty.Network.Remaining

/-! When the programs call nothing more, the network brings every message to its end and comes to
rest. -/

namespace Xty.Network

open Xty.General.Runs Xty.General.LittleEndian
open Xty.Message Xty.Session

variable {ι κ : Type}

/-- All that the client's socket has taken has been copied out by `RecvMsg`. -/
def Emptied (n : State ι κ) (g : Log ι) (i : ι) : Prop :=
  n.toClient i = [] ∧
    Carries n.server (g.taken i) ((n.clients i).receiver.copies.map fun c => .data c.2)

/-- The address of a client that waits to be accepted is in use, only a signal can have ended the
send thread of a client that is still connected, and all that the others have submitted has
arrived. -/
structure Served (u : SessionState) (n : State ι κ) (g : Log ι) (i : ι) [DecidableEq ι] : Prop where
  requested : (n.clients i).link = .requested → ∀ c : Server.Connection,
    c.clientIPPort = address u → ∃ j d, (n.clients j).link = .established d ∧
      d.clientIPPort = address u
  ended : ∀ c, (n.clients i).link = .established c → ended (n.clients i).sender = true →
    (n.clients i).sender.sender = .quit
  arrived : ∀ c, (n.clients i).link = .established c → (n.clients i).sender.sender = .running →
    (n.clients i).sender.main = .running →
      (n.clients i).sender.submitted.map DataMsg.calculateSerializedMsgLen = g.arrivedFrom i

section Still

variable [DecidableEq ι] [Fintype κ] {u : ι → SessionState} {n : State ι κ} {g : Log ι} {i : ι}

lemma Inv.all_read (h : Inv u n g) (hpc : n.server.epoll = .polling)
    (hr : ∀ fd, ¬ Readable n fd) {c : Server.Connection}
    (hlink : (n.clients i).link = .established c) (hq : (n.clients i).sender.sender ≠ .quit) :
    n.toServer i = [] ∧ (n.clients i).sender.submitted.map DataMsg.calculateSerializedMsgLen
      = g.arrivedFrom i ++ (n.clients i).sender.unsent.map DataMsg.calculateSerializedMsgLen := by
  obtain ⟨ks, hks, hstream, hall⟩ := (h.uplinks i).accounted (h.sessions i) hq
  have hnil : ks = [] := by
    cases ks with
    | nil => rfl
    | cons k ks =>
      refine absurd ⟨i, c, hlink, rfl, .inl ⟨k, hks k List.mem_cons_self, ?_⟩⟩ (hr c.fd)
      rw [hstream, stream_cons]
      exact List.prefix_append _ _
  have hreading : n.reading g i = [] := by
    rw [State.reading, hpc]
    split_ifs <;> rfl
  subst hnil
  refine ⟨hstream, ?_⟩
  rw [hall, hreading, List.append_nil]
  rfl

variable [DecidableEq κ]

def Still (n : State ι κ) : Prop := Stuck step Going n

lemma Still.server (hn : Still n) {a : Server.Action} (ha : internal a = true)
    (hb : Server.GivesBackLast n.server a) (hq : Quiet n (.server a .wouldBlock)) :
    Server.step n.server a = none := by
  have hnone := hn (.server a .wouldBlock) ⟨⟨hb, fun _ _ => .inl rfl⟩, hq⟩
  rw [step, if_pos ha] at hnone
  exact Option.map_eq_none_iff.mp hnone

lemma Still.send (hn : Still n) (hl : (n.clients i).link ≠ .absent)
    {a : SendThread.Action} (ha : SendThread.Finishes a) :
    SendThread.step (n.clients i).sender a = none := by
  have horder : Orderly n (.send i a) := by
    cases a with
    | sendMsg => exact ha.elim
    | pop | advance | exit | deRegister | kill | quit | join => trivial
  have hnone := hn (.send i a) ⟨horder, ha⟩
  rw [step, if_neg hl] at hnone
  exact Option.map_eq_none_iff.mp hnone

lemma Still.recv (hn : Still n) (hl : (n.clients i).link ≠ .absent)
    (hend : ended (n.clients i).sender = false) {a : RecvThread.Action κ}
    (ha : Orderly n (.recv i a)) (hq : ∀ k, a ≠ .wake k) (hc : consumed a <+: n.toClient i) :
    RecvThread.step (n.clients i).receiver a = none := by
  have hnone := hn (.recv i a) ⟨ha, hq⟩
  rw [step, if_pos ⟨hl, hend, hc⟩] at hnone
  exact Option.map_eq_none_iff.mp hnone

lemma Still.hands (hn : Still n) (hl : (n.clients i).link ≠ .absent)
    (hend : ended (n.clients i).sender = false) {a : RecvThread.Action κ}
    (ha : RecvThread.Hands (n.clients i).receiver a) :
    RecvThread.step (n.clients i).receiver a = none := by
  cases a with
  | recv | wake => exact ha.elim
  | acquire | prepare | decode | enQueue | produce | signal | consume | deQueue | copy
  | release =>
    exact hn.recv hl hend trivial (fun _ he => by cases he) (List.nil_prefix)

lemma Still.emptied [Nonempty κ] (hn : Still n) (h : Inv u n g) (hl : Live n)
    (hlink : (n.clients i).link ≠ .absent) (hend : ended (n.clients i).sender = false) :
    Emptied n g i := by
  obtain ⟨_, hheld⟩ := h.receivers i
  have hset : RecvThread.Settled (n.clients i).receiver := by
    rcases (hl.tidy i).progress hheld with hset | ⟨a, t, ha, ht⟩
    · exact hset
    · rw [hn.hands hlink hend ha] at ht
      cases ht
  obtain ⟨ks, hks, hstream, hcar⟩ := h.downlinks i
  have hnil : ks = [] := by
    cases ks with
    | nil => rfl
    | cons k ks =>
      obtain ⟨hk, _⟩ := hks k List.mem_cons_self
      let d : RecvData := ⟨k.encoding, k.encoding_pos, k.encoding_length.trans_le hk.2⟩
      have hprefix : d.bytes <+: n.toClient i := by
        rw [hstream, stream_cons]
        exact List.prefix_append _ _
      have hnone := hn.recv hlink hend (a := .recv ⟨0, [], by decide⟩ d)
        ⟨k, hk, rfl⟩ (fun _ he => by cases he) hprefix
      rw [RecvThread.step, hset.receiver] at hnone
      simp only [if_pos hset.pushing] at hnone
      split at hnone <;> cases hnone
  subst hnil
  refine ⟨hstream, ?_⟩
  rw [hset.copied hheld (hl.tidy i)]
  simpa [received, hset.receiver, inHand] using hcar

lemma Still.server_rests (hn : Still n) (h : Inv u n g) (hl : Live n) :
    ¬ Server.GivesBackLast n.server (.send .releaseEntity) ∨ Server.AtRest n.server := by
  have hready : Server.Ready n.server :=
    ⟨h.inTurn.classed, fun r hr => (h.inTurn.owned.intact r hr).1, hl.healthy.serializer⟩
  refine or_iff_not_imp_left.mpr fun hb => ?_
  rcases hready.progress with hrest | ⟨a, s, ha, hs⟩
  · exact hrest
  · have hnone : Server.step n.server a = none := by
      cases a with
      | epoll => exact ha.elim
      | loop => exact hn.server rfl trivial trivial
      | send a =>
        cases a with
        | releaseEntity => exact hn.server rfl (not_not.mp hb) trivial
        | popMsg | copyStrings | lockTable | next =>
          exact hn.server rfl trivial trivial
    rw [hnone] at hs
    cases hs

lemma Still.not_found (hn : Still n) (h : Inv u n g) {k : Bytes} {fd : ℕ}
    {b : Server.RecvBuffer} : n.server.epoll ≠ .found k fd b := by
  intro hpc
  by_cases hr : Readable n fd
  · obtain ⟨i, c, hlink, rfl, hbytes⟩ := hr
    have hc := (h.established i c hlink).1
    rcases hbytes with ⟨m, hm, hprefix⟩ | ⟨hend, hnil⟩
    · have hnone := hn (.read i (.frame m hm.2)) ⟨⟨m, hm, rfl⟩, trivial⟩
      simp [step, hlink, Server.ReadBytes.frame, hprefix, Server.step, Server.epollStep, hpc, hc]
        at hnone
    · have hnone := hn (.eof i) ⟨trivial, trivial⟩
      simp [step, hlink, hend, hnil, Server.step, Server.epollStep, hpc, hc] at hnone
  · have hnone := hn.server (a := .epoll .wouldBlock) rfl trivial fun k' fd' b' he => by
      rw [hpc] at he
      cases he
      exact hr
    simp [Server.step, Server.epollStep, hpc] at hnone

lemma Still.epoll_rests (hn : Still n) (h : Inv u n g) (hl : Live n)
    (hrest : Server.AtRest n.server) : n.server.epoll = .polling ∨
      (∃ c b r, n.server.epoll = .received c b r) ∧
        ∀ j < Server.serverDeSerializeEntityNum, Server.Lost n.server j := by
  rcases hl.healthy.polls hrest.unlocked with hidles | ⟨a, s, ha, hs⟩
  · rcases hidles with hpc | ⟨k, fd, b, hpc⟩ | ⟨⟨c, b, r, hpc⟩, hacq⟩
    · exact .inl hpc
    · exact absurd hpc (hn.not_found h)
    · exact .inr ⟨⟨c, b, r, hpc⟩, hl.healthy.all_lost hrest hpc hacq⟩
  · have hnone : Server.step n.server (.epoll a) = none := by
      cases a with
      | accept | findFd | wouldBlock | eof | read => exact ha.elim
      | addClient | removeClient | acquireEntity | deSerialize | pushMsg =>
        exact hn.server rfl trivial trivial
    rw [hnone] at hs
    cases hs

lemma Still.unreadable (hn : Still n) (h : Inv u n g)
    (hrest : Server.AtRest n.server) (hpc : n.server.epoll = .polling) (fd : ℕ) :
    ¬ Readable n fd := by
  intro hr
  obtain ⟨⟨k, e⟩, hfind⟩ := h.findsFd hpc hr
  have hnone := hn.server (a := .epoll (.findFd fd)) rfl trivial hr
  simp [Server.step, Server.epollStep, hpc, hrest.unlocked, hfind] at hnone

lemma Still.address_used (hn : Still n) (h : Inv u n g) (hl : Live n)
    (hpc : n.server.epoll = .polling) (hlink : (n.clients i).link = .requested)
    {c : Server.Connection} (hc : c.clientIPPort = address (u i)) :
    ∃ j d, (n.clients j).link = .established d ∧ d.clientIPPort = address (u i) := by
  by_contra hnone
  push Not at hnone
  obtain ⟨fd, hfd⟩ := Infinite.exists_notMem_finset
    (n.server.connections.map Server.Connection.fd).toFinset
  let d : Server.Connection := { c with fd := fd }
  have hfresh : Server.Fresh n.server d := by
    intro e he
    obtain ⟨j, hj⟩ := hl.owners e he
    refine ⟨fun hfde => hfd (List.mem_toFinset.mpr (List.mem_map.mpr ⟨e, he, hfde⟩)), ?_⟩
    intro haddr
    exact hnone j e hj (haddr.trans hc)
  have haddr : d.clientIPPort = address (n.clients i).sender.toSessionState :=
    hc.trans (h.sessions i).address_eq.symm
  have hstep := hn (.accept i d Server.buffer₀) ⟨trivial, trivial⟩
  rw [step, if_pos ⟨hlink, haddr⟩, Option.map_eq_none_iff, Server.step, Server.epollStep, hpc]
    at hstep
  simp only [if_pos hfresh] at hstep
  split_ifs at hstep

lemma Still.served (hn : Still n) (h : Inv u n g) (hl : Live n)
    (hrest : Server.AtRest n.server) (hpc : n.server.epoll = .polling) (i : ι) :
    Served (u i) n g i where
  requested hlink _ hc := hn.address_used h hl hpc hlink hc
  ended c hlink hend := by
    by_contra hq
    have hread := hn.unreadable h hrest hpc
    obtain ⟨hnil, _⟩ := h.all_read hpc hread hlink hq
    exact hread c.fd ⟨i, c, hlink, rfl, .inr ⟨hend, hnil⟩⟩
  arrived c hlink hrun hmain := by
    have hpresent : (n.clients i).link ≠ .absent := by
      rw [hlink]
      simp
    obtain ⟨_, hall⟩ := h.all_read hpc (hn.unreadable h hrest hpc) hlink
      (by rw [hrun]; simp)
    have hstand := (h.sessions i).inv.standing hrun fun _ ha => hn.send hpresent ha
    rw [hmain] at hstand
    obtain ⟨_, hnil⟩ | ⟨_, hraised⟩ | hexited := hstand
    · rw [hall, hnil, List.map_nil, List.append_nil]
    · cases hraised
    · cases hexited

end Still

section Result

variable [DecidableEq ι] [Fintype κ] [DecidableEq κ] {u : ι → SessionState} {n : State ι κ}
  {g : Log ι}

lemma kept_of_observed {E : SerializeEntity}
    (h : Observed step Log.record Orderly (State.init E u, Log.empty) (n, g)) :
    Inv u n g ∧ Live n := by
  refine h.invariant (I := fun x => Inv u x.1 x.2 ∧ Live x.1) ⟨inv_init E, live_init E⟩ ?_
  rintro s g a t ⟨hi, hl⟩ hc ha
  have htrans := transition_of_step ha
  exact ⟨hi.step hc htrans, hl.step hi hc htrans⟩

lemma submitted_of_observed {n' : State ι κ} {g' : Log ι}
    (h : Observed step Log.record Going (n, g) (n', g')) (i : ι) :
    (n'.clients i).sender.submitted = (n.clients i).sender.submitted := by
  refine h.invariant (I := fun x => (x.1.clients i).sender.submitted
    = (n.clients i).sender.submitted) rfl ?_
  intro s _ a t hi hc ha
  exact (hc.2.submitted (transition_of_step ha) i).trans hi

end Result

end Xty.Network
