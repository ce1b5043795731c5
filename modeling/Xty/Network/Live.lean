import Xty.Network.Addressing
import Xty.Session.RecvRest

/-! What keeps the threads of the network going: each has what its next step needs. -/

namespace Xty.Network

open Xty.General.Runs
open Xty.Message Xty.Session

variable {ι κ : Type}

structure Live (n : State ι κ) [Fintype κ] : Prop where
  healthy : Server.Healthy n.server
  tidy : ∀ i, RecvThread.Tidy (n.clients i).receiver
  owners : ∀ c ∈ n.server.connections, ∃ i, (n.clients i).link = .established c

variable [Fintype κ] {u : ι → SessionState} {n n' : State ι κ} {g : Log ι} {i : ι}

lemma live_init (E : SerializeEntity) : Live (State.init E u : State ι κ) where
  healthy := Server.healthy_init E
  tidy _ := RecvThread.tidy_init
  owners := nofun

variable [DecidableEq ι]

lemma Live.update (h : Live n) {c : Client κ} {f f' : ι → General.LittleEndian.Bytes}
    (ht : RecvThread.Tidy c.receiver)
    (hl : ∀ d, (n.clients i).link = .established d → c.link = .established d) :
    Live ⟨n.server, Function.update n.clients i c, f, f'⟩ where
  healthy := h.healthy
  tidy j := by
    by_cases hj : j = i
    · subst hj
      simpa using ht
    · simpa [hj] using h.tidy j
  owners d hd := by
    obtain ⟨j, hj⟩ := h.owners d hd
    by_cases hji : j = i
    · subst hji
      exact ⟨j, by simpa using hl d hj⟩
    · exact ⟨j, by simpa [hji] using hj⟩

lemma Live.setLink (h : Live n) {s : Server.State} {l : Link} (hs : Server.Healthy s)
    (ho : ∀ d ∈ s.connections, l = .established d ∨
      ∃ j, j ≠ i ∧ (n.clients j).link = .established d) :
    Live { n.setLink i l with server := s } where
  healthy := hs
  tidy j := (setLink_receiver n i j l).symm ▸ h.tidy j
  owners d hd := by
    rcases ho d hd with hl | ⟨j, hj, hlink⟩
    · exact ⟨i, ((setLink_link n i i l).trans (if_pos rfl)).trans hl⟩
    · exact ⟨j, ((setLink_link n i j l).trans (if_neg hj)).trans hlink⟩

lemma Live.healthy_step (h : Live n) (hi : Inv u n g) {a : Server.Action} {s : Server.State}
    (hread : ∀ c r, a = .epoll (.read c r) → s.epoll.Brings fun m => m.type ≠ .quitMsg)
    (hs : Server.Transition n.server a s) : Server.Healthy s :=
  h.healthy.step hi.inTurn.owned hi.inTurn.classed.remembered hread hs

lemma Live.accept (h : Live n) (hi : Inv u n g) {c : Server.Connection} {b : Server.RecvBuffer}
    {s : Server.State} (hl : (n.clients i).link = .requested)
    (hs : Server.Transition n.server (.epoll (.accept c b)) s) :
    Live { n.setLink i (if c ∈ s.connections then .established c else .closed) with
      server := s } := by
  have hother : ∀ d ∈ n.server.connections, ∃ j, j ≠ i ∧ (n.clients j).link = .established d := by
    intro d hd
    obtain ⟨j, hj⟩ := h.owners d hd
    refine ⟨j, ?_, hj⟩
    rintro rfl
    rw [hl] at hj
    cases hj
  refine h.setLink (h.healthy_step hi (fun _ _ he => by cases he) hs) fun d hd => ?_
  cases hs with
  | epoll hs =>
    cases hs with
    | refuse => exact .inr (hother d hd)
    | accept =>
      rcases List.mem_cons.mp hd with rfl | hold
      · exact .inl (if_pos hd)
      · exact .inr (hother d hold)

lemma Live.eof (h : Live n) (hi : Inv u n g) {c : Server.Connection} {s : Server.State}
    (hl : (n.clients i).link = .established c)
    (hs : Server.Transition n.server (.epoll (.eof c)) s) :
    Live { n.setLink i .closed with server := s } := by
  refine h.setLink (h.healthy_step hi (fun _ _ he => by cases he) hs) fun d hd => .inr ?_
  cases hs with
  | epoll hs =>
    cases hs with
    | eof _ hc =>
      have hnd : n.server.connections.Nodup := hi.inTurn.tracked.open_differ.imp fun hcd he =>
        hcd.1 (congrArg Server.Connection.fd he)
      obtain ⟨hne, hd⟩ := hnd.mem_erase_iff.mp hd
      obtain ⟨j, hj⟩ := h.owners d hd
      refine ⟨j, ?_, hj⟩
      rintro rfl
      exact hne (Link.established.inj (hj.symm.trans hl))

lemma Live.read (h : Live n) (hi : Inv u n g) {c : Server.Connection} {r : Server.ReadBytes}
    {s : Server.State} {f : ι → General.LittleEndian.Bytes}
    (hm : ∃ m, Server.Encodable m ∧ r.bytes = m.encoding) (hr : r.bytes <+: n.toServer i)
    (hs : Server.Transition n.server (.epoll (.read c r)) s) :
    Live { n with server := s, toServer := f } := by
  obtain ⟨m, hm, hbytes⟩ := hm
  have hread : s.epoll.Brings fun m => m.type ≠ .quitMsg := by
    cases hs with
    | epoll hs =>
    cases hs with
    | read =>
      refine ⟨m.measured, Server.decodedRead_frame _ hm hbytes, ?_⟩
      exact (hi.uplinks i).noQuit (hi.sessions i) hm (hbytes ▸ hr)
  refine ⟨h.healthy_step hi (fun _ _ _ => hread) hs, h.tidy, ?_⟩
  cases hs with
  | epoll hs =>
  cases hs with
  | read => exact h.owners

lemma Live.step [DecidableEq κ] (h : Live n) (hi : Inv u n g) {a : Action ι κ}
    (hc : Orderly n a) (hs : Transition n a n') : Live n' := by
  cases hs with
  | @start i r v hl =>
    refine h.update (h.tidy i) fun d hd => ?_
    rw [hl] at hd
    cases hd
  | accept hl _ hs => exact h.accept hi hl hs
  | read _ hr hs => exact h.read hi hc hr hs
  | eof hl hs => exact h.eof hi hl hs
  | server ha hs =>
    refine ⟨h.healthy_step hi ?_ hs, h.tidy, ?_⟩
    · rintro c r rfl
      cases ha
    · rw [connections_internal ha hs]
      exact h.owners
  | @send i => exact h.update (h.tidy i) fun _ hd => hd
  | @recv i a t hr hs =>
    obtain ⟨_, hheld⟩ := hi.receivers i
    refine h.update ((h.tidy i).step hheld ?_ hs) fun _ hd => hd
    cases a with
    | recv b d =>
      obtain ⟨x, _, hrun, _⟩ := (hi.downlinks i).frame hc hr
      exact ⟨x, hrun⟩
    | acquire | prepare | decode | enQueue | produce | signal | consume | wake | deQueue | copy
    | release => trivial

end Xty.Network
