import Xty.Server.Framing
import Xty.Server.Losses

/-! The epoll thread can go on with what it has in hand, unless it waits for an entity. -/

namespace Xty.Server

open Xty.General.LittleEndian
open Xty.Message

def EpollPc.Brings (P : MsgObject → Prop) : EpollPc → Prop
  | .received _ b r | .acquired _ b r _ => ∃ m, decodedRead b r = some m ∧ P m
  | .deSerialized _ _ m => P m
  | .polling | .accepted .. | .found .. | .closed .. => True

/-- The chunks that are read are messages other than `Quit`, so that no thread of the server ends;
and an object that is not deleted is the one that its entity will delete. -/
structure Healthy (s : State) : Prop where
  objects : ∀ m ∈ s.objects, m.type ≠ .quitMsg
  hands : s.epoll.Brings fun m => m.type ≠ .quitMsg
  inside : s.loop ≠ .exited
  serializer : s.serializer.isOccupied = s.send.serializes
  length : s.entities.length = serverDeSerializeEntityNum
  kept : ∀ p, s.memory p ≠ none → ∃ i, s.entities.owned i = some p

section Invariant

variable {s t : State} {a : Action}

lemma brings_step {P : MsgObject → Prop} (h : ∀ m ∈ s.objects, P m) (hp : s.epoll.Brings P)
    (hread : ∀ c r, a = .epoll (.read c r) → t.epoll.Brings P) (hs : Transition s a t) :
    (∀ m ∈ t.objects, P m) ∧ t.epoll.Brings P := by
  cases hs with
  | epoll hs =>
    cases hs with
    | accept | addClient | find | wouldBlock | eof | removeClient | pushMsg => exact ⟨h, trivial⟩
    | refuse | findNone => exact ⟨h, hp⟩
    | read => exact ⟨h, hread _ _ rfl⟩
    | acquireEntity hpc =>
      rw [hpc] at hp
      exact ⟨h, hp⟩
    | @deSerialize c b d i p m a hpc _ hdec =>
      rw [hpc] at hp
      obtain ⟨m', hm', hP⟩ := hp
      have hm : decodedRead b d = some m := by
        rw [decodedRead, hdec]
      obtain rfl := Option.some.inj (hm'.symm.trans hm)
      refine ⟨fun x hx => ?_, hP⟩
      rcases List.mem_append.mp hx with hx | hx
      · exact h x hx
      · exact List.mem_singleton.mp hx ▸ hP
    | @raise c b d i p m e hpc _ hdec =>
      rw [hpc] at hp
      obtain ⟨m', hm', _⟩ := hp
      rw [decodedRead, hdec] at hm'
      cases hm'
  | loop hs => cases hs <;> exact ⟨h, hp⟩
  | send hs => cases hs <;> exact ⟨h, hp⟩

lemma handlesNoQuit (hr : Remembered s) (ho : ∀ m ∈ s.objects, m.type ≠ .quitMsg) :
    HandlesNoQuit s a := by
  cases a with
  | epoll | send => trivial
  | loop a =>
    cases a with
    | getMsg | releaseEntity => trivial
    | callBack =>
      intro r _ cell hcell
      obtain ⟨_, _, m, hm, htype⟩ := hr.cell_object hcell
      rw [htype]
      exact ho m hm

lemma kept_make {i p : ℕ} {m : MsgObject} {E : DeSerializeEntity}
    (h : ∀ q, s.memory q ≠ none → ∃ j, s.entities.owned j = some q)
    (hi : s.entities[i]? = some E) (q : ℕ) (hq : (s.make i p m).memory q ≠ none) :
    ∃ j, (s.make i p m).entities.owned j = some q := by
  rw [make_memory, Function.update_apply] at hq
  split_ifs at hq with hqp
  · exact ⟨i, by rw [hqp]; exact EntityArray.hold_owned hi⟩
  · obtain ⟨cell, hcell⟩ := Option.ne_none_iff_exists'.mp hq
    obtain ⟨j, hj⟩ := h q (by rw [memory_of_freed hcell]; exact Option.some_ne_none _)
    have hij : i ≠ j := by
      rintro rfl
      rw [State.freed, hj] at hcell
      simp at hcell
    exact ⟨j, by rw [make_entities, EntityArray.hold_owned_ne hij]; exact hj⟩

lemma kept_step (h : ∀ p, s.memory p ≠ none → ∃ i, s.entities.owned i = some p) (ho : Owned s)
    (hs : Transition s a t) : ∀ p, t.memory p ≠ none → ∃ i, t.entities.owned i = some p := by
  cases hs with
  | epoll hs =>
    cases hs with
    | acquireEntity _ hacq =>
      intro p hp
      obtain ⟨i, hi⟩ := h p hp
      exact ⟨i, (EntityArray.acquire_owned hacq).trans hi⟩
    | deSerialize hpc | raise hpc =>
      obtain ⟨_, hi⟩ := (ho.acquired _ _ _ _ hpc).1
      exact kept_make h hi
    | refuse | accept | addClient | find | findNone | wouldBlock | eof | removeClient | read
    | pushMsg => exact h
  | loop hs =>
    cases hs with
    | release =>
      intro p hp
      obtain ⟨i, hi⟩ := h p hp
      exact ⟨i, (EntityArray.release_owned _ _).trans hi⟩
    | getMsg | drop | reg | deReg | data => exact h
  | send hs =>
    cases hs with
    | release =>
      intro p hp
      obtain ⟨i, hi⟩ := h p hp
      exact ⟨i, (EntityArray.release_owned _ _).trans hi⟩
    | @write r _ _ _ _ _ cell _ _ hcell =>
      intro p hp
      refine h p fun hnone => hp ?_
      change Function.update s.memory r.ptr _ p = none
      rw [Function.update_of_ne, hnone]
      rintro rfl
      rw [hcell] at hnone
      cases hnone
    | popMsg | copyStrings | lockTable | unlock | skip => exact h

lemma healthy_init (E : SerializeEntity) : Healthy (State.init E) where
  objects := nofun
  hands := trivial
  inside := by simp [State.init]
  serializer := rfl
  length := List.length_replicate
  kept _ h := absurd rfl h

lemma Healthy.step (h : Healthy s) (ho : Owned s) (hr : Remembered s)
    (hread : ∀ c r, a = .epoll (.read c r) → t.epoll.Brings fun m => m.type ≠ .quitMsg)
    (hs : Transition s a t) : Healthy t := by
  obtain ⟨hobjects, hhands⟩ := brings_step h.objects h.hands hread hs
  exact ⟨hobjects, hhands, (exited_iff hr h.inside hs).mpr (handlesNoQuit hr h.objects),
    serializer_step hs h.serializer, (entities_length hs).trans h.length, kept_step h.kept ho hs⟩

end Invariant

section Progress

variable {s : State}

lemma Healthy.fresh (h : Healthy s) (i : ℕ) : ∃ p, s.freed i p = none := by
  obtain ⟨p, hp⟩ := Infinite.exists_notMem_finset
    (s.entities.filterMap DeSerializeEntity.deSerializedMsg).toFinset
  refine ⟨p, ?_⟩
  by_contra hne
  obtain ⟨cell, hcell⟩ := Option.ne_none_iff_exists'.mp hne
  obtain ⟨j, hj⟩ := h.kept p (by rw [memory_of_freed hcell]; exact Option.some_ne_none _)
  obtain ⟨E, hE, hown⟩ := Option.bind_eq_some_iff.mp hj
  refine hp (List.mem_toFinset.mpr (List.mem_filterMap.mpr ⟨E, List.mem_of_getElem? hE, hown⟩))

lemma Healthy.decodes (h : Healthy s) {c : Connection} {b : RecvBuffer} {r : ReadBytes} {i : ℕ}
    (hpc : s.epoll = .acquired c b r i) :
    ∃ p t, Server.step s (.epoll (.deSerialize p)) = some t := by
  obtain ⟨p, hp⟩ := h.fresh i
  have hhands := h.hands
  rw [hpc] at hhands
  obtain ⟨m, hm, _⟩ := hhands
  rw [decodedRead] at hm
  split at hm
  · next x hdec =>
    have hprep := (deSerialize_headType hdec).prepare
    refine ⟨p, ?_⟩
    simp [Server.step, epollStep, hpc, hp, prepareAndDecode, hprep, hdec]
  · cases hm

/-- The steps that the epoll thread makes without an event on a socket. -/
def EpollAction.Inner : EpollAction → Prop
  | .addClient | .removeClient | .acquireEntity | .deSerialize _ | .pushMsg => True
  | .accept .. | .findFd _ | .wouldBlock | .eof _ | .read .. => False

def Idles (s : State) : Prop :=
  s.epoll = .polling ∨ (∃ k fd b, s.epoll = .found k fd b) ∨
    (∃ c b r, s.epoll = .received c b r) ∧ s.entities.acquireEntity = none

lemma Healthy.polls (h : Healthy s) (hlock : s.send.locksTable = false) :
    Idles s ∨ ∃ a t, a.Inner ∧ Server.step s (.epoll a) = some t := by
  cases hpc : s.epoll with
  | polling => exact .inl (.inl hpc)
  | found k fd b => exact .inl (.inr (.inl ⟨k, fd, b, hpc⟩))
  | accepted c b =>
    refine .inr ⟨.addClient, ?_⟩
    simp [EpollAction.Inner, Server.step, epollStep, hpc, hlock]
  | closed c k =>
    refine .inr ⟨.removeClient, ?_⟩
    simp [EpollAction.Inner, Server.step, epollStep, hpc, hlock]
  | received c b r =>
    cases hacq : s.entities.acquireEntity with
    | none => exact .inl (.inr (.inr ⟨⟨c, b, r, hpc⟩, hacq⟩))
    | some r =>
      refine .inr ⟨.acquireEntity, ?_⟩
      simp [EpollAction.Inner, Server.step, epollStep, hpc, hacq]
  | acquired c b r i =>
    obtain ⟨p, t, ht⟩ := h.decodes hpc
    exact .inr ⟨.deSerialize p, t, trivial, ht⟩
  | deSerialized c r m =>
    refine .inr ⟨.pushMsg, ?_⟩
    simp [EpollAction.Inner, Server.step, epollStep, hpc]

lemma Healthy.waits (h : Healthy s) (hrest : AtRest s) :
    s.loop = .waiting ∧ s.recvMsgQueue = [] := hrest.loop.resolve_left h.inside

/-- An epoll thread that waits for an entity while the other threads are at rest waits for ever. -/
lemma Healthy.all_lost (h : Healthy s) (hrest : AtRest s) {c : Connection} {b : RecvBuffer}
    {r : ReadBytes} (hpc : s.epoll = .received c b r) (hacq : s.entities.acquireEntity = none) :
    ∀ i < serverDeSerializeEntityNum, Lost s i := by
  have hheld : s.held = [] := by
    rw [hrest.held (h.waits hrest).1, hpc]
    rfl
  intro i hi
  obtain ⟨m, hm⟩ := acquireEntity_none.mp hacq i (h.length ▸ hi)
  exact lost_of_occupied hheld (by rw [hpc]; rfl) hm

end Progress

end Xty.Server
