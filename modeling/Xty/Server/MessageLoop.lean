import Xty.Server.Values

/-! The message that makes the loop thread leave `EnterMsgLoop`, and the chunks it comes from. -/

namespace Xty.Server

open Xty.General.Runs Xty.General.LittleEndian Xty.General.Cursor
open Xty.Message

def HandlesNoQuit (s : State) : Action → Prop
  | .loop .callBack => ∀ r ∈ s.loop.held, ∀ cell ∈ s.memory r.ptr, cell.object.type ≠ .quitMsg
  | _ => True

def ReadsNoQuit (_ : State) : Action → Prop
  | .epoll (.read _ r) => ∀ b : RecvBuffer, ¬ HeadType (b.region r) .quitMsg
  | _ => True

section Leaving

variable {s t : State} {r : Reference} {cell : Cell}

lemma Remembered.callBackFun_cell (h : Remembered s) (hcell : s.memory r.ptr = some cell) :
    callBackFun cell.object = some (callBackOf cell.object) :=
  callBackFun_tagged (h.cell_object hcell).1

lemma callBackOf_quit {m : MsgObject} : callBackOf m = .quit ↔ m.type = .quitMsg := by
  cases m <;> simp [callBackOf, MsgObject.type]

lemma callBack_exited (h : Remembered s) (hpc : s.loop = .handling r)
    (hcell : s.memory r.ptr = some cell) {f : CallBack}
    (hfun : callBackFun cell.object = some f) :
    HandlesNoQuit s (.loop .callBack) ↔ f ≠ .quit := by
  rw [h.callBackFun_cell hcell] at hfun
  obtain rfl := Option.some.inj hfun
  rw [Ne, callBackOf_quit]
  simp [HandlesNoQuit, hpc, LoopPc.held, hcell]

lemma exited_iff (h : Remembered s) (hin : s.loop ≠ .exited) {a : Action} (hs : Transition s a t) :
    t.loop ≠ .exited ↔ HandlesNoQuit s a := by
  cases hs with
  | epoll hs => cases hs <;> exact iff_of_true hin trivial
  | send hs => cases hs <;> exact iff_of_true hin trivial
  | loop hs =>
    cases hs with
    | getMsg | release => exact iff_of_true (by simp) trivial
    | drop hpc hcell hfun hend =>
      rw [callBack_exited h hpc hcell hfun]
      obtain ⟨rfl, rfl⟩ | ⟨rfl, rfl⟩ := hend <;> simp
    | reg hpc hcell hfun | deReg hpc hcell hfun | data hpc hcell hfun =>
      rw [callBack_exited h hpc hcell hfun]
      simp

lemma callBack_enabled (h : Remembered s) (hpc : s.loop = .handling r)
    (hcell : s.memory r.ptr = some cell) (hlock : s.send.locksTable = false) :
    ∃ t, step s (.loop .callBack) = some t := by
  have hfun := h.callBackFun_cell hcell
  simp only [step, loopStep, hpc, hcell, hfun, Option.bind_eq_bind, Option.bind_some]
  cases callBackOf cell.object <;> simp [runCallBack, hlock]

def EpollPc.chunk : EpollPc → Option (RecvBuffer × ReadBytes)
  | .received _ b r | .acquired _ b r _ => some (b, r)
  | .polling | .accepted .. | .found .. | .closed .. | .deSerialized .. => none

structure NoQuitMade (s : State) : Prop where
  remembered : Remembered s
  objects : ∀ m ∈ s.objects, m.type ≠ .quitMsg
  chunk : ∀ p ∈ s.epoll.chunk, ¬ HeadType (p.1.region p.2) .quitMsg

lemma noQuitMade_init (E : SerializeEntity) : NoQuitMade (State.init E) where
  remembered := remembered_init E
  objects _ h := by cases h
  chunk _ h := by cases h

lemma NoQuitMade.make (h : NoQuitMade s) (ht : Remembered t) {m : MsgObject}
    (hm : m.type ≠ .quitMsg) (ho : t.objects = s.objects ++ [m]) (hc : t.epoll.chunk = none) :
    NoQuitMade t where
  remembered := ht
  objects m' hm' := by
    rw [ho] at hm'
    rcases List.mem_append.mp hm' with hm' | hm'
    · exact h.objects m' hm'
    · exact List.mem_singleton.mp hm' ▸ hm
  chunk p hp := by
    rw [hc] at hp
    cases hp

lemma NoQuitMade.frame (h : NoQuitMade s) (ht : Remembered t) (ho : t.objects = s.objects)
    (hc : t.epoll.chunk = none ∨ t.epoll.chunk = s.epoll.chunk) : NoQuitMade t where
  remembered := ht
  objects := ho ▸ h.objects
  chunk p hp := by
    rcases hc with hc | hc <;> rw [hc] at hp
    · cases hp
    · exact h.chunk p hp

lemma NoQuitMade.step (h : NoQuitMade s) {a : Action} (hr : ReadsNoQuit s a)
    (hs : Transition s a t) : NoQuitMade t := by
  have ht := h.remembered.step hs
  cases hs with
  | epoll hs =>
    cases hs with
    | read =>
      refine ⟨ht, h.objects, ?_⟩
      rintro _ ⟨⟩
      exact hr _
    | acquireEntity hpc => exact h.frame ht rfl (Or.inr (by rw [hpc]; rfl))
    | deSerialize hpc _ hdec =>
      have hc := h.chunk _ (by rw [hpc]; rfl)
      exact h.make ht (fun hq => hc (hq ▸ deSerialize_headType hdec)) rfl rfl
    | raise hpc _ _ hprep =>
      have hc := h.chunk _ (by rw [hpc]; rfl)
      obtain ⟨u, hu, rfl⟩ := prepare_inv hprep
      refine h.make ht (fun hq => hc ?_) rfl rfl
      rw [MsgObject.create_type] at hq
      exact hq ▸ hu
    | refuse | findNone => exact h.frame ht rfl (Or.inr rfl)
    | accept | addClient | find | wouldBlock | eof | removeClient | pushMsg =>
      exact h.frame ht rfl (Or.inl rfl)
  | loop hs => cases hs <;> exact h.frame ht rfl (Or.inr rfl)
  | send hs => cases hs <;> exact h.frame ht rfl (Or.inr rfl)

lemma NoQuitMade.handlesNoQuit (h : NoQuitMade s) (a : Action) : HandlesNoQuit s a := by
  have hcell : ∀ r : Reference, ∀ cell ∈ s.memory r.ptr, cell.object.type ≠ .quitMsg := by
    intro r cell hc
    obtain ⟨_, _, m, hm, htype⟩ := h.remembered.cell_object hc
    rw [htype]
    exact h.objects m hm
  cases a with
  | epoll | send => trivial
  | loop a =>
    cases a with
    | callBack => exact fun r _ => hcell r
    | getMsg | releaseEntity => trivial

lemma exited_stays {a : Action} (h : s.loop = .exited) (hs : Transition s a t) :
    t.loop = .exited := by
  cases hs with
  | epoll hs => cases hs <;> exact h
  | send hs => cases hs <;> exact h
  | loop hs =>
    cases hs with
    | getMsg hpc | drop hpc | reg hpc | deReg hpc | data hpc | release hpc =>
      rw [h] at hpc
      cases hpc

instance (s : State) : (a : Action) → Decidable (HandlesNoQuit s a)
  | .loop .callBack =>
    inferInstanceAs (Decidable (∀ r ∈ s.loop.held, ∀ cell ∈ s.memory r.ptr, _ ≠ _))
  | .loop .getMsg | .loop .releaseEntity | .epoll _ | .send _ => isTrue trivial

end Leaving

end Xty.Server
