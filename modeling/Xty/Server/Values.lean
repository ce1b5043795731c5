import Xty.Server.Chunks
import Xty.Server.Ownership

/-! Messages as values: what an object holds, and what a reference stands for. -/

namespace Xty.Server

open Xty.General.Runs Xty.General.LittleEndian Xty.General.Cursor
open Xty.Message

def State.value (s : State) (r : Reference) : Option MsgObject := s.objects[r.serial]?

/-- The object behind the reference is still the one that the reference was made for. -/
def Denotes (s : State) (r : Reference) : Prop :=
  ∀ cell ∈ s.memory r.ptr, cell.serial = r.serial

/-- Wherever a thread reads through a message pointer, it reads its own message. -/
def ByValue (s : State) : Action → Prop
  | .loop .callBack => ∀ r ∈ s.loop.held, Denotes s r
  | .send .copyStrings | .send .next => ∀ r ∈ s.send.held, Denotes s r
  | _ => True

/-- What holds of the objects whatever the threads do. -/
structure Remembered (s : State) : Prop where
  recorded : ∀ p cell, s.memory p = some cell → ∃ m, s.objects[cell.serial]? = some m ∧
    (cell.object = m ∨ cell.object = m.measured)
  tagged : ∀ m ∈ s.objects, m.Tagged
  fits : ∀ m ∈ s.objects, m.encodedSize ≤ serializeBufLen

section Values

variable {s t : State} {r : Reference} {m : MsgObject}

lemma Owned.byValue (h : Owned s) (a : Action) : ByValue s a := by
  have hden : ∀ r ∈ s.held, Denotes s r := by
    intro r hr cell hcell
    obtain ⟨⟨cell', hcell', hserial⟩, _⟩ := h.intact r hr
    obtain rfl := Option.some.inj (hcell'.symm.trans hcell)
    exact hserial
  have hloop : ∀ r ∈ s.loop.held, Denotes s r := fun r hr => hden r (by simp [State.held, hr])
  have hsend : ∀ r ∈ s.send.held, Denotes s r := fun r hr => hden r (by simp [State.held, hr])
  cases a with
  | epoll => trivial
  | loop a =>
    cases a with
    | callBack => exact hloop
    | getMsg | releaseEntity => trivial
  | send a =>
    cases a with
    | copyStrings | next => exact hsend
    | popMsg | lockTable | releaseEntity => trivial

lemma remembered_init (E : SerializeEntity) : Remembered (State.init E) where
  recorded _ _ h := by cases h
  tagged _ h := by cases h
  fits _ h := by cases h

lemma Remembered.congr (h : Remembered s) (hm : t.memory = s.memory) (ho : t.objects = s.objects) :
    Remembered t where
  recorded := hm ▸ ho ▸ h.recorded
  tagged := ho ▸ h.tagged
  fits := ho ▸ h.fits

lemma create_fits (t : MsgType) : t.create.encodedSize ≤ serializeBufLen := by
  cases t <;> decide

lemma create_tagged (t : MsgType) : t.create.Tagged := by
  cases t <;> rfl

lemma Remembered.make (h : Remembered s) {i p : ℕ} (hm : m.Tagged)
    (hs : m.encodedSize ≤ serializeBufLen) (ht : t.memory = (s.make i p m).memory)
    (ho : t.objects = s.objects ++ [m]) : Remembered t where
  recorded := by
    rw [ht, ho]
    exact Recorded.make h.recorded i p m
  tagged m' h' := by
    rw [ho] at h'
    rcases List.mem_append.mp h' with h' | h'
    · exact h.tagged m' h'
    · exact List.mem_singleton.mp h' ▸ hm
  fits m' h' := by
    rw [ho] at h'
    rcases List.mem_append.mp h' with h' | h'
    · exact h.fits m' h'
    · exact List.mem_singleton.mp h' ▸ hs

lemma Remembered.measure (h : Remembered s) {cell : Cell} (hcell : s.memory r.ptr = some cell)
    (hm : t.memory
      = Function.update s.memory r.ptr (some { cell with object := cell.object.measured }))
    (ho : t.objects = s.objects) : Remembered t where
  recorded := Recorded.measure h.recorded hcell hm ho
  tagged := ho ▸ h.tagged
  fits := ho ▸ h.fits

lemma Remembered.cell_object (h : Remembered s) {cell : Cell} (hcell : s.memory r.ptr = some cell) :
    cell.object.Tagged ∧ cell.object.encodedSize ≤ serializeBufLen ∧
      ∃ m ∈ s.objects, cell.object.type = m.type := by
  obtain ⟨m, hm, hobj⟩ := h.recorded r.ptr cell hcell
  have hmem := List.mem_of_getElem? hm
  have htag := h.tagged m hmem
  have hfits := h.fits m hmem
  rcases hobj with hobj | hobj <;> rw [hobj]
  · exact ⟨htag, hfits, m, hmem, rfl⟩
  · rw [MsgObject.encodedSize, MsgObject.measured_strings]
    exact ⟨htag.measured, hfits, m, hmem, MsgObject.measured_type m⟩

lemma Remembered.step (h : Remembered s) {a : Action} (hs : Transition s a t) : Remembered t := by
  cases hs with
  | epoll hs =>
    cases hs with
    | @deSerialize _ _ d _ _ _ _ _ _ hdec =>
      exact h.make (decoded_tagged hdec) ((decoded_fits hdec).trans d.fits) rfl rfl
    | raise _ _ _ hprep =>
      obtain ⟨t, _, rfl⟩ := prepare_inv hprep
      exact h.make (create_tagged t) (create_fits t) rfl rfl
    | refuse | accept | addClient | find | findNone | wouldBlock | eof | removeClient | read
    | acquireEntity | pushMsg => exact h.congr rfl rfl
  | loop hs => cases hs <;> exact h.congr rfl rfl
  | send hs =>
    cases hs with
    | write _ _ hcell => exact h.measure hcell rfl rfl
    | popMsg | copyStrings | lockTable | unlock | skip | release => exact h.congr rfl rfl

/-- The callback that the table has for the type of a message, when its class is the same. -/
def callBackOf : MsgObject → CallBack
  | .dull _ => .ignore
  | .quit _ => .quit
  | .reg m => .reg m
  | .deReg m => .deReg m
  | .data _ => .data

lemma callBackFun_tagged (hm : m.Tagged) : callBackFun m = some (callBackOf m) := by
  rw [MsgObject.Tagged] at hm
  unfold callBackFun
  rw [hm]
  cases m <;> rfl

lemma callBackFun_eq {m' : MsgObject} (hm : m.Tagged) (hobj : m' = m ∨ m' = m.measured)
    {f : CallBack} (hf : callBackFun m' = some f) : f = callBackOf m' := by
  have hm' : m'.Tagged := by
    rcases hobj with rfl | rfl
    · exact hm
    · exact hm.measured
  rw [callBackFun_tagged hm'] at hf
  exact (Option.some.inj hf).symm

lemma Remembered.read (h : Remembered s) (hr : Denotes s r) {cell : Cell}
    (hcell : s.memory r.ptr = some cell) :
    ∃ m, s.value r = some m ∧ (cell.object = m ∨ cell.object = m.measured) := by
  obtain ⟨m, hm, hobj⟩ := h.recorded r.ptr cell hcell
  rw [hr cell hcell] at hm
  exact ⟨m, hm, hobj⟩

lemma Remembered.callBack (h : Remembered s) (hv : ByValue s (.loop .callBack))
    (hpc : s.loop = .handling r) {cell : Cell} (hcell : s.memory r.ptr = some cell) {f : CallBack}
    (hfun : callBackFun cell.object = some f) :
    ∃ m, s.value r = some m ∧ (f = callBackOf m ∨ f = callBackOf m.measured) := by
  have hr : Denotes s r := hv r (by rw [hpc]; exact List.mem_singleton.mpr rfl)
  obtain ⟨m, hm, hobj⟩ := h.read hr hcell
  have hf := callBackFun_eq (h.tagged m (List.mem_of_getElem? hm)) hobj hfun
  refine ⟨m, hm, ?_⟩
  rcases hobj with hobj | hobj
  · exact Or.inl (hobj ▸ hf)
  · exact Or.inr (hobj ▸ hf)

lemma Transition.objects_grow {a : Action} (h : Transition s a t) : s.objects <+: t.objects := by
  cases h with
  | epoll h =>
    cases h with
    | deSerialize | raise => exact List.prefix_append _ _
    | refuse | accept | addClient | find | findNone | wouldBlock | eof | removeClient | read
    | acquireEntity | pushMsg => exact List.prefix_rfl
  | loop h => cases h <;> exact List.prefix_rfl
  | send h => cases h <;> exact List.prefix_rfl

lemma value_mono (h : s.objects <+: t.objects) (hm : s.value r = some m) : t.value r = some m := by
  obtain ⟨l, hl⟩ := h
  rw [State.value, ← hl, List.getElem?_append_left (List.getElem?_eq_some_iff.mp hm).1]
  exact hm

end Values

end Xty.Server
