import Mathlib.Tactic

/-! Segments of shared memory that the kernel keeps under keys and under ids. -/

namespace Xty.General.Segments

/-- The key of a `marked` segment is free again, and the segment goes with the last who is attached
to it. -/
structure Segment (ι : Type) where
  key : ℕ
  size : ℕ
  marked : Bool
  attached : List ι
deriving DecidableEq

/-- No id is used again. -/
structure Kernel (ι : Type) where
  segment : ℕ → Option (Segment ι)
  byKey : ℕ → Option ℕ
  next : ℕ

variable {ι : Type}

namespace Kernel

def empty : Kernel ι := ⟨fun _ => none, fun _ => none, 0⟩

def store (K : Kernel ι) (id : ℕ) (g : Segment ι) : Kernel ι :=
  { K with
    segment := Function.update K.segment id (if g.marked ∧ g.attached = [] then none else g) }

def shmget (K : Kernel ι) (key size : ℕ) : Option (ℕ × Kernel ι) :=
  match K.byKey key with
  | some id => (K.segment id).bind fun g => if size ≤ g.size then some (id, K) else none
  | none =>
    if size = 0 then none
    else some (K.next, { K.store K.next ⟨key, size, false, []⟩ with
      byKey := Function.update K.byKey key (some K.next), next := K.next + 1 })

def shmat (K : Kernel ι) (id : ℕ) (i : ι) : Option (Kernel ι) :=
  (K.segment id).map fun g => K.store id { g with attached := i :: g.attached }

def nattch (K : Kernel ι) (id : ℕ) : Option ℕ := (K.segment id).map fun g => g.attached.length

def rmid (K : Kernel ι) (id : ℕ) : Option (Kernel ι) :=
  (K.segment id).map fun g => { K.store id { g with marked := true } with
    byKey := if g.marked then K.byKey else Function.update K.byKey g.key none }

def shmdt [DecidableEq ι] (K : Kernel ι) (id : ℕ) (i : ι) : Option (Kernel ι) :=
  (K.segment id).bind fun g =>
    if i ∈ g.attached then some (K.store id { g with attached := g.attached.erase i }) else none

end Kernel

section Single

variable {K : Kernel ι} {key size id : ℕ} {A : List ι} {i : ι}

structure Clear (K : Kernel ι) (key : ℕ) : Prop where
  segment : K.segment = fun _ => none
  byKey : K.byKey key = none

/-- There is one segment, which the key leads to. -/
structure Holds (K : Kernel ι) (key size id : ℕ) (A : List ι) : Prop where
  segment : K.segment = Function.update (fun _ => none) id (some ⟨key, size, false, A⟩)
  byKey : K.byKey key = some id

lemma Holds.segment_eq (h : Holds K key size id A) :
    K.segment id = some ⟨key, size, false, A⟩ := by
  rw [h.segment, Function.update_self]

lemma Holds.unique {id' : ℕ} (h : Holds K key size id A) (hid : K.segment id' ≠ none) :
    id' = id := by
  by_contra hne
  rw [h.segment, Function.update_of_ne hne] at hid
  exact hid rfl

lemma Holds.store {B : List ι} (h : Holds K key size id A) :
    Holds (K.store id ⟨key, size, false, B⟩) key size id B where
  segment := by
    rw [Kernel.store, h.segment, Function.update_idem]
    rfl
  byKey := h.byKey

lemma Holds.shmget (h : Holds K key size id A) : K.shmget key size = some (id, K) := by
  rw [Kernel.shmget, h.byKey]
  change (K.segment id).bind _ = _
  rw [h.segment_eq, Option.bind_some, if_pos le_rfl]

lemma Clear.shmget (h : Clear K key) (hsize : 0 < size) :
    ∃ K', K.shmget key size = some (K.next, K') ∧ Holds K' key size K.next [] := by
  rw [Kernel.shmget, h.byKey]
  refine ⟨_, if_neg hsize.ne', ⟨?_, Function.update_self _ _ _⟩⟩
  rw [Kernel.store, h.segment]
  rfl

lemma Holds.shmat (h : Holds K key size id A) (i : ι) :
    ∃ K', K.shmat id i = some K' ∧ Holds K' key size id (i :: A) := by
  rw [Kernel.shmat, h.segment_eq]
  exact ⟨_, rfl, h.store⟩

lemma Holds.shmdt [DecidableEq ι] (h : Holds K key size id A) (hi : i ∈ A) :
    ∃ K', K.shmdt id i = some K' ∧ Holds K' key size id (A.erase i) := by
  rw [Kernel.shmdt, h.segment_eq]
  exact ⟨_, if_pos hi, h.store⟩

lemma Holds.nattch (h : Holds K key size id A) : K.nattch id = some A.length := by
  rw [Kernel.nattch, h.segment_eq]
  rfl

lemma Holds.rmid (h : Holds K key size id []) : ∃ K', K.rmid id = some K' ∧ Clear K' key := by
  rw [Kernel.rmid, h.segment_eq]
  refine ⟨_, rfl, ?_, Function.update_self _ _ _⟩
  change Function.update K.segment id none = _
  rw [h.segment, Function.update_idem]
  exact Function.update_eq_self id fun _ => none

end Single

end Xty.General.Segments
