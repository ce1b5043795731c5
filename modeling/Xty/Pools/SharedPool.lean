import Xty.General.Counting
import Xty.General.Runs
import Xty.Pools.Allocation

/-! `xtySharedPool`: threads that take the project ids of their shared segments from one array. A
lock-protected section is one step, unless it creates a segment. -/

namespace Xty.Pools.SharedPool

open Xty.General.Runs Xty.General.Counting

-- Four bytes and a pointer to the virtual functions for a spinlock, four pointers, two integers
-- that are padded, and the seventeen integers behind the spinlock of the array.
def sizeofSpinLock : ℕ := 16
def sizeofSharedLargeBlock : ℕ := 24
def sizeofSharedPoolNode : ℕ := 48
def sizeofSharedPool : ℕ := 8 + sizeofSpinLock + sizeofSharedPoolNode + 8
def sizeofProjIDArray : ℕ := 88

def projIDArraySize : ℕ := 16

def projIDArray : List ℕ :=
  [0, 16, 32, 48, 64, 80, 96, 112, 128, 144, 160, 176, 192, 208, 224, 240]

/-- What a segment is created for: a node that a block of the size is cut from, which is the header
of a large block or not, or the data of a large block. A thread has the lock for a node. -/
inductive Task where
  | node (size : ℕ) (header : Bool)
  | block
deriving DecidableEq, Repr

/-- At `overrun` a thread has read behind the end of the array. -/
inductive Pc where
  | idle
  | small (size : ℕ) (header : Bool)
  | testing (t : Task)
  | drawing (t : Task)
  | drawn (t : Task) (projID : ℕ)
  | attached (t : Task) (addr : ℕ)
  | refused
  | overrun
deriving DecidableEq, Repr

structure State (ι : Type) where
  nodes : List PoolNode
  poolLock : Option ι
  projIDIndex : ℕ
  segments : List ℕ
  pc : ι → Pc

inductive Action (ι : Type) where
  | allocate (i : ι) (size : ℕ)
  | search (i : ι)
  | test (i : ι)
  | draw (i : ι)
  | attach (i : ι) (addr : ℕ)
  | finish (i : ι)

variable {ι : Type}

def State.create (addr : ℕ) : State ι where
  nodes := [⟨addr, addr + sizeofSharedPool + sizeofProjIDArray, addr + defaultPoolSize⟩]
  poolLock := none
  projIDIndex := 1
  segments := projIDArray.take 1
  pc := fun _ => .idle

/-- No result means that no node has the room. -/
def searchShared (size : ℕ) : List PoolNode → Option (List PoolNode)
  | [] => none
  | n :: ns =>
    if size ≤ n.room then some (n.take size :: ns)
    else (searchShared size ns).map fun ns => n :: ns

def createNode (addr : ℕ) : PoolNode :=
  ⟨addr, addr + sizeofSharedPoolNode, addr + defaultPoolSize⟩

def Pc.afterSmall (header : Bool) : Pc := if header then .testing .block else .idle

def Pc.isDrawing : Pc → Bool
  | .drawing _ => true
  | .idle | .small _ _ | .testing _ | .drawn _ _ | .attached _ _ | .refused | .overrun => false

section Steps

variable [DecidableEq ι]

def State.goto (s : State ι) (i : ι) (c : Pc) : State ι :=
  { s with pc := Function.update s.pc i c }

lemma pc_goto {s : State ι} {i j : ι} {b c : Pc} (h : (s.goto i c).pc j = b) :
    (j = i ∧ b = c) ∨ j ≠ i ∧ s.pc j = b := by
  by_cases hj : j = i
  · subst hj
    exact Or.inl ⟨rfl, h.symm.trans (Function.update_self _ _ _)⟩
  · exact Or.inr ⟨hj, (Function.update_of_ne hj _ _).symm.trans h⟩

def allocate (s : State ι) (i : ι) (size : ℕ) : State ι :=
  if largeBlockSize - sizeofSharedPool < size then s.goto i (.small sizeofSharedLargeBlock true)
  else s.goto i (.small size false)

def search (s : State ι) (i : ι) (size : ℕ) (header : Bool) : State ι :=
  match searchShared size s.nodes with
  | some nodes => { s.goto i (.afterSmall header) with nodes := nodes }
  | none => { s.goto i (.testing (.node size header)) with poolLock := some i }

/-- The range check, which takes no lock. -/
def test (s : State ι) (i : ι) (t : Task) : State ι :=
  if projIDArraySize ≤ s.projIDIndex then s.goto i .refused else s.goto i (.drawing t)

def draw (s : State ι) (i : ι) (t : Task) : State ι :=
  match projIDArray[s.projIDIndex]? with
  | some projID => { s.goto i (.drawn t projID) with projIDIndex := s.projIDIndex + 1 }
  | none => { s.goto i .overrun with projIDIndex := s.projIDIndex + 1 }

def finish (s : State ι) (i : ι) (addr : ℕ) : Task → Option (State ι)
  | .node size header => some { s.goto i (.afterSmall header) with
      nodes := s.nodes ++ [(createNode addr).take size]
      poolLock := none }
  | .block => if s.poolLock = none then some (s.goto i .idle) else none

def step (s : State ι) : Action ι → Option (State ι)
  | .allocate i size => if s.pc i = .idle then some (allocate s i size) else none
  | .search i =>
    match s.pc i with
    | .small size header => if s.poolLock = none then some (search s i size header) else none
    | _ => none
  | .test i =>
    match s.pc i with
    | .testing t => some (test s i t)
    | _ => none
  | .draw i =>
    match s.pc i with
    | .drawing t => some (draw s i t)
    | _ => none
  | .attach i addr =>
    match s.pc i with
    | .drawn t projID =>
      some { s.goto i (.attached t addr) with segments := s.segments ++ [projID] }
    | _ => none
  | .finish i =>
    match s.pc i with
    | .attached t addr => finish s i addr t
    | _ => none

/-- The step of a thread that neither passes the range check nor holds an id. -/
def Quiet (s t : State ι) : Prop :=
  ∃ i c, (c.isDrawing = false ∧ c ≠ .overrun ∧ ∀ u x, c ≠ .drawn u x) ∧
    t = ⟨t.nodes, t.poolLock, s.projIDIndex, s.segments, (s.goto i c).pc⟩

lemma quiet_afterSmall (header : Bool) : (Pc.afterSmall header).isDrawing = false ∧
    Pc.afterSmall header ≠ .overrun ∧ ∀ u x, Pc.afterSmall header ≠ .drawn u x := by
  cases header <;> simp [Pc.afterSmall, Pc.isDrawing]

lemma step_cases {s t : State ι} {a : Action ι} (h : step s a = some t) : Quiet s t ∨
    (∃ i u, a = .test i ∧ s.projIDIndex < projIDArraySize ∧ t = s.goto i (.drawing u)) ∨
    (∃ i u, s.pc i = .drawing u ∧ t = draw s i u) ∨
    ∃ i u x addr, s.pc i = .drawn u x ∧
      t = { s.goto i (.attached u addr) with segments := s.segments ++ [x] } := by
  cases a with
  | allocate i size =>
    rw [step] at h
    split_ifs at h
    obtain rfl := Option.some.inj h
    rw [allocate]
    split_ifs
    · exact Or.inl ⟨i, .small sizeofSharedLargeBlock true, by simp [Pc.isDrawing], rfl⟩
    · exact Or.inl ⟨i, .small size false, by simp [Pc.isDrawing], rfl⟩
  | search i =>
    simp only [step] at h
    split at h
    · next size header _ =>
      split_ifs at h
      obtain rfl := Option.some.inj h
      rw [search]
      split
      · exact Or.inl ⟨i, _, quiet_afterSmall header, rfl⟩
      · exact Or.inl ⟨i, .testing (.node size header), by simp [Pc.isDrawing], rfl⟩
    · cases h
  | test i =>
    simp only [step] at h
    split at h
    · next u _ =>
      obtain rfl := Option.some.inj h
      rw [test]
      split_ifs with hi
      · exact Or.inl ⟨i, .refused, by simp [Pc.isDrawing], rfl⟩
      · exact Or.inr (Or.inl ⟨i, u, rfl, not_le.mp hi, rfl⟩)
    · cases h
  | draw i =>
    simp only [step] at h
    split at h
    · next u hi =>
      obtain rfl := Option.some.inj h
      exact Or.inr (Or.inr (Or.inl ⟨i, u, hi, rfl⟩))
    · cases h
  | attach i addr =>
    simp only [step] at h
    split at h
    · next u x hi =>
      obtain rfl := Option.some.inj h
      exact Or.inr (Or.inr (Or.inr ⟨i, u, x, addr, hi, rfl⟩))
    · cases h
  | finish i =>
    simp only [step] at h
    split at h
    · next u addr _ =>
      cases u with
      | node size header =>
        obtain rfl := Option.some.inj h
        exact Or.inl ⟨i, _, quiet_afterSmall header, rfl⟩
      | block =>
        rw [finish] at h
        split_ifs at h
        obtain rfl := Option.some.inj h
        exact Or.inl ⟨i, .idle, by simp [Pc.isDrawing], rfl⟩
    · cases h

end Steps

variable [Fintype ι]

/-- The threads that have passed the range check and not yet taken their id. -/
def State.drawing (s : State ι) : ℕ := count true (Pc.isDrawing ∘ s.pc)

/-- A thread passes the range check only if there is an id for it besides those for the threads
that have passed it before. -/
def InTime (s : State ι) : Action ι → Prop
  | .test _ => s.projIDIndex < projIDArraySize → s.projIDIndex + s.drawing < projIDArraySize
  | .allocate _ _ | .search _ | .draw _ | .attach _ _ | .finish _ => True

structure Inv (s : State ι) : Prop where
  room : s.projIDIndex + s.drawing ≤ projIDArraySize
  inRange : ∀ i, s.pc i ≠ .overrun
  used : ∀ x ∈ s.segments, x ∈ projIDArray.take s.projIDIndex
  pending : ∀ i t x, s.pc i = .drawn t x → x ∈ projIDArray.take s.projIDIndex ∧ x ∉ s.segments
  apart : ∀ i j t u x, s.pc i = .drawn t x → s.pc j = .drawn u x → i = j
  distinct : s.segments.Nodup

lemma inv_create (addr : ℕ) : Inv (State.create addr : State ι) := by
  have hzero : (State.create addr : State ι).drawing = 0 :=
    count_eq_zero fun i => by simp [State.create, Pc.isDrawing]
  refine ⟨?_, nofun, fun x hx => hx, nofun, nofun, (by decide : (projIDArray.take 1).Nodup)⟩
  rw [hzero]
  exact (by decide : 1 + 0 ≤ projIDArraySize)

lemma drawing_pos {s : State ι} {i : ι} {u : Task} (hi : s.pc i = .drawing u) : 0 < s.drawing :=
  count_pos (i := i) (by simp [hi, Pc.isDrawing])

lemma Inv.index_lt {s : State ι} {i : ι} {u : Task} (h : Inv s) (hi : s.pc i = .drawing u) :
    s.projIDIndex < projIDArraySize := by
  have hroom := h.room
  have hpos := drawing_pos hi
  omega

lemma Inv.length_le {s : State ι} (h : Inv s) : s.segments.length ≤ s.projIDIndex :=
  (List.subperm_of_subset h.distinct h.used).length_le.trans (List.length_take_le _ _)

section Invariant

variable [DecidableEq ι] {s t : State ι} {i : ι} {c : Pc} {u : Task} {a : Action ι}

lemma drawing_goto (s : State ι) (i : ι) (c : Pc) :
    (s.goto i c).drawing + (if (s.pc i).isDrawing = true then 1 else 0)
      = s.drawing + if c.isDrawing = true then 1 else 0 := by
  have h := count_update true c.isDrawing (Pc.isDrawing ∘ s.pc) i
  rwa [← Function.comp_update] at h

lemma Inv.move (h : Inv s) (nodes : List PoolNode) (lock : Option ι)
    (hc : c.isDrawing = false ∧ c ≠ .overrun ∧ ∀ u x, c ≠ .drawn u x) :
    Inv ⟨nodes, lock, s.projIDIndex, s.segments, (s.goto i c).pc⟩ where
  room := by
    have hd := drawing_goto s i c
    have hroom := h.room
    change s.projIDIndex + (s.goto i c).drawing ≤ projIDArraySize
    rw [hc.1] at hd
    simp only [Bool.false_eq_true, if_false] at hd
    omega
  inRange j hj := by
    rcases pc_goto hj with ⟨_, he⟩ | ⟨_, hj⟩
    · exact hc.2.1 he.symm
    · exact h.inRange j hj
  used := h.used
  pending j u x hj := by
    rcases pc_goto hj with ⟨_, he⟩ | ⟨_, hj⟩
    · exact absurd he.symm (hc.2.2 u x)
    · exact h.pending j u x hj
  apart j k u v x hj hk := by
    rcases pc_goto hj with ⟨_, he⟩ | ⟨_, hj⟩
    · exact absurd he.symm (hc.2.2 u x)
    · rcases pc_goto hk with ⟨_, he⟩ | ⟨_, hk⟩
      · exact absurd he.symm (hc.2.2 v x)
      · exact h.apart j k u v x hj hk
  distinct := h.distinct

lemma Inv.pass (h : Inv s) (hroom : s.projIDIndex + s.drawing < projIDArraySize) :
    Inv (s.goto i (.drawing u)) where
  room := by
    have hd := drawing_goto s i (.drawing u)
    change s.projIDIndex + (s.goto i (.drawing u)).drawing ≤ projIDArraySize
    simp only [Pc.isDrawing, if_true] at hd
    omega
  inRange j hj := by
    rcases pc_goto hj with ⟨_, he⟩ | ⟨_, hj⟩
    · cases he
    · exact h.inRange j hj
  used := h.used
  pending j v x hj := by
    rcases pc_goto hj with ⟨_, he⟩ | ⟨_, hj⟩
    · cases he
    · exact h.pending j v x hj
  apart j k v w x hj hk := by
    rcases pc_goto hj with ⟨_, he⟩ | ⟨_, hj⟩
    · cases he
    · rcases pc_goto hk with ⟨_, he⟩ | ⟨_, hk⟩
      · cases he
      · exact h.apart j k v w x hj hk
  distinct := h.distinct

lemma fresh_id {k x : ℕ} (hx : projIDArray[k]? = some x) :
    x ∉ projIDArray.take k ∧ x ∈ projIDArray.take (k + 1) := by
  have hnodup : projIDArray.Nodup := by decide
  rw [List.take_add_one, hx, Option.toList_some]
  refine ⟨fun hmem => ?_, List.mem_append_right _ (List.mem_singleton_self x)⟩
  have hsub : (projIDArray.take (k + 1)).Nodup := hnodup.sublist (List.take_sublist _ _)
  rw [List.take_add_one, hx, Option.toList_some, List.nodup_append] at hsub
  exact hsub.2.2 x hmem x (List.mem_singleton_self x) rfl

lemma Inv.draw (h : Inv s) (hi : s.pc i = .drawing u) : Inv (SharedPool.draw s i u) := by
  obtain ⟨x, hx⟩ : ∃ x, projIDArray[s.projIDIndex]? = some x :=
    ⟨_, List.getElem?_eq_getElem (h.index_lt hi)⟩
  obtain ⟨hfresh, hmem⟩ := fresh_id hx
  have hold : ∀ y ∈ projIDArray.take s.projIDIndex, y ∈ projIDArray.take (s.projIDIndex + 1) :=
    fun y hy => List.take_subset_take_left _ (Nat.le_succ _) hy
  have hother : ∀ {j v y}, s.pc j = .drawn v y → y ≠ x := by
    rintro j v y hj rfl
    exact hfresh (h.pending j v y hj).1
  rw [SharedPool.draw, hx]
  refine ⟨?_, ?_, fun y hy => hold y (h.used y hy), ?_, ?_, h.distinct⟩
  · have hd := drawing_goto s i (.drawn u x)
    have hroom := h.room
    have hpos := drawing_pos hi
    change s.projIDIndex + 1 + (s.goto i (.drawn u x)).drawing ≤ projIDArraySize
    simp only [hi, Pc.isDrawing, if_true, Bool.false_eq_true, if_false] at hd
    omega
  · intro j hj
    rcases pc_goto hj with ⟨_, he⟩ | ⟨_, hj⟩
    · cases he
    · exact h.inRange j hj
  · intro j v y hj
    rcases pc_goto hj with ⟨_, he⟩ | ⟨_, hj⟩
    · cases he
      exact ⟨hmem, fun hs => hfresh (h.used x hs)⟩
    · obtain ⟨hy, hys⟩ := h.pending j v y hj
      exact ⟨hold y hy, hys⟩
  · intro j k v w y hj hk
    rcases pc_goto hj with ⟨hji, he⟩ | ⟨_, hj'⟩
    · cases he
      rcases pc_goto hk with ⟨hki, _⟩ | ⟨_, hk'⟩
      · exact hji.trans hki.symm
      · exact absurd rfl (hother hk')
    · rcases pc_goto hk with ⟨_, he⟩ | ⟨_, hk'⟩
      · cases he
        exact absurd rfl (hother hj')
      · exact h.apart j k v w y hj' hk'

lemma Inv.attach {addr x : ℕ} (h : Inv s) (hi : s.pc i = .drawn u x) :
    Inv { s.goto i (.attached u addr) with segments := s.segments ++ [x] } := by
  obtain ⟨hx, hnot⟩ := h.pending i u x hi
  have hmove := h.move (i := i) (c := .attached u addr) s.nodes s.poolLock
    ⟨rfl, by simp, by simp⟩
  refine ⟨hmove.room, hmove.inRange, ?_, ?_, hmove.apart, ?_⟩
  · intro y hy
    rcases List.mem_append.mp hy with hy | hy
    · exact h.used y hy
    · rwa [List.mem_singleton.mp hy]
  · intro j v y hj
    rcases pc_goto hj with ⟨_, he⟩ | ⟨hne, hj'⟩
    · cases he
    · obtain ⟨hy, hys⟩ := h.pending j v y hj'
      refine ⟨hy, fun hmem => ?_⟩
      rcases List.mem_append.mp hmem with hmem | hmem
      · exact hys hmem
      · obtain rfl := List.mem_singleton.mp hmem
        exact hne (h.apart j i v u y hj' hi)
  · rw [List.nodup_append]
    refine ⟨h.distinct, List.nodup_singleton x, fun y hy z hz => ?_⟩
    rw [List.mem_singleton.mp hz]
    rintro rfl
    exact hnot hy

lemma Inv.step (h : Inv s) (hc : InTime s a) (hs : step s a = some t) : Inv t := by
  rcases step_cases hs with ⟨i, c, hq, ht⟩ | ⟨i, u, rfl, hi, rfl⟩ | ⟨i, u, hi, rfl⟩ |
    ⟨i, u, x, addr, hi, rfl⟩
  · exact ht ▸ h.move t.nodes t.poolLock hq
  · exact h.pass (hc hi)
  · exact h.draw hi
  · exact h.attach hi

lemma reaches_inv {addr : ℕ} (h : Reaches step InTime (State.create addr) s) : Inv s :=
  Reaches.invariant h (inv_create addr) fun _ _ _ hs hc hst => hs.step hc hst

lemma overrun_of_late (hindex : s.projIDIndex ≤ projIDArraySize)
    (hlate : projIDArraySize < s.projIDIndex + s.drawing) :
    ∃ t, Reaches SharedPool.step Free s t ∧ ∃ i, t.pc i = .overrun := by
  induction hn : s.drawing generalizing s with
  | zero => omega
  | succ n ih =>
    obtain ⟨i, hi⟩ : ∃ i, (s.pc i).isDrawing = true :=
      exists_of_count_pos (hn ▸ Nat.succ_pos n : 0 < s.drawing)
    obtain ⟨u, hu⟩ : ∃ u, s.pc i = .drawing u := by
      cases hpc : s.pc i with
      | drawing u => exact ⟨u, rfl⟩
      | idle | small | testing | drawn | attached | refused | overrun =>
        rw [hpc] at hi
        cases hi
    have hstep : SharedPool.step s (.draw i) = some (SharedPool.draw s i u) := by
      simp only [SharedPool.step, hu]
    have hfirst : Reaches SharedPool.step Free s (SharedPool.draw s i u) :=
      Relation.ReflTransGen.single ⟨.draw i, trivial, hstep⟩
    by_cases hin : s.projIDIndex < projIDArraySize
    · obtain ⟨x, hx⟩ : ∃ x, projIDArray[s.projIDIndex]? = some x :=
        ⟨_, List.getElem?_eq_getElem hin⟩
      have hd := drawing_goto s i (.drawn u x)
      simp only [hu, Pc.isDrawing, if_true, Bool.false_eq_true, if_false] at hd
      rw [SharedPool.draw, hx] at hfirst
      obtain ⟨t, ht, hover⟩ := ih (s := { s.goto i (.drawn u x) with
        projIDIndex := s.projIDIndex + 1 }) hin
        (by change _ < s.projIDIndex + 1 + (s.goto i (.drawn u x)).drawing; omega)
        (by change (s.goto i (.drawn u x)).drawing = n; omega)
      exact ⟨t, hfirst.trans ht, hover⟩
    · refine ⟨_, hfirst, i, ?_⟩
      have hnone : projIDArray[s.projIDIndex]? = none :=
        List.getElem?_eq_none (not_lt.mp hin)
      simp [SharedPool.draw, hnone, State.goto]

end Invariant

section Safety

variable [DecidableEq ι]

structure Safe (s : State ι) : Prop where
  inRange : ∀ i, s.pc i ≠ .overrun
  reads : ∀ i t, s.pc i = .drawing t → s.projIDIndex < projIDArraySize
  distinct : s.segments.Nodup
  ids : s.segments ⊆ projIDArray
  refuses : projIDArraySize ≤ s.segments.length → ∀ i t, s.pc i = .testing t →
    step s (.test i) = some (s.goto i .refused)

lemma Inv.safe {s : State ι} (h : Inv s) : Safe s where
  inRange := h.inRange
  reads _ _ hi := h.index_lt hi
  distinct := h.distinct
  ids x hx := List.mem_of_mem_take (h.used x hx)
  refuses hlen i t hi := by
    simp only [SharedPool.step, hi, test, if_pos (hlen.trans h.length_le)]

/-- The second part: as soon as one range check is passed too late, the run can go on to a read
behind the end of the array. -/
theorem shared_pool_safe (addr : ℕ) (s : State ι)
    (h : Reaches step InTime (State.create addr) s) :
    Safe s ∧ ∀ a t, step s a = some t → ¬ InTime s a →
      ∃ u, Reaches step Free t u ∧ ∃ i, u.pc i = .overrun := by
  have hi := reaches_inv h
  refine ⟨hi.safe, fun a t hs hlate => ?_⟩
  have hroom := hi.room
  cases a with
  | test i =>
    obtain ⟨hin, hlate⟩ := Classical.not_imp.mp hlate
    simp only [step] at hs
    split at hs
    · next u hu =>
      rw [test, if_neg (not_le.mpr hin)] at hs
      obtain rfl := Option.some.inj hs
      have hd := drawing_goto s i (.drawing u)
      simp only [hu, Pc.isDrawing, if_true, Bool.false_eq_true, if_false] at hd
      refine overrun_of_late (s := s.goto i (.drawing u)) hin.le ?_
      change _ < s.projIDIndex + (s.goto i (.drawing u)).drawing
      omega
    · cases hs
  | allocate | search | draw | attach | finish => exact absurd trivial hlate

instance (s : State ι) : (a : Action ι) → Decidable (InTime s a)
  | .test _ => inferInstanceAs (Decidable (_ → _))
  | .allocate _ _ | .search _ | .draw _ | .attach _ _ | .finish _ => isTrue trivial

def allocateBlock (i : ι) (addr : ℕ) : List (Action ι) :=
  [.allocate i 5000, .search i, .test i, .draw i, .attach i addr, .finish i]

theorem shared_pool_safe_two : ∃ s : State (Fin 2),
    Reaches step InTime (State.create 65536) s ∧ s.segments = [0, 16, 32] ∧
      (Safe s ∧ ∀ a t, step s a = some t → ¬ InTime s a →
        ∃ u, Reaches step Free t u ∧ ∃ i, u.pc i = .overrun) := by
  have h : (execute step InTime (State.create 65536 : State (Fin 2))
      ([.allocate 0 5000, .search 0, .test 0] ++ allocateBlock 1 131072 ++
        [.draw 0, .attach 0 196608])).map State.segments = some [0, 16, 32] := by decide +kernel
  obtain ⟨s, hs, hseg⟩ := reaches_of_execute_map h
  exact ⟨s, hs, hseg, shared_pool_safe 65536 s hs⟩

theorem last_id_drawn_twice : ∃ s : State (Fin 2),
    Reaches step Free (State.create 65536) s ∧ s.pc 1 = .overrun := by
  have h : (execute step Free (State.create 65536 : State (Fin 2))
      ((List.replicate 14 (allocateBlock 0 131072)).flatten ++
        [.allocate 0 5000, .search 0, .test 0, .allocate 1 5000, .search 1, .test 1, .draw 0,
          .draw 1])).map (fun s => s.pc 1) = some .overrun := by decide +kernel
  exact reaches_of_execute_map h

end Safety

end Xty.Pools.SharedPool
