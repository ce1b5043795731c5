import Xty.General.Runs
import Xty.General.Segments

/-! `xtySharedMemory`: objects of any number of processes. Each process has a lock of its own, and
every system call is one step. -/

namespace Xty.Facility.SharedMemory

open Xty.General.Runs Xty.General.Segments

inductive Pc where
  | unborn
  | locked
  | got (id : ℕ)
  | attached (id : ℕ)
  | alive (id : ℕ)
  | leaving (id : ℕ)
  | detached (id : ℕ)
  | counted (id nattch : ℕ)
  | removed
  | dead
deriving DecidableEq

structure State (ι π : Type) where
  kernel : Kernel ι
  lock : π → Bool
  pc : ι → Pc
  errorExit : Bool

inductive Action (ι : Type) where
  | lock (i : ι)
  | call (i : ι)
  | unLock (i : ι)

variable {ι π : Type}

def State.init (K : Kernel ι) : State ι π := ⟨K, fun _ => false, fun _ => .unborn, false⟩

def Pc.lock : Pc → Option Pc
  | .unborn => some .locked
  | .alive id => some (.leaving id)
  | _ => none

def Pc.unLock : Pc → Option Pc
  | .attached id => some (.alive id)
  | .counted _ (_ + 1) | .removed => some .dead
  | _ => none

section Model

variable [DecidableEq ι] [DecidableEq π]

/-- The next system call under the lock, and what comes of it if it does not fail. -/
def Pc.call (key size : ℕ) (i : ι) (K : Kernel ι) : Pc → Option (Option (Pc × Kernel ι))
  | .locked => some ((K.shmget key size).map fun r => (.got r.1, r.2))
  | .got id => some ((K.shmat id i).map fun K => (.attached id, K))
  | .leaving id => some ((K.shmdt id i).map fun K => (.detached id, K))
  | .detached id => some ((K.nattch id).map fun n => (.counted id n, K))
  | .counted id 0 => some ((K.rmid id).map fun K => (.removed, K))
  | _ => none

/-- The process of the object is `proc i`, and no process goes on after an `ErrorExit`. -/
def step (proc : ι → π) (key : ℕ) (size : ι → ℕ) (s : State ι π) (a : Action ι) :
    Option (State ι π) :=
  if s.errorExit then none
  else match a with
  | .lock i =>
    if s.lock (proc i) then none
    else (s.pc i).lock.map fun c => { s with
      lock := Function.update s.lock (proc i) true, pc := Function.update s.pc i c }
  | .call i => ((s.pc i).call key (size i) i s.kernel).map fun
    | some (c, K) => { s with kernel := K, pc := Function.update s.pc i c }
    | none => { s with errorExit := true }
  | .unLock i => (s.pc i).unLock.map fun c => { s with
      lock := Function.update s.lock (proc i) false, pc := Function.update s.pc i c }

end Model

def Pc.inside : Pc → Prop
  | .unborn | .alive _ | .dead => False
  | _ => True

def Pc.attachment : Pc → Option ℕ
  | .attached id | .alive id | .leaving id => some id
  | _ => none

/-- No call fails. The objects have one segment, which counts them, and none is left behind. -/
structure Sound (proc : ι → π) (s : State ι π) : Prop where
  noError : s.errorExit = false
  handle : ∀ i id, s.pc i = .alive id → ∃ g, s.kernel.segment id = some g ∧ g.attached.Nodup ∧
    ∀ j, j ∈ g.attached ↔ (s.pc j).attachment = some id
  shared : ∀ i j id id', s.pc i = .alive id → s.pc j = .alive id' → id = id'
  noLeak : (∀ i, s.lock (proc i) = false) → (∀ i id, s.pc i ≠ .alive id) →
    ∀ id, s.kernel.segment id = none

section Calls

variable {K K' : Kernel ι} {key n id : ℕ} {A A' : List ι} {c : Pc} {i : ι}

def Settled (K : Kernel ι) (key n : ℕ) (A : List ι) : Prop :=
  A = [] ∧ Clear K key ∨ A ≠ [] ∧ ∃ id, Holds K key n id A

def Pc.Phase (K : Kernel ι) (key n : ℕ) (A : List ι) : Pc → Prop
  | .got id | .attached id | .leaving id | .detached id => Holds K key n id A
  | .counted id m => Holds K key n id A ∧ A.length = m
  | .removed => A = [] ∧ Clear K key
  | _ => Settled K key n A

/-- A call succeeds, and the others who are attached do not notice. -/
structure Passes (key n : ℕ) (i : ι) (K : Kernel ι) (A : List ι) (c : Pc)
    (r : Option (Pc × Kernel ι)) (c' : Pc) (K' : Kernel ι) (A' : List ι) : Prop where
  result : r = some (c', K')
  inside : c'.inside
  nodup : A'.Nodup
  members : ∀ j, j ≠ i → (j ∈ A' ↔ j ∈ A)
  member : i ∈ A' ↔ c'.attachment ≠ none
  keeps : ∀ id, A ≠ [] → Holds K key n id A → Holds K' key n id A'
  phase : c'.Phase K' key n A'

lemma call_passes [DecidableEq ι] {r : Option (Pc × Kernel ι)} (hn : 0 < n) (hA : A.Nodup)
    (hi : i ∈ A ↔ c.attachment ≠ none) (hc : c.Phase K key n A)
    (hr : c.call key n i K = some r) : ∃ c' K' A', Passes key n i K A c r c' K' A' := by
  cases c with
  | unborn | attached | alive | removed | dead => cases hr
  | locked =>
    obtain rfl := Option.some.inj hr
    have hnot : i ∉ A := fun h => hi.mp h rfl
    rcases hc with ⟨rfl, hclear⟩ | ⟨hne, id, hholds⟩
    · obtain ⟨K', hget, hK'⟩ := hclear.shmget hn
      rw [hget]
      exact ⟨.got K.next, K', [], rfl, trivial, hA, fun _ _ => Iff.rfl, hi, nofun, hK'⟩
    · rw [hholds.shmget]
      exact ⟨.got id, K, A, rfl, trivial, hA, fun _ _ => Iff.rfl, hi, fun _ _ h => h, hholds⟩
  | got id =>
    obtain rfl := Option.some.inj hr
    have hnot : i ∉ A := fun h => hi.mp h rfl
    obtain ⟨K', hat, hK'⟩ := hc.shmat i
    rw [hat]
    refine ⟨.attached id, K', i :: A, rfl, trivial, List.nodup_cons.mpr ⟨hnot, hA⟩,
      fun j hj => ?_, iff_of_true List.mem_cons_self (Option.some_ne_none id),
      fun id' _ h => ?_, hK'⟩
    · rw [List.mem_cons, or_iff_right hj]
    · obtain rfl := hc.unique (by rw [h.segment_eq]; exact Option.some_ne_none _)
      exact hK'
  | leaving id =>
    obtain rfl := Option.some.inj hr
    obtain ⟨K', hdt, hK'⟩ := hc.shmdt (hi.mpr (Option.some_ne_none id))
    rw [hdt]
    refine ⟨.detached id, K', A.erase i, rfl, trivial, hA.erase i,
      fun j hj => List.mem_erase_of_ne hj, iff_of_false hA.not_mem_erase fun h => h rfl,
      fun id' _ h => ?_, hK'⟩
    obtain rfl := hc.unique (by rw [h.segment_eq]; exact Option.some_ne_none _)
    exact hK'
  | detached id =>
    obtain rfl := Option.some.inj hr
    rw [hc.nattch]
    exact ⟨.counted id A.length, K, A, rfl, trivial, hA, fun _ _ => Iff.rfl, hi, fun _ _ h => h,
      hc, rfl⟩
  | counted id m =>
    cases m with
    | succ m => cases hr
    | zero =>
      obtain rfl := Option.some.inj hr
      obtain ⟨hholds, hlen⟩ := hc
      obtain rfl := List.length_eq_zero_iff.mp hlen
      obtain ⟨K', hrm, hK'⟩ := hholds.rmid
      rw [hrm]
      exact ⟨.removed, K', [], rfl, trivial, hA, fun _ _ => Iff.rfl, hi, fun _ h => absurd rfl h,
        rfl, hK'⟩

end Calls

section Invariant

variable {proc : ι → π} {key n : ℕ} {s t : State ι π} {i : ι} {c : Pc}

structure Kept (K : Kernel ι) (key n : ℕ) (pc : ι → Pc) (A : List ι) : Prop where
  nodup : A.Nodup
  mem : ∀ i, i ∈ A ↔ (pc i).attachment ≠ none
  holds : ∀ i id, (pc i).attachment = some id → Holds K key n id A
  phase : ∀ i, (pc i).inside → (pc i).Phase K key n A
  settled : (∀ i, ¬ (pc i).inside) → Settled K key n A

structure Inv (proc : ι → π) (key n : ℕ) (s : State ι π) : Prop where
  noError : s.errorExit = false
  locked : ∀ i, (s.pc i).inside → s.lock (proc i) = true
  exclusive : ∀ i j, (s.pc i).inside → (s.pc j).inside → i = j
  kept : ∃ A, Kept s.kernel key n s.pc A

lemma inv_init {K : Kernel ι} (hK : Clear K key) : Inv proc key n (State.init K) :=
  ⟨rfl, nofun, nofun, [], List.nodup_nil, fun _ => iff_of_false List.not_mem_nil fun h => h rfl,
    nofun, nofun, fun _ => Or.inl ⟨rfl, hK⟩⟩

lemma lock_spec {c' : Pc} (h : c.lock = some c') :
    c'.inside ∧ c'.attachment = c.attachment ∧
      ∀ (K : Kernel ι) A, Settled K key n A →
        (∀ id, c.attachment = some id → Holds K key n id A) → c'.Phase K key n A := by
  cases c with
  | unborn =>
    obtain rfl := Option.some.inj h
    exact ⟨trivial, rfl, fun _ _ hs _ => hs⟩
  | alive id =>
    obtain rfl := Option.some.inj h
    exact ⟨trivial, rfl, fun _ _ _ hid => hid id rfl⟩
  | _ => cases h

lemma unLock_spec {c' : Pc} (h : c.unLock = some c') :
    c.inside ∧ ¬ c'.inside ∧ c'.attachment = c.attachment ∧
      ∀ (K : Kernel ι) A, (c.attachment ≠ none → A ≠ []) → c.Phase K key n A →
        Settled K key n A := by
  cases c with
  | attached id =>
    obtain rfl := Option.some.inj h
    exact ⟨trivial, fun h => h, rfl,
      fun _ _ hne hp => Or.inr ⟨hne (Option.some_ne_none id), id, hp⟩⟩
  | counted id m =>
    cases m with
    | zero => cases h
    | succ m =>
      obtain rfl := Option.some.inj h
      refine ⟨trivial, fun h => h, rfl, fun _ _ _ hp => Or.inr ⟨?_, id, hp.1⟩⟩
      exact List.ne_nil_of_length_eq_add_one hp.2
  | removed =>
    obtain rfl := Option.some.inj h
    exact ⟨trivial, fun h => h, rfl, fun _ _ _ hp => Or.inl hp⟩
  | _ => cases h

variable [DecidableEq ι]

lemma update_cases {pc : ι → Pc} {P : ι → Pc → Prop} (hi : P i c) (hother : ∀ j, j ≠ i → P j (pc j))
    (j : ι) : P j (Function.update pc i c j) := by
  by_cases hj : j = i
  · subst hj
    rwa [Function.update_self]
  · rw [Function.update_of_ne hj]
    exact hother j hj

lemma eq_of_inside {pc : ι → Pc} (hnone : ∀ j, j ≠ i → ¬ (pc j).inside) (j : ι)
    (hj : (Function.update pc i c j).inside) : j = i := by
  by_contra hne
  rw [Function.update_of_ne hne] at hj
  exact hnone j hne hj

/-- The object of a process that has entered is the only one, and its attachment is the same. -/
lemma Kept.enter {K : Kernel ι} {pc : ι → Pc} {A : List ι} (h : Kept K key n pc A)
    (hnone : ∀ j, ¬ (pc j).inside) (hatt : c.attachment = (pc i).attachment)
    (hphase : c.Phase K key n A) (hinside : c.inside) :
    Kept K key n (Function.update pc i c) A where
  nodup := h.nodup
  mem := update_cases (P := fun j c => j ∈ A ↔ c.attachment ≠ none) (hatt ▸ h.mem i)
    fun j _ => h.mem j
  holds := update_cases (P := fun _ c => ∀ id, c.attachment = some id → Holds K key n id A)
    (hatt ▸ h.holds i) fun j _ => h.holds j
  phase := update_cases (P := fun _ c => c.inside → c.Phase K key n A) (fun _ => hphase)
    fun j _ hj => absurd hj (hnone j)
  settled hall := absurd hinside (by simpa using hall i)

lemma Kept.leave {K : Kernel ι} {pc : ι → Pc} {A : List ι} (h : Kept K key n pc A)
    (hnone : ∀ j, j ≠ i → ¬ (pc j).inside) (hatt : c.attachment = (pc i).attachment)
    (hsettled : Settled K key n A) (hinside : ¬ c.inside) :
    Kept K key n (Function.update pc i c) A where
  nodup := h.nodup
  mem := update_cases (P := fun j c => j ∈ A ↔ c.attachment ≠ none) (hatt ▸ h.mem i)
    fun j _ => h.mem j
  holds := update_cases (P := fun _ c => ∀ id, c.attachment = some id → Holds K key n id A)
    (hatt ▸ h.holds i) fun j _ => h.holds j
  phase := update_cases (P := fun _ c => c.inside → c.Phase K key n A) (fun h => absurd h hinside)
    fun j hj hin => absurd hin (hnone j hj)
  settled _ := hsettled

lemma call_inside {K : Kernel ι} {r : Option (Pc × Kernel ι)} {m : ℕ}
    (h : c.call key m i K = some r) : c.inside := by
  cases c with
  | unborn | alive | dead => cases h
  | _ => trivial

omit [DecidableEq ι] in
lemma alive_of_attachment (hatt : c.attachment ≠ none) (hout : ¬ c.inside) :
    ∃ id, c = .alive id := by
  cases c with
  | alive id => exact ⟨id, rfl⟩
  | attached | leaving => exact absurd trivial hout
  | _ => exact absurd rfl hatt

omit [DecidableEq ι] in
lemma Pc.Phase.holds {K : Kernel ι} {A : List ι} {id : ℕ} (h : c.Phase K key n A) (hin : c.inside)
    (hatt : c.attachment = some id) : Holds K key n id A := by
  cases c with
  | attached | leaving =>
    obtain rfl := Option.some.inj hatt
    exact h
  | alive => exact absurd hin fun h => h
  | _ => cases hatt

lemma Kept.call {K K' : Kernel ι} {pc : ι → Pc} {A A' : List ι} {r : Option (Pc × Kernel ι)}
    (h : Kept K key n pc A) (hnone : ∀ j, j ≠ i → ¬ (pc j).inside)
    (hp : Passes key n i K A (pc i) r c K' A') : Kept K' key n (Function.update pc i c) A' where
  nodup := hp.nodup
  mem := update_cases (P := fun j c => j ∈ A' ↔ c.attachment ≠ none) hp.member
    fun j hj => (hp.members j hj).trans (h.mem j)
  holds := by
    refine update_cases (P := fun _ c => ∀ id, c.attachment = some id → Holds K' key n id A')
      (fun id hid => hp.phase.holds hp.inside hid) fun j hj id hid => ?_
    have hmem : j ∈ A := (h.mem j).mpr (by rw [hid]; exact Option.some_ne_none id)
    exact hp.keeps id (List.ne_nil_of_mem hmem) (h.holds j id hid)
  phase := update_cases (P := fun _ c => c.inside → c.Phase K' key n A') (fun _ => hp.phase)
    fun j hj hin => absurd hin (hnone j hj)
  settled hall := absurd hp.inside (by simpa using hall i)

variable [DecidableEq π] {size : ι → ℕ} {a : Action ι}

lemma Inv.step (hproc : ∀ i j, proc i = proc j) (hsize : ∀ i, size i = n) (hn : 0 < n)
    (h : Inv proc key n s) (hs : SharedMemory.step proc key size s a = some t) :
    Inv proc key n t := by
  obtain ⟨A, hk⟩ := h.kept
  unfold SharedMemory.step at hs
  rw [if_neg (by simp [h.noError])] at hs
  cases a with
  | lock i =>
    dsimp only at hs
    split_ifs at hs with hfree
    obtain ⟨c, hc, rfl⟩ := Option.map_eq_some_iff.mp hs
    obtain ⟨hin, hatt, hphase⟩ := lock_spec hc
    -- the processes are one, so the lock was free for every object
    have hnone : ∀ j, ¬ (s.pc j).inside := fun j hj => hfree (hproc j i ▸ h.locked j hj)
    refine ⟨h.noError, fun j _ => ?_, fun j k hj hk' => ?_, A,
      hk.enter hnone hatt (hphase _ _ (hk.settled hnone) (hk.holds i)) hin⟩
    · rw [hproc j i]
      exact Function.update_self _ _ _
    · have only := eq_of_inside (i := i) (c := c) fun j _ => hnone j
      exact (only j hj).trans (only k hk').symm
  | call i =>
    obtain ⟨r, hr, rfl⟩ := Option.map_eq_some_iff.mp hs
    have hin := call_inside hr
    have hnone : ∀ j, j ≠ i → ¬ (s.pc j).inside := fun j hj hj' => hj (h.exclusive j i hj' hin)
    rw [hsize i] at hr
    obtain ⟨c, K, A', hp⟩ := call_passes hn hk.nodup (hk.mem i) (hk.phase i hin) hr
    rw [hp.result]
    refine ⟨h.noError, update_cases (P := fun j c => c.inside → s.lock (proc j) = true)
      (fun _ => h.locked i hin) fun j _ => h.locked j, fun j k hj hk' => ?_, A',
      hk.call hnone hp⟩
    have only := eq_of_inside (c := c) hnone
    exact (only j hj).trans (only k hk').symm
  | unLock i =>
    obtain ⟨c, hc, rfl⟩ := Option.map_eq_some_iff.mp hs
    obtain ⟨hin, hout, hatt, hsettled⟩ := unLock_spec hc
    have hnone : ∀ j, j ≠ i → ¬ (s.pc j).inside := fun j hj hj' => hj (h.exclusive j i hj' hin)
    have hnone' : ∀ j, ¬ (Function.update s.pc i c j).inside :=
      update_cases (P := fun _ c => ¬ c.inside) hout hnone
    refine ⟨h.noError, fun j hj => absurd hj (hnone' j), fun j _ hj => absurd hj (hnone' j), A,
      hk.leave hnone hatt (hsettled _ _ (fun hne => ?_) (hk.phase i hin)) hout⟩
    exact List.ne_nil_of_mem ((hk.mem i).mpr hne)

omit [DecidableEq ι] [DecidableEq π] in
lemma Inv.sound (h : Inv proc key n s) : Sound proc s := by
  obtain ⟨A, hk⟩ := h.kept
  have hholds : ∀ i id, s.pc i = .alive id → Holds s.kernel key n id A := fun i id hi =>
    hk.holds i id (by rw [hi]; rfl)
  have heq : ∀ {id id'}, Holds s.kernel key n id A → Holds s.kernel key n id' A → id' = id :=
    fun hid hid' => hid.unique (by rw [hid'.segment_eq]; exact Option.some_ne_none _)
  refine ⟨h.noError, fun i id hi => ?_, fun i j id id' hi hj => ?_, fun hlock hnot id => ?_⟩
  · refine ⟨_, (hholds i id hi).segment_eq, hk.nodup, fun j => (hk.mem j).trans ?_⟩
    constructor
    · intro hj
      obtain ⟨id', hid'⟩ := Option.ne_none_iff_exists'.mp hj
      rw [hid', heq (hholds i id hi) (hk.holds j id' hid')]
    · intro hj
      rw [hj]
      exact Option.some_ne_none id
  · exact heq (hholds j id' hj) (hholds i id hi)
  · have hnone : ∀ i, ¬ (s.pc i).inside := fun i hi => by
      have := h.locked i hi
      rw [hlock i] at this
      cases this
    rcases hk.settled hnone with ⟨_, hclear⟩ | ⟨hne, _⟩
    · rw [hclear.segment]
    · obtain ⟨i, hi⟩ := List.exists_mem_of_ne_nil A hne
      obtain ⟨id', hid'⟩ := alive_of_attachment ((hk.mem i).mp hi) (hnone i)
      exact absurd hid' (hnot i id')

end Invariant

section Failures

variable [DecidableEq ι] [DecidableEq π] (proc : ι → π) (key : ℕ) (size : ι → ℕ) {i j : ι}

def Fails : Prop :=
  ∃ s : State ι π, Reaches (step proc key size) Free (State.init Kernel.empty) s ∧
    s.errorExit = true

variable {proc key size}

lemma fails_of_execute (as : List (Action ι)) (h : (execute (step proc key size) Free
    (State.init Kernel.empty) as).map State.errorExit = some true) : Fails proc key size := by
  obtain ⟨s, hs, herr⟩ := reaches_of_execute_map h
  exact ⟨s, hs, herr⟩

lemma fails_zero (hi : size i = 0) : Fails proc key size := by
  apply fails_of_execute [.lock i, .call i]
  simp [execute, Free, step, State.init, Kernel.empty, Pc.lock, Pc.call, Kernel.shmget, hi]

def construct (i : ι) : List (Action ι) := [.lock i, .call i, .call i, .unLock i]

lemma fails_larger (hi : 0 < size i) (hij : size i < size j) : Fails proc key size := by
  have hne : i ≠ j := by
    rintro rfl
    exact lt_irrefl _ hij
  apply fails_of_execute (construct i ++ [.lock j, .call j])
  simp [construct, execute, Free, step, State.init, Kernel.empty, Pc.lock, Pc.unLock, Pc.call,
    Kernel.shmget, Kernel.shmat, Kernel.store, hi.ne', hne.symm, hij.not_ge]

/-- The segment is removed between `shmget` and `shmat` of another process. -/
lemma fails_apart (hi : 0 < size i) (hij : size i = size j) (hne : proc i ≠ proc j) :
    Fails proc key size := by
  have hne' : i ≠ j := by
    rintro rfl
    exact hne rfl
  have hj : size j ≠ 0 := hij ▸ hi.ne'
  apply fails_of_execute (construct i ++
    [.lock i, .call i, .call i, .lock j, .call j, .call i, .call j])
  simp [construct, execute, Free, step, State.init, Kernel.empty, Pc.lock, Pc.unLock, Pc.call,
    Kernel.shmget, Kernel.shmat, Kernel.shmdt, Kernel.nattch, Kernel.rmid, Kernel.store,
    hj, hne.symm, hne', hne'.symm, hij]

end Failures

/-- The lock protects the objects of one process only. -/
theorem shared_memory_sound_iff [DecidableEq ι] [DecidableEq π] (proc : ι → π) (key : ℕ)
    (size : ι → ℕ) :
    (∀ s, Reaches (step proc key size) Free (State.init Kernel.empty) s → Sound proc s) ↔
      ∀ i, 0 < size i ∧ ∀ j, proc i = proc j ∧ size i = size j := by
  constructor
  · intro h
    have hno : ¬ Fails proc key size := by
      rintro ⟨s, hs, herr⟩
      exact absurd herr (by simp [(h s hs).noError])
    have hpos : ∀ i, 0 < size i := fun i => Nat.pos_of_ne_zero fun hi => hno (fails_zero hi)
    have hle : ∀ i j, size j ≤ size i := fun i j =>
      not_lt.mp fun hij => hno (fails_larger (hpos i) hij)
    refine fun i => ⟨hpos i, fun j => ?_⟩
    have hsize := le_antisymm (hle j i) (hle i j)
    exact ⟨by_contra fun hne => hno (fails_apart (hpos i) hsize hne), hsize⟩
  · intro h s hs
    obtain ⟨n, hn, hsize⟩ : ∃ n, 0 < n ∧ ∀ i, size i = n := by
      by_cases hι : Nonempty ι
      · obtain ⟨i⟩ := hι
        exact ⟨size i, (h i).1, fun j => ((h j).2 i).2⟩
      · exact ⟨1, Nat.one_pos, fun i => absurd ⟨i⟩ hι⟩
    have hproc : ∀ i j, proc i = proc j := fun i j => ((h i).2 j).1
    have hinv : Inv proc key n s := Reaches.invariant hs (inv_init ⟨rfl, rfl⟩)
      fun _ _ _ hi _ ht => hi.step hproc hsize hn ht
    exact hinv.sound

end Xty.Facility.SharedMemory
