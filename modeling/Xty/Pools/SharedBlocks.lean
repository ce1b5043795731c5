import Xty.Pools.SharedPool

/-! The blocks that the threads get from an `xtySharedPool`. -/

namespace Xty.Pools.SharedPool

open Xty.General.Runs Xty.General.Blocks Xty.General.Cursor

/-- The sizes that the threads have called with, the blocks and the headers cut from the nodes, and
the segments of the large blocks. -/
structure Log (ι : Type) where
  wanted : ι → ℕ
  blocks : List Block
  headers : List Block
  large : List Block

def Log.empty (ι : Type) : Log ι := ⟨fun _ => 0, [], [], []⟩

def Log.carved {ι : Type} (g : Log ι) : List Block := g.blocks ++ g.headers

def Log.cut {ι : Type} (g : Log ι) (n : PoolNode) (size : ℕ) (header : Bool) : Log ι :=
  if header then { g with headers := ⟨n.getAlignedPtr, n.getAlignedPtr + size⟩ :: g.headers }
  else { g with blocks := ⟨n.getAlignedPtr, n.getAlignedPtr + size⟩ :: g.blocks }

section Steps

variable {ι : Type}

/-- Where `pAligned` is if the search finds a node. -/
def roomy (size : ℕ) (nodes : List PoolNode) : Option PoolNode :=
  nodes.find? fun n => size ≤ n.room

variable [DecidableEq ι]

def record (s : State ι) (a : Action ι) (_ : State ι) (g : Log ι) : Log ι :=
  match a with
  | .allocate i size => { g with wanted := Function.update g.wanted i size }
  | .search i =>
    match s.pc i with
    | .small size header =>
      match roomy size s.nodes with
      | some n => g.cut n size header
      | none => g
    | _ => g
  | .attach i addr =>
    match s.pc i with
    | .drawn .block _ => { g with large := ⟨addr, addr + g.wanted i⟩ :: g.large }
    | _ => g
  | .finish i =>
    match s.pc i with
    | .attached (.node size header) addr => g.cut (createNode addr) size header
    | _ => g
  | .test _ | .draw _ => g

def Pc.pending : Pc → List Block
  | .attached (.node _ _) addr => [(createNode addr).region]
  | _ => []

def State.pending (s : State ι) : List Block :=
  match s.poolLock with
  | some i => (s.pc i).pending
  | none => []

def State.regions (s : State ι) (g : Log ι) : List Block :=
  s.nodes.map PoolNode.region ++ (s.pending ++ g.large)

def State.Fresh (s : State ι) (g : Log ι) (i : ι) (addr : ℕ) : Pc → Prop
  | .drawn (.node _ _) _ => FreshNode addr (s.regions g)
  | .drawn .block _ => ∀ b ∈ s.regions g, (⟨addr, addr + g.wanted i⟩ : Block).Apart b
  | _ => True

/-- `shmat` returns an aligned region that is apart from those that are attached. -/
def Granted (s : State ι) (g : Log ι) : Action ι → Prop
  | .attach i addr => s.Fresh g i addr (s.pc i)
  | _ => True

end Steps

section Locking

variable {ι : Type}

/-- The size that a thread with the lock will cut from its new node. -/
def Pc.nodeSize : Pc → Option ℕ
  | .testing (.node size _) | .drawing (.node size _) | .drawn (.node size _) _
  | .attached (.node size _) _ => some size
  | _ => none

def Pc.stopped (c : Pc) : Prop := c = .refused ∨ c = .overrun

/-- A thread without room for a node has the lock until its node is in the chain, and keeps it for
ever if there is no project id left. -/
structure Behaved (lock : Option ι) (i : ι) (c : Pc) : Prop where
  holds : ∀ size, c.nodeSize = some size → lock = some i
  holder : lock = some i → c.nodeSize ≠ none ∨ c.stopped
  node : ∀ size, c.nodeSize = some size → size ≤ largeBlockSize - sizeofSharedPool
  small : ∀ size header, c = .small size header → size ≤ largeBlockSize - sizeofSharedPool

def Locked (s : State ι) : Prop := ∀ i, Behaved s.poolLock i (s.pc i)

variable {s : State ι} {i j : ι} {c : Pc} {lock : Option ι}

lemma Behaved.not_holder (h : Behaved lock i c) (hc : c.nodeSize = none) (hi : ¬ c.stopped) :
    lock ≠ some i := fun hl =>
  (h.holder hl).elim (absurd hc) (absurd · hi)

lemma Behaved.next {c' : Pc} (h : Behaved lock i c) (hs : c'.nodeSize = c.nodeSize)
    (hc : ¬ c.stopped)
    (hsmall : ∀ size header, c' = .small size header →
      size ≤ largeBlockSize - sizeofSharedPool) : Behaved lock i c' :=
  ⟨fun size hn => h.holds size (hs.symm.trans hn),
    fun hl => .inl (hs ▸ (h.holder hl).resolve_right hc),
    fun size hn => h.node size (hs.symm.trans hn), hsmall⟩

lemma Behaved.stop (hc : c.stopped) : Behaved lock i c := by
  rcases hc with rfl | rfl <;> exact ⟨nofun, fun _ => .inr (by simp [Pc.stopped]), nofun, nofun⟩

lemma Behaved.without (hl : lock ≠ some i) (hc : c.nodeSize = none)
    (hsmall : ∀ size header, c = .small size header → size ≤ largeBlockSize - sizeofSharedPool) :
    Behaved lock i c :=
  ⟨by simp [hc], fun h => absurd h hl, by simp [hc], hsmall⟩

lemma Behaved.other {l l' : Option ι} (h : Behaved l j c) (hl : l = none ∨ l = some i)
    (hl' : l' = none ∨ l' = some i) (hj : j ≠ i) : Behaved l' j c := by
  have hne : ∀ {l : Option ι}, l = none ∨ l = some i → l ≠ some j := by
    rintro _ (rfl | rfl) he
    · cases he
    · exact hj (Option.some.inj he).symm
  refine ⟨fun size hs => absurd (h.holds size hs) (hne hl), fun h' => absurd h' (hne hl'), h.node,
    h.small⟩

variable [DecidableEq ι]

lemma Locked.keep (h : Locked s) (hc : Behaved s.poolLock i c) :
    ∀ j, Behaved s.poolLock j ((s.goto i c).pc j) :=
  (Function.forall_update_iff _ _).mpr ⟨hc, fun j _ => h j⟩

lemma Locked.handOver {l : Option ι} (h : Locked s) (hl : s.poolLock = none ∨ s.poolLock = some i)
    (hl' : l = none ∨ l = some i) (hc : Behaved l i c) :
    ∀ j, Behaved l j ((s.goto i c).pc j) :=
  (Function.forall_update_iff _ _).mpr ⟨hc, fun j hj => (h j).other hl hl' hj⟩

end Locking

section Memory

/-- Where the blocks of a node begin: behind the pool and its array of project ids in the first,
behind the node in the others. -/
def sharedStart (a : ℕ) (n : PoolNode) : ℕ :=
  n.poolAddr + if n.poolAddr = a then sizeofSharedPool + sizeofProjIDArray else sizeofSharedPoolNode

structure Laid (a : ℕ) (nodes : List PoolNode) (mapped carved : List Block) : Prop where
  sound : Sound a nodes mapped carved
  starts : ∀ n ∈ nodes, sharedStart a n ≤ n.emptyStart
  behind : ∀ b ∈ carved, ∃ n ∈ nodes, sharedStart a n ≤ b.start ∧ b.stop ≤ n.emptyStart

variable {a addr size : ℕ} {n : PoolNode} {nodes nodes' l r : List PoolNode}
  {mapped carved carved' : List Block} {b : Block}

lemma createNode_sound (hal : poolAlignment ∣ addr) (hfit : addr + defaultPoolSize < addressSpace)
    (hne : addr ≠ a) : (createNode addr).Sound a where
  aligned := hal
  fits := hfit
  emptyEnd := rfl
  start_le := by
    rw [PoolNode.bodyStart, if_neg (by exact hne)]
    exact Nat.add_le_add_left (by decide) _
  le_end := Nat.add_le_add_left (by decide) _

lemma createNode_room (h : (createNode addr).Sound a)
    (hs : size ≤ largeBlockSize - sizeofSharedPool) : size ≤ (createNode addr).room := by
  have hroom := h.ptr_add_room
  have hptr : (createNode addr).getAlignedPtr ≤ addr + sizeofSharedPoolNode := by
    rw [h.ptr_eq]
    exact roundUp_le (by decide)
      (dvd_add ((by decide : ptrAlignment ∣ poolAlignment).trans h.aligned) (by decide)) le_rfl
  rw [createNode] at hroom hptr ⊢
  simp only [defaultPoolSize, sizeofSharedPoolNode, largeBlockSize, sizeofSharedPool,
    sizeofSpinLock] at *
  omega

namespace Laid

lemma perm (h : Laid a nodes mapped carved) (hp : carved.Perm carved') :
    Laid a nodes mapped carved' :=
  ⟨h.sound.perm hp, h.starts, fun b hb => h.behind b (hp.mem_iff.mpr hb)⟩

lemma map (h : Laid a nodes mapped carved)
    (hb : ∀ c ∈ nodes.map PoolNode.region ++ mapped, b.Apart c) :
    Laid a nodes (b :: mapped) carved :=
  ⟨h.sound.map hb, h.starts, h.behind⟩

lemma remap {mapped' : List Block} (h : Laid a nodes mapped carved) (hp : mapped.Perm mapped') :
    Laid a nodes mapped' carved where
  sound := ⟨h.sound.first, h.sound.node, ((hp.append_left _).pairwise_iff Block.Apart.symm).mp
    h.sound.regions, h.sound.placed, h.sound.apart⟩
  starts := h.starts
  behind := h.behind

lemma advance (h : Laid a (l ++ n :: r) mapped carved) (hs : size ≤ n.room) :
    Laid a (l ++ n.take size :: r) mapped
      (⟨n.getAlignedPtr, n.getAlignedPtr + size⟩ :: carved) := by
  have hmem : n ∈ l ++ n :: r := mem_middle.mpr (Or.inl rfl)
  have hptr := (h.sound.node n hmem).le_ptr
  have hstart := (h.starts n hmem).trans hptr
  refine ⟨h.sound.advance hs, fun m hm => ?_, List.forall_mem_cons.mpr ⟨?_, fun b hb => ?_⟩⟩
  · rcases mem_middle.mp hm with rfl | hm
    · exact hstart.trans (Nat.le_add_right _ _)
    · exact h.starts m (mem_middle.mpr (Or.inr hm))
  · exact ⟨n.take size, mem_middle.mpr (Or.inl rfl), hstart, le_rfl⟩
  · obtain ⟨m, hm, hlow, hhigh⟩ := h.behind b hb
    rcases mem_middle.mp hm with rfl | hm
    · exact ⟨m.take size, mem_middle.mpr (Or.inl rfl), hlow,
        hhigh.trans (hptr.trans (Nat.le_add_right _ _))⟩
    · exact ⟨m, mem_middle.mpr (Or.inr hm), hlow, hhigh⟩

lemma extend (h : Laid a nodes ((createNode addr).region :: mapped) carved)
    (hal : poolAlignment ∣ addr) (hfit : addr + defaultPoolSize < addressSpace) :
    Laid a (nodes ++ [createNode addr]) mapped carved := by
  have hregions := (List.perm_middle.pairwise_iff Block.Apart.symm).mp h.sound.regions
  obtain ⟨hapart, hpair⟩ := List.pairwise_cons.mp hregions
  have hne : addr ≠ a := by
    rintro rfl
    obtain ⟨m, hm, rfl⟩ := h.sound.first
    have hap := hapart m.region (List.mem_append_left _ (List.mem_map_of_mem hm))
    have hpos : 0 < defaultPoolSize := by decide
    simp only [Block.Apart, PoolNode.region, createNode] at hap
    omega
  refine ⟨⟨?_, ?_, ?_, fun b hb => ?_, h.sound.apart⟩, ?_, fun b hb => ?_⟩
  · obtain ⟨m, hm, ha⟩ := h.sound.first
    exact ⟨m, List.mem_append_left _ hm, ha⟩
  · refine List.forall_mem_append.mpr ⟨h.sound.node, List.forall_mem_singleton.mpr ?_⟩
    exact createNode_sound hal hfit hne
  · rw [regions_middle.pairwise_iff Block.Apart.symm, List.append_nil]
    exact List.pairwise_cons.mpr ⟨hapart, hpair⟩
  · obtain ⟨hb, m, hm, hin⟩ := h.sound.placed b hb
    exact ⟨hb, m, List.mem_append_left _ hm, hin⟩
  · refine List.forall_mem_append.mpr ⟨h.starts, List.forall_mem_singleton.mpr ?_⟩
    rw [sharedStart, if_neg (by exact hne)]
    exact le_rfl
  · obtain ⟨m, hm, hin⟩ := h.behind b hb
    exact ⟨m, List.mem_append_left _ hm, hin⟩

end Laid

lemma searchShared_cases (size : ℕ) (nodes : List PoolNode) :
    (∃ l n r, nodes = l ++ n :: r ∧ size ≤ n.room ∧ roomy size nodes = some n ∧
      searchShared size nodes = some (l ++ n.take size :: r)) ∨
    (roomy size nodes = none ∧ searchShared size nodes = none) := by
  induction nodes with
  | nil => exact Or.inr ⟨rfl, rfl⟩
  | cons m ms ih =>
    by_cases hm : size ≤ m.room
    · exact Or.inl ⟨[], m, ms, rfl, hm, by simp [roomy, hm], by simp [searchShared, hm]⟩
    · have hroomy : roomy size (m :: ms) = roomy size ms := by simp [roomy, hm]
      rw [hroomy]
      rcases ih with ⟨l, n, r, rfl, hn, hr, hs⟩ | ⟨hr, hs⟩
      · exact Or.inl ⟨m :: l, n, r, rfl, hn, hr, by simp [searchShared, hm, hs]⟩
      · exact Or.inr ⟨hr, by simp [searchShared, hm, hs]⟩

end Memory

section Invariant

variable {ι : Type}

def Pc.Aligned (c : Pc) : Prop :=
  ∀ b ∈ c.pending, poolAlignment ∣ b.start ∧ b.start + defaultPoolSize < addressSpace

structure BlockInv (a : ℕ) (s : State ι) (g : Log ι) : Prop where
  locked : Locked s
  laid : Laid a s.nodes (s.pending ++ g.large) g.carved
  aligned : ∀ i, (s.pc i).Aligned
  counted : s.segments.length = s.nodes.length + s.pending.length + g.large.length

variable {a addr size : ℕ} {header : Bool} {s t : State ι} {g g' : Log ι} {i : ι} {c : Pc}
  {nodes : List PoolNode} {index : ℕ} {segments : List ℕ}

lemma cut_carved (g : Log ι) (n : PoolNode) (size : ℕ) (header : Bool) :
    (g.cut n size header).carved.Perm (⟨n.getAlignedPtr, n.getAlignedPtr + size⟩ :: g.carved) := by
  cases header
  · exact List.Perm.refl _
  · exact List.perm_middle

lemma cut_large (g : Log ι) (n : PoolNode) (size : ℕ) (header : Bool) :
    (g.cut n size header).large = g.large := by
  cases header <;> rfl

lemma pending_free (hl : s.poolLock = none) : s.pending = [] := by
  rw [State.pending, hl]

lemma pending_holder (hl : s.poolLock = some i) : s.pending = (s.pc i).pending := by
  rw [State.pending, hl]

variable [DecidableEq ι]

lemma pending_goto (hp : (s.pc i).pending = []) (hc : c.pending = []) :
    State.pending ⟨nodes, s.poolLock, index, segments, (s.goto i c).pc⟩ = s.pending := by
  rw [State.pending, State.pending]
  cases hl : s.poolLock with
  | none => rfl
  | some j =>
    by_cases hj : j = i
    · subst hj
      simp [State.goto, hp, hc]
    · simp [State.goto, hj]

lemma BlockInv.aligned_goto (h : BlockInv a s g) (hc : c.Aligned) :
    ∀ j, ((s.goto i c).pc j).Aligned :=
  (Function.forall_update_iff s.pc fun _ c => c.Aligned).mpr ⟨hc, fun j _ => h.aligned j⟩

lemma BlockInv.goto (h : BlockInv a s g) (hb : Behaved s.poolLock i c)
    (hp : (s.pc i).pending = []) (hc : c.pending = []) (hl : g'.large = g.large)
    (hcarved : g'.carved = g.carved) :
    BlockInv a ⟨s.nodes, s.poolLock, index, s.segments, (s.goto i c).pc⟩ g' where
  locked := h.locked.keep hb
  laid := by
    rw [pending_goto hp hc, hl, hcarved]
    exact h.laid
  aligned := h.aligned_goto (by simp [Pc.Aligned, hc])
  counted := by
    rw [pending_goto hp hc, hl]
    exact h.counted

lemma BlockInv.allocate (h : BlockInv a s g) (hi : s.pc i = .idle) (size : ℕ) :
    BlockInv a (SharedPool.allocate s i size)
      { g with wanted := Function.update g.wanted i size } := by
  have hfree := (h.locked i).not_holder (by rw [hi]; rfl) (by simp [hi, Pc.stopped])
  rw [SharedPool.allocate]
  split_ifs with hlarge
  · refine h.goto (.without hfree rfl ?_) (by rw [hi]; rfl) rfl rfl rfl
    rintro _ _ ⟨⟩
    decide
  · refine h.goto (.without hfree rfl ?_) (by rw [hi]; rfl) rfl rfl rfl
    rintro _ _ ⟨⟩
    exact not_lt.mp hlarge

lemma afterSmall_pending (header : Bool) : (Pc.afterSmall header).pending = [] := by
  cases header <;> rfl

/-- A thread without the lock, or about to give it up, cuts its block from a node. -/
lemma BlockInv.cut (h : BlockInv a s g) {l r : List PoolNode} {n : PoolNode} (hroom : size ≤ n.room)
    (hl : s.poolLock = none ∨ s.poolLock = some i) (hlaid : Laid a (l ++ n :: r) g.large g.carved)
    (hcount : s.segments.length = (l ++ n :: r).length + g.large.length) :
    BlockInv a ⟨l ++ n.take size :: r, none, index, s.segments,
      (s.goto i (.afterSmall header)).pc⟩ (g.cut n size header) where
  locked := by
    refine h.locked.handOver hl (.inl rfl) (.without (by simp) ?_ ?_)
    · cases header <;> rfl
    · cases header <;> simp [Pc.afterSmall]
  laid := by
    rw [pending_free rfl, cut_large]
    exact (hlaid.advance hroom).perm (cut_carved g n size header).symm
  aligned := h.aligned_goto (by simp [Pc.Aligned, afterSmall_pending])
  counted := by
    rw [pending_free rfl, cut_large, hcount]
    simp

lemma BlockInv.search (h : BlockInv a s g) (hi : s.pc i = .small size header)
    (hl : s.poolLock = none) :
    BlockInv a (SharedPool.search s i size header) (record s (.search i) t g) := by
  have hsize := (h.locked i).small size header hi
  have hlaid := h.laid
  have hcount := h.counted
  rw [pending_free hl, List.nil_append] at hlaid
  rw [pending_free hl] at hcount
  simp only [SharedPool.search, record, hi]
  rcases searchShared_cases size s.nodes with ⟨l, n, r, hnodes, hroom, hroomy, hs⟩ | ⟨hroomy, hs⟩
  · rw [hs, hroomy]
    rw [hnodes] at hlaid hcount
    have hcut : BlockInv a ⟨l ++ n.take size :: r, s.poolLock, s.projIDIndex, s.segments,
        (s.goto i (.afterSmall header)).pc⟩ (g.cut n size header) := by
      rw [hl]
      exact h.cut hroom (.inl hl) hlaid hcount
    exact hcut
  · rw [hs, hroomy]
    have hpend : State.pending { s.goto i (.testing (.node size header)) with
        poolLock := some i } = [] := by
      simp [State.pending, State.goto, Pc.pending]
    refine ⟨?_, ?_, h.aligned_goto (by simp [Pc.Aligned, Pc.pending]), ?_⟩
    · refine h.locked.handOver (.inl hl) (.inr rfl) ⟨fun _ _ => rfl, fun _ => ?_, ?_, by simp⟩
      · exact .inl (by simp [Pc.nodeSize])
      · rintro _ ⟨⟩
        exact hsize
    · rw [hpend]
      exact hlaid
    · rw [hpend]
      exact hcount

lemma BlockInv.test {u : Task} (h : BlockInv a s g) (hi : s.pc i = .testing u) :
    BlockInv a (SharedPool.test s i u) g := by
  rw [SharedPool.test]
  split_ifs
  · exact h.goto (.stop (.inl rfl)) (by rw [hi]; rfl) rfl rfl rfl
  · refine h.goto ((h.locked i).next ?_ (by simp [hi, Pc.stopped]) (by simp)) (by rw [hi]; rfl)
      rfl rfl rfl
    rw [hi]
    cases u <;> rfl

lemma BlockInv.draw {u : Task} (h : BlockInv a s g) (hi : s.pc i = .drawing u) :
    BlockInv a (SharedPool.draw s i u) g := by
  rw [SharedPool.draw]
  split
  · refine h.goto ((h.locked i).next ?_ (by simp [hi, Pc.stopped]) (by simp)) (by rw [hi]; rfl)
      rfl rfl rfl
    rw [hi]
    cases u <;> rfl
  · exact h.goto (.stop (.inr rfl)) (by rw [hi]; rfl) rfl rfl rfl

lemma BlockInv.attach {u : Task} {x : ℕ} (h : BlockInv a s g) (hi : s.pc i = .drawn u x)
    (hg : Granted s g (.attach i addr)) :
    BlockInv a { s.goto i (.attached u addr) with segments := s.segments ++ [x] }
      (record s (.attach i addr) t g) := by
  have hb : Behaved s.poolLock i (.attached u addr) := by
    refine (h.locked i).next ?_ (by simp [hi, Pc.stopped]) (by simp)
    rw [hi]
    cases u <;> rfl
  have hcount := h.counted
  have hlaid := h.laid
  rw [Granted, hi] at hg
  simp only [record, hi]
  cases u with
  | node size header =>
    have hl : s.poolLock = some i := (h.locked i).holds size (by rw [hi]; rfl)
    have hold : s.pending = [] := by
      rw [pending_holder hl, hi]
      rfl
    have hnew : State.pending { s.goto i (.attached (.node size header) addr) with
        segments := s.segments ++ [x] } = [(createNode addr).region] := by
      simp [State.pending, State.goto, hl, Pc.pending]
    rw [State.Fresh, State.regions, hold, List.nil_append] at hg
    rw [hold] at hlaid hcount
    refine ⟨h.locked.keep hb, ?_, h.aligned_goto ?_, ?_⟩
    · rw [hnew]
      exact hlaid.map hg.apart
    · exact List.forall_mem_singleton.mpr ⟨hg.aligned, hg.fits⟩
    · rw [hnew]
      change (s.segments ++ [x]).length = s.nodes.length + 1 + g.large.length
      rw [List.length_append, hcount, List.length_singleton, List.length_nil]
      omega
  | block =>
    have hpend : State.pending { s.goto i (.attached .block addr) with
        segments := s.segments ++ [x] } = s.pending :=
      pending_goto (by rw [hi]; rfl) rfl
    refine ⟨h.locked.keep hb, ?_, h.aligned_goto (by simp [Pc.Aligned, Pc.pending]), ?_⟩
    · rw [hpend]
      exact (hlaid.map hg).remap List.perm_middle.symm
    · rw [hpend]
      change (s.segments ++ [x]).length = s.nodes.length + s.pending.length + (g.large.length + 1)
      rw [List.length_append, hcount, List.length_singleton]
      omega

lemma BlockInv.finish {u : Task} (h : BlockInv a s g) (hi : s.pc i = .attached u addr)
    (hs : SharedPool.finish s i addr u = some t) : BlockInv a t (record s (.finish i) t g) := by
  have hal := h.aligned i
  have hcount := h.counted
  have hlaid := h.laid
  simp only [record, hi]
  cases u with
  | node size header =>
    obtain rfl := Option.some.inj hs
    have hl : s.poolLock = some i := (h.locked i).holds size (by rw [hi]; rfl)
    have hsize := (h.locked i).node size (by rw [hi]; rfl)
    rw [pending_holder hl, hi] at hlaid hcount
    rw [hi] at hal
    obtain ⟨hal, hfit⟩ := hal _ (List.mem_singleton_self _)
    have hnew := hlaid.extend hal hfit
    have hmem : createNode addr ∈ s.nodes ++ [createNode addr] := by simp
    have hroom := createNode_room (hnew.sound.node _ hmem) hsize
    exact h.cut hroom (.inr hl) hnew (by simpa [Pc.pending] using hcount)
  | block =>
    rw [SharedPool.finish] at hs
    split_ifs at hs with hl
    obtain rfl := Option.some.inj hs
    exact h.goto (.without (by simp [hl]) rfl (by simp)) (by rw [hi]; rfl) rfl rfl rfl

lemma BlockInv.step {x : Action ι} (h : BlockInv a s g) (hg : Granted s g x)
    (hs : SharedPool.step s x = some t) : BlockInv a t (record s x t g) := by
  cases x with
  | allocate i size =>
    rw [SharedPool.step] at hs
    split_ifs at hs with hi
    obtain rfl := Option.some.inj hs
    exact h.allocate hi size
  | search i =>
    simp only [SharedPool.step] at hs
    split at hs
    · next hi =>
      split_ifs at hs with hl
      obtain rfl := Option.some.inj hs
      exact h.search hi hl
    · cases hs
  | test i =>
    simp only [SharedPool.step] at hs
    split at hs
    · next hi =>
      obtain rfl := Option.some.inj hs
      exact h.test hi
    · cases hs
  | draw i =>
    simp only [SharedPool.step] at hs
    split at hs
    · next hi =>
      obtain rfl := Option.some.inj hs
      exact h.draw hi
    · cases hs
  | attach i addr =>
    simp only [SharedPool.step] at hs
    split at hs
    · next hi =>
      obtain rfl := Option.some.inj hs
      exact h.attach hi hg
    · cases hs
  | finish i =>
    simp only [SharedPool.step] at hs
    split at hs
    · next hi => exact h.finish hi hs
    · cases hs

omit [DecidableEq ι] in
lemma blockInv_create (ha : poolAlignment ∣ a) (hfit : a + defaultPoolSize < addressSpace) :
    BlockInv a (State.create a) (Log.empty ι) where
  locked i := ⟨nofun, nofun, nofun, nofun⟩
  laid := by
    refine ⟨⟨⟨_, List.mem_singleton_self _, rfl⟩, List.forall_mem_singleton.mpr
      ⟨ha, hfit, rfl, ?_, ?_⟩, List.pairwise_singleton _ _, nofun, List.Pairwise.nil⟩,
      List.forall_mem_singleton.mpr ?_, nofun⟩
    · rw [PoolNode.bodyStart, if_pos (by rfl), Nat.add_assoc]
      exact Nat.add_le_add_left (by decide) a
    · rw [Nat.add_assoc]
      exact Nat.add_le_add_left (by decide) a
    · rw [sharedStart, if_pos (by rfl), Nat.add_assoc]
  aligned _ := nofun
  counted := rfl

end Invariant

section Results

variable {ι : Type} [DecidableEq ι] [Fintype ι]

/-- The blocks are aligned, lie in the nodes behind what the pool itself keeps there, and no two of
them overlap, nor do they overlap the segments of the large blocks. The segments have project ids of
their own, and there is one for each node and each large block. -/
structure BlocksShared (a : ℕ) (s : State ι) (g : Log ι) : Prop where
  aligned : ∀ b ∈ g.carved, ptrAlignment ∣ b.start
  inside : ∀ b ∈ g.carved, ∃ n ∈ s.nodes, sharedStart a n ≤ b.start ∧
    b.stop ≤ n.poolAddr + defaultPoolSize
  apart : (g.carved ++ g.large).Pairwise Block.Apart
  segments : s.segments.Nodup
  counted : s.segments.length = s.nodes.length + s.pending.length + g.large.length

def Allowed (x : State ι × Log ι) (a : Action ι) : Prop := InTime x.1 a ∧ Granted x.1 x.2 a

theorem shared_blocks_sound (a : ℕ) (s : State ι) (g : Log ι) (ha : poolAlignment ∣ a)
    (hfit : a + defaultPoolSize < addressSpace)
    (h : Reaches (observe step record) Allowed (State.create a, Log.empty ι) (s, g)) :
    BlocksShared a s g := by
  have hinv : BlockInv a s g ∧ Inv s := by
    refine h.invariant (I := fun x => BlockInv a x.1 x.2 ∧ Inv x.1)
      ⟨blockInv_create ha hfit, inv_create a⟩ ?_
    rintro ⟨s, g⟩ x ⟨t, g'⟩ ⟨hb, hi⟩ ⟨hin, hg⟩ hst
    obtain ⟨hs, hrec⟩ := observe_some hst
    change g' = record s x t g at hrec
    exact ⟨hrec ▸ hb.step hg hs, hi.step hin hs⟩
  obtain ⟨hb, hi⟩ := hinv
  have hsound := hb.laid.sound
  refine ⟨fun b hb => (hsound.placed b hb).1, fun b hmem => ?_, ?_, hi.distinct, hb.counted⟩
  · obtain ⟨n, hn, hstart, hstop⟩ := hb.laid.behind b hmem
    have hnode := hsound.node n hn
    exact ⟨n, hn, hstart, hstop.trans (hnode.emptyEnd ▸ hnode.le_end)⟩
  · refine List.pairwise_append.mpr ⟨hsound.apart, ?_, fun b hb c hc => ?_⟩
    · exact (List.pairwise_append.mp (List.pairwise_append.mp hsound.regions).2.1).2.1
    · exact hsound.carved_apart_mapped b hb c (List.mem_append_right _ hc)

instance (s : State ι) (g : Log ι) (i : ι) (addr : ℕ) : (c : Pc) → Decidable (s.Fresh g i addr c)
  | .drawn (.node _ _) _ => inferInstanceAs (Decidable (FreshNode _ _))
  | .drawn .block _ => inferInstanceAs (Decidable (∀ b ∈ s.regions g, _))
  | .idle | .small _ _ | .testing _ | .drawing _ | .attached _ _ | .refused | .overrun =>
    isTrue trivial

instance (s : State ι) (g : Log ι) : (a : Action ι) → Decidable (Granted s g a)
  | .attach i addr => inferInstanceAs (Decidable (s.Fresh g i addr (s.pc i)))
  | .allocate _ _ | .search _ | .test _ | .draw _ | .finish _ => isTrue trivial

instance (x : State ι × Log ι) (a : Action ι) : Decidable (Allowed x a) :=
  inferInstanceAs (Decidable (_ ∧ _))

/-- The first thread gets a large block while the second one makes a node. -/
theorem shared_blocks_sound_two : ∃ (s : State (Fin 2)) (g : Log (Fin 2)),
    Reaches (observe step record) Allowed (State.create 65536, Log.empty (Fin 2)) (s, g) ∧
      (g.blocks, g.headers, g.large, s.segments) =
        ([⟨131120, 135120⟩, ⟨77728, 81728⟩, ⟨73728, 77728⟩, ⟨69728, 73728⟩, ⟨65704, 69704⟩],
          [⟨69704, 69728⟩], [⟨196608, 201608⟩], [0, 16, 32]) ∧ BlocksShared 65536 s g := by
  have h : (execute (observe step record) Allowed
      (State.create 65536, Log.empty (Fin 2))
      [.allocate 0 5000, .allocate 1 4000, .search 1, .search 0, .allocate 1 4000, .search 1,
        .allocate 1 4000, .search 1, .allocate 1 4000, .search 1, .allocate 1 4000, .search 1,
        .test 0, .test 1, .draw 1, .draw 0, .attach 1 131072, .attach 0 196608, .finish 1,
        .finish 0]).map (fun x => (x.2.blocks, x.2.headers, x.2.large, x.1.segments)) =
      some ([⟨131120, 135120⟩, ⟨77728, 81728⟩, ⟨73728, 77728⟩, ⟨69728, 73728⟩, ⟨65704, 69704⟩],
          [⟨69704, 69728⟩], [⟨196608, 201608⟩], [0, 16, 32]) := by
    decide +kernel
  obtain ⟨⟨s, g⟩, hs, hv⟩ := reaches_of_execute_map h
  exact ⟨s, g, hs, hv, shared_blocks_sound 65536 s g (by decide) (by decide) hs⟩

end Results

end Xty.Pools.SharedPool
