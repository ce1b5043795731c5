import Xty.General.Chains
import Xty.General.Programs
import Xty.Pools.Allocation

/-! `xtyPool` with its pointers: the chain of nodes, and the chain of large blocks whose headers
lie in the nodes. -/

namespace Xty.Pools

open Xty.General.Programs Xty.General.Chains Xty.General.Blocks Xty.General.Cursor

/-- A node with its pointers. The null pointer is 0. -/
structure NodeObject extends PoolNode where
  next : ℕ
  large : ℕ
deriving DecidableEq, Repr

structure LargeObject where
  data : ℕ
  next : ℕ
deriving DecidableEq, Repr

/-- The objects, the regions that `posix_memalign` and `malloc` have returned, and those of them
that have been given back to `free`. -/
structure Memory where
  node : ℕ → Option NodeObject
  large : ℕ → Option LargeObject
  obtained : List Block
  givenBack : List Block

abbrev PoolProgram (α : Type) := Program Memory α

section Access

def Memory.Live (m : Memory) (b : Block) : Prop := ∀ c ∈ m.givenBack, b.Apart c

instance (m : Memory) (b : Block) : Decidable (m.Live b) :=
  inferInstanceAs (Decidable (∀ c ∈ m.givenBack, b.Apart c))

def nodeBlock (p : ℕ) : Block := ⟨p, p + sizeofPoolNode⟩

def largeBlock (p : ℕ) : Block := ⟨p, p + sizeofLargeBlock⟩

/-- A bound on the rounds of every loop: there are no more nodes and blocks than regions. -/
def regionBound : PoolProgram ℕ := fun m => some (m.obtained.length + 1, m)

def readNode (p : ℕ) : PoolProgram NodeObject := fun m =>
  if m.Live (nodeBlock p) then (m.node p).map fun o => (o, m) else none

def writeNode (p : ℕ) (o : NodeObject) : PoolProgram Unit := fun m =>
  if m.Live (nodeBlock p) then some ((), { m with node := Function.update m.node p (some o) })
  else none

def readLarge (p : ℕ) : PoolProgram LargeObject := fun m =>
  if m.Live (largeBlock p) then (m.large p).map fun o => (o, m) else none

def writeLarge (p : ℕ) (o : LargeObject) : PoolProgram Unit := fun m =>
  if m.Live (largeBlock p) then some ((), { m with large := Function.update m.large p (some o) })
  else none

def obtain (b : Block) : PoolProgram ℕ := fun m =>
  some (b.start, { m with obtained := b :: m.obtained })

/-- Only a region that has been obtained, and not yet given back, can be freed. -/
def free (p : ℕ) : PoolProgram Unit := fun m =>
  (m.obtained.find? fun b => b.start = p ∧ b ∉ m.givenBack).map fun b =>
    ((), { m with givenBack := b :: m.givenBack })

end Access

section Allocation

/-- Behind the pointer to the virtual functions and the mutex. -/
def firstNode (pool : ℕ) : ℕ := pool + 8 + sizeofMutex

def memoryAlignAlloc (fresh : ℕ) : PoolProgram ℕ := obtain ⟨fresh, fresh + defaultPoolSize⟩

def createPool (fresh : ℕ) : PoolProgram ℕ := do
  let pool ← memoryAlignAlloc fresh
  writeNode (firstNode pool)
    ⟨{ PoolNode.create pool with emptyStart := pool + sizeofPool }, 0, 0⟩
  return pool

/-- The node that has the room, which is null if there is none, and the last one before it. -/
def findNode (size : ℕ) : ℕ → ℕ → ℕ → PoolProgram (ℕ × ℕ)
  | 0, _, _ => fun _ => none
  | fuel + 1, current, last =>
    if current = 0 then return (current, last)
    else do
      let o ← readNode current
      if size ≤ o.room then return (current, last)
      else findNode size fuel o.next current

def moveEmptyStart (p size : ℕ) : PoolProgram ℕ := do
  let o ← readNode p
  writeNode p { o with toPoolNode := o.take size }
  return o.getAlignedPtr

def allocateSmall (pool size fresh : ℕ) : PoolProgram ℕ := do
  let (current, last) ← findNode size (← regionBound) (firstNode pool) (firstNode pool)
  if current = 0 then do
    let node ← memoryAlignAlloc fresh
    writeNode node ⟨PoolNode.create node, 0, 0⟩
    let o ← readNode last
    writeNode last { o with next := node }
    moveEmptyStart node size
  else moveEmptyStart current size

def allocateLarge (pool : ℕ) (q : Request) : PoolProgram ℕ := do
  let header ← allocateSmall pool sizeofLargeBlock q.node
  let data ← obtain ⟨q.data, q.data + q.size⟩
  writeLarge header ⟨data, 0⟩
  let o ← readNode (firstNode pool)
  writeLarge header ⟨data, o.large⟩
  writeNode (firstNode pool) { o with large := header }
  return data

def doAllocate (pool : ℕ) (q : Request) : PoolProgram ℕ :=
  if largeBlockSize - sizeofPool < q.size then allocateLarge pool q
  else allocateSmall pool q.size q.node

end Allocation

/-- The nodes with their addresses. The first one lies inside the pool. -/
def cells (pool : ℕ) : List PoolNode → List (ℕ × PoolNode)
  | [] => []
  | n :: ns => (firstNode pool, n) :: ns.map fun n => (n.poolAddr, n)

def Memory.nextNode (m : Memory) (p : ℕ) : Option ℕ := (m.node p).map NodeObject.next

def Memory.nextLarge (m : Memory) (p : ℕ) : Option ℕ := (m.large p).map LargeObject.next

/-- The pointers of the memory spell out the pool. -/
structure Lays (pool : ℕ) (P : Pool) (m : Memory) : Prop where
  head : ∃ n ns, P.nodes = n :: ns ∧ n.poolAddr = pool
  chain : Leads m.nextNode 0 (firstNode pool) ((cells pool P.nodes).map Prod.fst)
  nonnull : ∀ c ∈ cells pool P.nodes, c.1 ≠ 0
  nodes : ∀ c ∈ cells pool P.nodes, ∃ o, m.node c.1 = some o ∧ o.toPoolNode = c.2
  hung : ∃ o, m.node (firstNode pool) = some o ∧
    Leads m.nextLarge 0 o.large (P.large.map LargeBlock.header)
  bare : ∀ n ∈ P.nodes.tail, ∃ o, m.node n.poolAddr = some o ∧ o.large = 0
  large : ∀ b ∈ P.large, (b.header ≠ 0 ∧ b.data ≠ 0 ∧ 0 < b.size) ∧
    ∃ o, m.large b.header = some o ∧ o.data = b.data
  obtained : m.obtained.Perm P.regions
  givenBack : m.givenBack = []

section Cells

variable {pool : ℕ} {n n' : PoolNode} {nodes : List PoolNode} {c : ℕ × PoolNode}
  {L R : List (ℕ × PoolNode)}

lemma cells_snd (pool : ℕ) (nodes : List PoolNode) : (cells pool nodes).map Prod.snd = nodes := by
  cases nodes with
  | nil => rfl
  | cons n ns => simp [cells, Function.comp_def]

lemma cells_append (hne : nodes ≠ []) (n : PoolNode) :
    cells pool (nodes ++ [n]) = cells pool nodes ++ [(n.poolAddr, n)] := by
  obtain ⟨m, ms, rfl⟩ := List.exists_cons_of_ne_nil hne
  simp [cells]

lemma cells_set (h : cells pool nodes = L ++ c :: R) (hn : n'.poolAddr = c.2.poolAddr) :
    cells pool (L.map Prod.snd ++ n' :: R.map Prod.snd) = L ++ (c.1, n') :: R := by
  obtain _ | ⟨m, ms⟩ := nodes
  · simp [cells] at h
  have hmap : ∀ (l : List PoolNode) (K : List (ℕ × PoolNode)),
      (l.map fun n => (n.poolAddr, n)) = K →
        (K.map Prod.snd).map (fun n => (n.poolAddr, n)) = K := by
    rintro l _ rfl
    simp [Function.comp_def]
  rw [cells] at h
  cases L with
  | nil =>
    obtain ⟨hc, hrest⟩ := List.cons.inj h
    rw [List.map_nil, List.nil_append, cells, hmap ms R hrest, ← hc]
    rfl
  | cons d L =>
    obtain ⟨hd, hrest⟩ := List.cons.inj h
    subst hd
    obtain ⟨l, rest, rfl, hl, hcr⟩ := List.map_eq_append_iff.mp hrest
    obtain ⟨k, r, rfl, hk, hr⟩ := List.map_eq_cons_iff.mp hcr
    subst hk
    rw [List.map_cons, List.cons_append, cells, List.map_append, List.map_cons, hmap l L hl,
      hmap r R hr, hn]
    rfl

lemma cells_within (hhead : ∃ n ns, nodes = n :: ns ∧ n.poolAddr = pool)
    (hc : c ∈ cells pool nodes) : (nodeBlock c.1).Within c.2.region := by
  obtain ⟨n, ns, rfl, rfl⟩ := hhead
  have hfirst : 8 + sizeofMutex + sizeofPoolNode ≤ defaultPoolSize := by decide
  rcases List.mem_cons.mp hc with rfl | hc
  · simp only [Block.Within, nodeBlock, PoolNode.region, firstNode]
    omega
  · obtain ⟨k, _, rfl⟩ := List.mem_map.mp hc
    simp only [Block.Within, nodeBlock, PoolNode.region]
    omega

lemma cells_apart {mapped carved : List Block} (hs : Sound pool nodes mapped carved)
    (hhead : ∃ n ns, nodes = n :: ns ∧ n.poolAddr = pool) :
    (cells pool nodes).Pairwise fun c d => (nodeBlock c.1).Apart (nodeBlock d.1) := by
  have hregions := (List.pairwise_append.mp hs.regions).1
  rw [← cells_snd pool nodes, List.map_map, List.pairwise_map] at hregions
  refine hregions.imp_of_mem fun hc hd h => ?_
  exact h.mono (cells_within hhead hc) (cells_within hhead hd)

lemma cells_distinct {mapped carved : List Block} (hs : Sound pool nodes mapped carved)
    (hhead : ∃ n ns, nodes = n :: ns ∧ n.poolAddr = pool) :
    ((cells pool nodes).map Prod.fst).Nodup := by
  rw [List.Nodup, List.pairwise_map]
  refine (cells_apart hs hhead).imp fun h he => ?_
  have hpos : 0 < sizeofPoolNode := by decide
  simp only [Block.Apart, nodeBlock] at h
  omega

end Cells

section Simulation

variable {pool size fresh p last : ℕ} {P : Pool} {m : Memory} {c : ℕ × PoolNode}
  {cs L R : List (ℕ × PoolNode)} {carved : List Block}

lemma live_of_none (h : m.givenBack = []) (b : Block) : m.Live b := by
  simp [Memory.Live, h]

lemma readNode_run {o : NodeObject} (hl : m.Live (nodeBlock p)) (ho : m.node p = some o) :
    readNode p m = some (o, m) := by
  simp [readNode, hl, ho]

lemma writeNode_run (hl : m.Live (nodeBlock p)) (o : NodeObject) :
    writeNode p o m = some ((), { m with node := Function.update m.node p (some o) }) :=
  if_pos hl

lemma findNode_spec {fuel : ℕ} (hchain : Leads m.nextNode 0 p (cs.map Prod.fst))
    (hne : ∀ c ∈ cs, c.1 ≠ 0) (hnodes : ∀ c ∈ cs, ∃ o, m.node c.1 = some o ∧ o.toPoolNode = c.2)
    (hback : m.givenBack = []) (hfuel : cs.length < fuel) :
    Yields (findNode size fuel p last) m fun found m' => m' = m ∧
      ((∃ L c R, cs = L ++ c :: R ∧ (∀ d ∈ L, d.2.room < size) ∧ size ≤ c.2.room ∧
        found.1 = c.1) ∨
      ((∀ d ∈ cs, d.2.room < size) ∧ found = (0, (cs.map Prod.fst).getLastD last))) := by
  induction cs generalizing p last fuel with
  | nil =>
    obtain ⟨n, rfl⟩ := Nat.exists_eq_add_of_lt hfuel
    obtain rfl : p = 0 := hchain
    rw [findNode, if_pos rfl]
    exact Yields.pure ⟨rfl, Or.inr ⟨nofun, rfl⟩⟩
  | cons c cs ih =>
    obtain _ | fuel := fuel
    · simp at hfuel
    obtain ⟨rfl, r, hr, hchain⟩ := hchain
    obtain ⟨o, ho, hoc⟩ := hnodes c List.mem_cons_self
    rw [findNode, if_neg (hne c List.mem_cons_self)]
    apply Yields.step (readNode_run (live_of_none hback _) ho)
    have hroom : o.room = c.2.room := congrArg PoolNode.room hoc
    rw [hroom]
    by_cases hs : size ≤ c.2.room
    · rw [if_pos hs]
      exact Yields.pure ⟨rfl, Or.inl ⟨[], c, cs, rfl, nofun, hs, rfl⟩⟩
    · rw [if_neg hs]
      have hnext : o.next = r := by simpa [Memory.nextNode, ho] using hr
      rw [hnext]
      refine (ih hchain (fun d hd => hne d (List.mem_cons_of_mem c hd))
        (fun d hd => hnodes d (List.mem_cons_of_mem c hd)) (Nat.lt_of_succ_lt_succ hfuel)).mono ?_
      rintro found m' ⟨hm, ⟨L, d, R, rfl, hL, hd, hf⟩ | ⟨hfull, hf⟩⟩
      · exact ⟨hm, Or.inl ⟨c :: L, d, R, rfl, List.forall_mem_cons.mpr ⟨not_le.mp hs, hL⟩, hd, hf⟩⟩
      · refine ⟨hm, Or.inr ⟨List.forall_mem_cons.mpr ⟨not_le.mp hs, hfull⟩, ?_⟩⟩
        rw [List.map_cons, List.getLastD_cons]
        exact hf

lemma searchNode_found {l r : List PoolNode} {n : PoolNode} (hl : ∀ d ∈ l, d.room < size)
    (hn : size ≤ n.room) :
    searchNode size fresh (l ++ n :: r) = (l ++ n.take size :: r, n.getAlignedPtr) := by
  induction l with
  | nil => simp [searchNode, hn]
  | cons m l ih =>
    obtain ⟨hm, hl⟩ := List.forall_mem_cons.mp hl
    simp [searchNode, not_le.mpr hm, ih hl]

lemma searchNode_full {l : List PoolNode} (hl : ∀ d ∈ l, d.room < size) :
    searchNode size fresh l
      = (l ++ [(PoolNode.create fresh).take size], (PoolNode.create fresh).getAlignedPtr) := by
  induction l with
  | nil => rfl
  | cons m l ih =>
    obtain ⟨hm, hl⟩ := List.forall_mem_cons.mp hl
    simp [searchNode, not_le.mpr hm, ih hl]

lemma Lays.first_mem (h : Lays pool P m) : firstNode pool ∈ (cells pool P.nodes).map Prod.fst := by
  obtain ⟨n, ns, hn, _⟩ := h.head
  rw [hn]
  exact List.mem_cons_self

lemma Lays.tail_mem {n : PoolNode} (h : Lays pool P m) (hn : n ∈ P.nodes.tail) :
    n.poolAddr ∈ ((cells pool P.nodes).map Prod.fst).tail := by
  obtain ⟨k, ks, hk, _⟩ := h.head
  rw [hk, List.tail_cons] at hn
  rw [hk, cells, List.map_cons, List.tail_cons, List.map_map]
  exact List.mem_map_of_mem hn

lemma nodes_set (hc : cells pool P.nodes = L ++ c :: R) :
    P.nodes = L.map Prod.snd ++ c.2 :: R.map Prod.snd := by
  rw [← cells_snd pool P.nodes, hc, List.map_append, List.map_cons]

lemma tail_set {n : PoolNode} (hn : n.poolAddr = c.2.poolAddr) {k : PoolNode}
    (hk : k ∈ (L.map Prod.snd ++ n :: R.map Prod.snd).tail) :
    ∃ k' ∈ (L.map Prod.snd ++ c.2 :: R.map Prod.snd).tail, k'.poolAddr = k.poolAddr := by
  cases L with
  | nil => exact ⟨k, hk, rfl⟩
  | cons d L =>
    simp only [List.map_cons, List.cons_append, List.tail_cons] at hk ⊢
    rcases List.mem_append.mp hk with hk | hk
    · exact ⟨k, List.mem_append_left _ hk, rfl⟩
    · rcases List.mem_cons.mp hk with rfl | hk
      · exact ⟨c.2, by simp, hn.symm⟩
      · exact ⟨k, List.mem_append_right _ (List.mem_cons_of_mem _ hk), rfl⟩

lemma head_set {n : PoolNode} (hn : n.poolAddr = c.2.poolAddr)
    (h : ∃ k ks, L.map Prod.snd ++ c.2 :: R.map Prod.snd = k :: ks ∧ k.poolAddr = pool) :
    ∃ k ks, L.map Prod.snd ++ n :: R.map Prod.snd = k :: ks ∧ k.poolAddr = pool := by
  obtain ⟨k, ks, hk, hpool⟩ := h
  cases L with
  | nil =>
    obtain ⟨rfl, _⟩ := List.cons.inj hk
    exact ⟨n, _, rfl, hn.trans hpool⟩
  | cons d L =>
    obtain ⟨rfl, _⟩ := List.cons.inj hk
    exact ⟨d.2, _, rfl, hpool⟩

lemma nodes_update {o : NodeObject} {n : PoolNode} (hd : ((L ++ c :: R).map Prod.fst).Nodup)
    (hnodes : ∀ d ∈ L ++ c :: R, ∃ o, m.node d.1 = some o ∧ o.toPoolNode = d.2) :
    ∀ d ∈ L ++ (c.1, n) :: R, ∃ o',
      Function.update m.node c.1 (some { o with toPoolNode := n }) d.1 = some o' ∧
        o'.toPoolNode = d.2 := by
  rw [List.map_append, List.map_cons, List.nodup_append, List.nodup_cons] at hd
  obtain ⟨_, ⟨hright, _⟩, hleft⟩ := hd
  intro d hdm
  rcases List.mem_append.mp hdm with hL | hcR
  · have hne : d.1 ≠ c.1 := hleft d.1 (List.mem_map_of_mem hL) c.1 List.mem_cons_self
    obtain ⟨o', ho', hod⟩ := hnodes d (List.mem_append_left _ hL)
    exact ⟨o', (Function.update_of_ne hne _ _).trans ho', hod⟩
  · rcases List.mem_cons.mp hcR with rfl | hR
    · exact ⟨_, Function.update_self _ _ _, rfl⟩
    · have hne : d.1 ≠ c.1 := fun he => hright (he ▸ List.mem_map_of_mem hR)
      obtain ⟨o', ho', hod⟩ := hnodes d (List.mem_append_right _ (List.mem_cons_of_mem c hR))
      exact ⟨o', (Function.update_of_ne hne _ _).trans ho', hod⟩

lemma Lays.move {o : NodeObject} {n : PoolNode} (h : Lays pool P m)
    (hd : ((cells pool P.nodes).map Prod.fst).Nodup) (hc : cells pool P.nodes = L ++ c :: R)
    (ho : m.node c.1 = some o) (hn : n.poolAddr = c.2.poolAddr) :
    Lays pool { P with nodes := L.map Prod.snd ++ n :: R.map Prod.snd }
      { m with node := Function.update m.node c.1 (some { o with toPoolNode := n }) } := by
  have hcells : cells pool (L.map Prod.snd ++ n :: R.map Prod.snd) = L ++ (c.1, n) :: R :=
    cells_set hc hn
  have hnodes : P.nodes = L.map Prod.snd ++ c.2 :: R.map Prod.snd := nodes_set hc
  have hfst : (cells pool (L.map Prod.snd ++ n :: R.map Prod.snd)).map Prod.fst
      = (cells pool P.nodes).map Prod.fst := by
    rw [hcells, hc]
    simp
  refine ⟨?_, ?_, ?_, ?_, ?_, ?_, h.large, ?_, h.givenBack⟩
  · exact head_set hn (hnodes ▸ h.head)
  · rw [hfst]
    exact h.chain.frame fun p _ =>
      map_update (g := NodeObject.next) (y := { o with toPoolNode := n }) ho rfl p
  · intro d hdm
    have hmem : d.1 ∈ (cells pool P.nodes).map Prod.fst := by
      rw [← hfst]
      exact List.mem_map_of_mem hdm
    obtain ⟨e, he, hde⟩ := List.mem_map.mp hmem
    exact hde ▸ h.nonnull e he
  · rw [hcells]
    exact nodes_update (hc ▸ hd) (hc ▸ h.nodes)
  · obtain ⟨o', ho', hung⟩ := h.hung
    obtain ⟨o'', ho'', hl⟩ := exists_update (g := NodeObject.large)
      (y := { o with toPoolNode := n }) ho rfl ⟨o', ho', rfl⟩
    exact ⟨o'', ho'', hl ▸ hung⟩
  · intro k hk
    obtain ⟨k', hk', haddr⟩ := tail_set hn hk
    exact exists_update (y := { o with toPoolNode := n }) ho rfl (haddr ▸ h.bare k' (hnodes ▸ hk'))
  · have hregion : n.region = c.2.region := by rw [PoolNode.region, PoolNode.region, hn]
    refine h.obtained.trans (List.Perm.of_eq ?_)
    rw [Pool.regions, Pool.regions, hnodes]
    simp [hregion, Pool.mapped]

lemma Lays.extend {o : NodeObject} (h : Lays pool P m)
    (hd : ((cells pool P.nodes).map Prod.fst).Nodup) (hc : cells pool P.nodes = L ++ [c])
    (ho : m.node c.1 = some o) (hf : fresh ∉ (cells pool P.nodes).map Prod.fst) (hz : fresh ≠ 0) :
    Lays pool { P with nodes := P.nodes ++ [PoolNode.create fresh] }
      { m with
        obtained := ⟨fresh, fresh + defaultPoolSize⟩ :: m.obtained
        node := Function.update (Function.update m.node fresh (some ⟨PoolNode.create fresh, 0, 0⟩))
          c.1 (some { o with next := fresh }) } := by
  have hnil : P.nodes ≠ [] := by
    rintro hn
    rw [hn] at hc
    simp [cells] at hc
  have hcells : cells pool (P.nodes ++ [PoolNode.create fresh])
      = cells pool P.nodes ++ [(fresh, PoolNode.create fresh)] := cells_append hnil _
  have hne : ∀ p ∈ (cells pool P.nodes).map Prod.fst, p ≠ fresh := fun p hp he => hf (he ▸ hp)
  have hfc : c.1 ≠ fresh := hne c.1 (by simp [hc])
  have ho' : Function.update m.node fresh (some ⟨PoolNode.create fresh, 0, 0⟩) c.1 = some o :=
    (Function.update_of_ne hfc _ _).trans ho
  refine ⟨?_, ?_, ?_, ?_, ?_, ?_, h.large, ?_, h.givenBack⟩
  · obtain ⟨k, ks, hk, hpool⟩ := h.head
    exact ⟨k, ks ++ [PoolNode.create fresh], by rw [hk]; rfl, hpool⟩
  · rw [hcells, hc, List.map_append, List.map_append, List.map_singleton, List.map_singleton,
      List.append_assoc, List.singleton_append]
    have hchain := h.chain
    rw [hc, List.map_append, List.map_singleton] at hchain
    rw [hc, List.map_append] at hd hne
    refine hchain.extend (fun x hx => ?_) ?_ ?_
    · have hxc : x ≠ c.1 := (List.nodup_append.mp hd).2.2 x hx c.1 (by simp)
      have hxf : x ≠ fresh := hne x (List.mem_append_left _ hx)
      simp [Memory.nextNode, hxc, hxf]
    · simp [Memory.nextNode]
    · simp [Memory.nextNode, hfc.symm]
  · rw [hcells]
    intro d hdm
    rcases List.mem_append.mp hdm with hdm | hdm
    · exact h.nonnull d hdm
    · obtain rfl := List.mem_singleton.mp hdm
      exact hz
  · rw [hcells]
    intro d hdm
    rcases List.mem_append.mp hdm with hdm | hdm
    · refine exists_update (g := NodeObject.toPoolNode) (y := { o with next := fresh }) ho' rfl ?_
      rw [Function.update_of_ne (hne d.1 (List.mem_map_of_mem hdm))]
      exact h.nodes d hdm
    · obtain rfl := List.mem_singleton.mp hdm
      exact ⟨⟨PoolNode.create fresh, 0, 0⟩, by simp [hfc.symm], rfl⟩
  · obtain ⟨x, hx, hung⟩ := h.hung
    obtain ⟨y, hy, hlarge⟩ := exists_update (g := NodeObject.large) (y := { o with next := fresh })
      ho' rfl ⟨x, (Function.update_of_ne (hne _ h.first_mem) _ _).trans hx, rfl⟩
    exact ⟨y, hy, hlarge ▸ hung⟩
  · intro k hk
    rw [List.tail_append_of_ne_nil hnil] at hk
    rcases List.mem_append.mp hk with hk | hk
    · refine exists_update (g := NodeObject.large) (y := { o with next := fresh }) ho' rfl ?_
      rw [Function.update_of_ne (hne _ (List.mem_of_mem_tail (h.tail_mem hk)))]
      exact h.bare k hk
    · obtain rfl := List.mem_singleton.mp hk
      exact ⟨⟨PoolNode.create fresh, 0, 0⟩, by simp [PoolNode.create, hfc.symm], rfl⟩
  · rw [Pool.regions, List.map_append, List.map_singleton, List.append_assoc,
      List.singleton_append]
    exact (h.obtained.cons _).trans List.perm_middle.symm

lemma Lays.hang {o : NodeObject} {b : LargeBlock} (h : Lays pool P m)
    (hd : ((cells pool P.nodes).map Prod.fst).Nodup) (ho : m.node (firstNode pool) = some o)
    (hb : b.header ≠ 0 ∧ b.data ≠ 0 ∧ 0 < b.size) (hnew : ∀ d ∈ P.large, d.header ≠ b.header) :
    Lays pool { P with large := b :: P.large } { m with
      obtained := b.dataBlock :: m.obtained
      large := Function.update m.large b.header (some ⟨b.data, o.large⟩)
      node := Function.update m.node (firstNode pool) (some { o with large := b.header }) } := by
  have hnext : ∀ p, (Function.update m.node (firstNode pool) (some { o with large := b.header })
      p).map NodeObject.next = (m.node p).map NodeObject.next := map_update ho rfl
  refine ⟨h.head, h.chain.frame fun p _ => hnext p, h.nonnull, ?_, ?_, ?_, ?_, ?_, h.givenBack⟩
  · exact fun c hc => exists_update (y := { o with large := b.header }) ho rfl (h.nodes c hc)
  · obtain ⟨o', ho', hung⟩ := h.hung
    rw [ho] at ho'
    obtain rfl := Option.some.inj ho'
    refine ⟨_, Function.update_self _ _ _, rfl, o.large, by simp [Memory.nextLarge], ?_⟩
    refine hung.frame fun x hx => ?_
    obtain ⟨d, hdm, rfl⟩ := List.mem_map.mp hx
    simp [Memory.nextLarge, hnew d hdm]
  · intro k hk
    have htail := h.tail_mem hk
    have hkf : k.poolAddr ≠ firstNode pool := by
      obtain ⟨n, ns, hn, _⟩ := h.head
      rw [hn, cells, List.map_cons] at hd htail
      exact fun he => (List.nodup_cons.mp hd).1 (he ▸ htail)
    obtain ⟨o', ho', hzero⟩ := h.bare k hk
    exact ⟨o', (Function.update_of_ne hkf _ _).trans ho', hzero⟩
  · intro d hdm
    rcases List.mem_cons.mp hdm with rfl | hdm
    · exact ⟨hb, _, Function.update_self _ _ _, rfl⟩
    · obtain ⟨hz, o', ho', hod⟩ := h.large d hdm
      exact ⟨hz, o', (Function.update_of_ne (hnew d hdm) _ _).trans ho', hod⟩
  · exact (h.obtained.cons _).trans List.perm_middle.symm

variable (size) in
lemma moveEmptyStart_spec (h : Lays pool P m) (hd : ((cells pool P.nodes).map Prod.fst).Nodup)
    (hc : cells pool P.nodes = L ++ c :: R) :
    Yields (moveEmptyStart c.1 size) m fun p m' => p = c.2.getAlignedPtr ∧
      Lays pool { P with nodes := L.map Prod.snd ++ c.2.take size :: R.map Prod.snd } m' := by
  obtain ⟨o, ho, hoc⟩ := h.nodes c (by rw [hc]; simp)
  have hlive := live_of_none h.givenBack
  refine Yields.step (readNode_run (hlive _) ho) (Yields.step (writeNode_run (hlive _) _) ?_)
  refine Yields.pure ⟨congrArg PoolNode.getAlignedPtr hoc, ?_⟩
  have htake : o.take size = c.2.take size := by rw [← hoc]
  rw [htake]
  exact h.move hd hc ho rfl

lemma Lays.length_le (h : Lays pool P m) : (cells pool P.nodes).length ≤ m.obtained.length := by
  have hlen := congrArg List.length (cells_snd pool P.nodes)
  rw [List.length_map] at hlen
  rw [h.obtained.length_eq, Pool.regions, List.length_append, List.length_map, hlen]
  exact Nat.le_add_right _ _

lemma allocateSmall_spec (h : Lays pool P m) (hs : Sound pool P.nodes P.mapped carved)
    (hf : P.Full size → FreshNode fresh P.regions ∧ fresh ≠ 0) :
    Yields (allocateSmall pool size fresh) m fun p m' =>
      p = (P.doPoolAllocateSmall size fresh).2 ∧
        Lays pool (P.doPoolAllocateSmall size fresh).1 m' := by
  have hd := cells_distinct hs h.head
  have hsnd := cells_snd pool P.nodes
  refine Yields.step rfl ((findNode_spec h.chain h.nonnull h.nodes h.givenBack
    (Nat.lt_succ_of_le h.length_le)).bind ?_)
  rintro ⟨current, last⟩ m ⟨rfl, ⟨L, c, R, hc, hL, hroom, hcur⟩ | ⟨hfull, hfound⟩⟩
  · obtain rfl : current = c.1 := hcur
    have hsearch : searchNode size fresh P.nodes
        = (L.map Prod.snd ++ c.2.take size :: R.map Prod.snd, c.2.getAlignedPtr) := by
      rw [← hsnd, hc, List.map_append, List.map_cons]
      exact searchNode_found (List.forall_mem_map.mpr hL) hroom
    rw [Pool.doPoolAllocateSmall, hsearch]
    dsimp only
    rw [if_neg (h.nonnull c (by rw [hc]; simp))]
    exact moveEmptyStart_spec size h hd hc
  · obtain ⟨rfl, rfl⟩ := Prod.mk.inj hfound
    have hfull : P.Full size := by
      intro n hn
      rw [← hsnd] at hn
      obtain ⟨d, hdm, rfl⟩ := List.mem_map.mp hn
      exact hfull d hdm
    obtain ⟨hfresh, hz⟩ := hf hfull
    obtain ⟨n, ns, hn, _⟩ := h.head
    obtain ⟨K, c, hc⟩ : ∃ K c, cells pool P.nodes = K ++ [c] := by
      refine ⟨(cells pool P.nodes).dropLast, _, (List.dropLast_append_getLast ?_).symm⟩
      rw [hn]
      exact List.cons_ne_nil _ _
    have hlast : ((cells pool P.nodes).map Prod.fst).getLastD (firstNode pool) = c.1 := by
      rw [hc, List.map_append, List.map_singleton, List.getLastD_concat]
    obtain ⟨o, ho, _⟩ := h.nodes c (by rw [hc]; simp)
    have hs' := hs.extend hfresh
    have hnotin : fresh ∉ (cells pool P.nodes).map Prod.fst := by
      have hd' := cells_distinct hs'
        ⟨n, ns ++ [PoolNode.create fresh], by rw [hn]; rfl, by simp_all⟩
      rw [cells_append (by rw [hn]; simp), List.map_append, List.nodup_append] at hd'
      exact fun hmem => hd'.2.2 fresh hmem fresh (by simp [PoolNode.create]) rfl
    have hfc : c.1 ≠ fresh := by
      rintro he
      exact hnotin (he ▸ by simp [hc])
    have hlay := h.extend hd hc ho hnotin hz
    dsimp only
    rw [if_pos rfl, hlast]
    refine Yields.step rfl ?_
    refine Yields.step (writeNode_run (live_of_none (by exact h.givenBack) _) _) ?_
    refine Yields.step (readNode_run (live_of_none (by exact h.givenBack) _)
      ((Function.update_of_ne hfc _ _).trans ho)) ?_
    refine Yields.step (writeNode_run (live_of_none (by exact h.givenBack) _) _) ?_
    rw [Pool.doPoolAllocateSmall, searchNode_full hfull]
    have hcells : cells pool (P.nodes ++ [PoolNode.create fresh])
        = cells pool P.nodes ++ [(fresh, PoolNode.create fresh)] :=
      cells_append (by rw [hn]; simp) _
    have hmove := moveEmptyStart_spec size hlay (cells_distinct hs' hlay.head) hcells
    rw [hsnd] at hmove
    exact hmove

lemma header_ne_zero {b : Block} (hs : Sound pool P.nodes P.mapped carved) (hb : b ∈ carved) :
    b.start ≠ 0 := by
  obtain ⟨-, n, -, hstart, -⟩ := hs.placed b hb
  have hpos : 0 < n.bodyStart pool := by
    rw [PoolNode.bodyStart]
    split_ifs <;> simp [sizeofPool, sizeofMutex, sizeofPoolNode]
  omega

lemma allocateLarge_spec {q : Request} {g : List Block} (h : Lays pool P m)
    (hs : Sound pool P.nodes P.mapped (g ++ P.headers))
    (hf : P.Full sizeofLargeBlock → FreshNode q.node P.regions ∧ q.node ≠ 0)
    (hz : q.data ≠ 0 ∧ 0 < q.size) :
    Yields (allocateLarge pool q) m fun p m' =>
      p = (P.doPoolAllocateLarge q).2 ∧ Lays pool (P.doPoolAllocateLarge q).1 m' := by
  have hs' := hs.search (by decide : sizeofLargeBlock ≤ _) fun hfull => (hf hfull).1
  apply (allocateSmall_spec h hs hf).bind
  rintro _ m' ⟨rfl, h'⟩
  have hd := cells_distinct hs' h'.head
  obtain ⟨o, ho, _⟩ := h'.hung
  have hheader := header_ne_zero (P := (P.doPoolAllocateSmall sizeofLargeBlock q.node).1) hs'
    List.mem_cons_self
  have hnew : ∀ d ∈ P.large, d.header ≠ (P.doPoolAllocateSmall sizeofLargeBlock q.node).2 := by
    intro d hd he
    have hap := (List.pairwise_cons.mp hs'.apart).1 d.headerBlock
      (List.mem_append_right _ (List.mem_map_of_mem hd))
    have hpos : 0 < sizeofLargeBlock := by decide
    rw [LargeBlock.headerBlock, he] at hap
    simp only [Block.Apart, Pool.doPoolAllocateSmall] at hap
    omega
  have hhang := h'.hang
    (b := ⟨(P.doPoolAllocateSmall sizeofLargeBlock q.node).2, q.data, q.size⟩) hd
    ho ⟨hheader, hz⟩ hnew
  refine Yields.step rfl (Yields.step (if_pos (live_of_none (by exact h'.givenBack) _)) ?_)
  refine Yields.step (readNode_run (live_of_none (by exact h'.givenBack) _) ho) ?_
  refine Yields.step (if_pos (live_of_none (by exact h'.givenBack) _)) ?_
  refine Yields.step (writeNode_run (live_of_none (by exact h'.givenBack) _) _) ?_
  refine Yields.pure ⟨rfl, ?_⟩
  rw [Function.update_idem]
  exact hhang

/-- `posix_memalign` and `malloc` return no null pointers: if they fail, the process ends. -/
structure Returned (P : Pool) (q : Request) : Prop extends Granted P q where
  node_ne : P.Full q.cut → q.node ≠ 0
  data_ne : largeBlockSize - sizeofPool < q.size → q.data ≠ 0

lemma doAllocate_spec {q : Request} {g : List Block} (h : Lays pool P m)
    (hs : Sound pool P.nodes P.mapped (g ++ P.headers)) (hq : Returned P q) :
    Yields (doAllocate pool q) m fun p m' =>
      p = (P.doPoolAllocate q).2 ∧ Lays pool (P.doPoolAllocate q).1 m' := by
  have hnode : P.Full q.cut → FreshNode q.node P.regions ∧ q.node ≠ 0 := fun hfull =>
    ⟨hq.node hfull, hq.node_ne hfull⟩
  rw [Request.cut] at hnode
  rw [doAllocate, Pool.doPoolAllocate]
  by_cases hl : largeBlockSize - sizeofPool < q.size
  · rw [if_pos hl] at hnode
    rw [if_pos hl, if_pos hl]
    exact allocateLarge_spec h hs hnode ⟨hq.data_ne hl, (Nat.zero_le _).trans_lt hl⟩
  · rw [if_neg hl] at hnode
    rw [if_neg hl, if_neg hl]
    exact allocateSmall_spec h hs hnode

end Simulation

section History

variable {pool : ℕ} {P : Pool} {m : Memory} {qs : List Request} {g : List Block}

def Memory.empty : Memory := ⟨fun _ => none, fun _ => none, [], []⟩

lemma create_lays (pool : ℕ) : Lays pool (Pool.create pool) {
    node := Function.update (fun _ => none) (firstNode pool)
      (some ⟨{ PoolNode.create pool with emptyStart := pool + sizeofPool }, 0, 0⟩)
    large := fun _ => none
    obtained := [⟨pool, pool + defaultPoolSize⟩]
    givenBack := [] } where
  head := ⟨_, [], rfl, rfl⟩
  chain := ⟨rfl, 0, by simp [Memory.nextNode], rfl⟩
  nonnull := by simp [cells, Pool.create, firstNode]
  nodes := by simp [cells, Pool.create]
  hung := ⟨⟨{ PoolNode.create pool with emptyStart := pool + sizeofPool }, 0, 0⟩, by simp, rfl⟩
  bare := nofun
  large := nofun
  obtained := List.Perm.refl _
  givenBack := rfl

lemma createPool_spec (pool : ℕ) :
    Yields (createPool pool) Memory.empty fun p m => p = pool ∧ Lays pool (Pool.create pool) m := by
  refine Yields.step rfl (Yields.step (writeNode_run (live_of_none (by rfl) _) _) ?_)
  exact Yields.pure ⟨rfl, create_lays pool⟩

def allocateAll (pool : ℕ) : List Request → PoolProgram Unit
  | [] => return ()
  | q :: qs => do
    let _ ← doAllocate pool q
    allocateAll pool qs

def Pool.after (P : Pool) : List Request → Pool
  | [] => P
  | q :: qs => (P.doPoolAllocate q).1.after qs

def ReturnedAll (P : Pool) : List Request → Prop
  | [] => True
  | q :: qs => Returned P q ∧ ReturnedAll (P.doPoolAllocate q).1 qs

lemma allocateAll_spec (h : Lays pool P m) (hs : Sound pool P.nodes P.mapped (g ++ P.headers))
    (hqs : ReturnedAll P qs) :
    Yields (allocateAll pool qs) m fun _ m' => Lays pool (P.after qs) m' ∧
      ∃ g', Sound pool (P.after qs).nodes (P.after qs).mapped (g' ++ (P.after qs).headers) := by
  induction qs generalizing P m g with
  | nil => exact Yields.pure ⟨h, g, hs⟩
  | cons q qs ih =>
    obtain ⟨hq, hqs⟩ := hqs
    apply (doAllocate_spec h hs hq).bind
    rintro _ m' ⟨rfl, h'⟩
    exact ih h' (Pool.allocate_sound hs hq.toGranted rfl) hqs

end History

end Xty.Pools
