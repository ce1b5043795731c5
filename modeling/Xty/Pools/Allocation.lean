import Xty.General.Blocks
import Xty.General.Cursor
import Xty.General.Runs

/-! `xtyPool`: small blocks are cut from the nodes, large ones are given to `malloc`. -/

namespace Xty.Pools

open Xty.General.Runs Xty.General.Blocks Xty.General.Cursor

def ptrAlignment : ℕ := 8
def poolAlignment : ℕ := 16
def largeBlockSize : ℕ := 4096
def defaultPoolSize : ℕ := 4 * 4096

-- The sizes of the classes where a pointer has eight bytes: four pointers, two pointers, and
-- for the mutex the pointer to its virtual functions, another pointer and a bool.
def sizeofPoolNode : ℕ := 32
def sizeofLargeBlock : ℕ := 16
def sizeofMutex : ℕ := 24
def sizeofPool : ℕ := 8 + sizeofMutex + sizeofPoolNode

/-- `poolAddr` is the start of the region that the node has been constructed for. -/
structure PoolNode where
  poolAddr : ℕ
  emptyStart : ℕ
  emptyEnd : ℕ
deriving DecidableEq, Repr

/-- The address of the header, and the region that `malloc` has returned for its data. -/
structure LargeBlock where
  header : ℕ
  data : ℕ
  size : ℕ
deriving DecidableEq, Repr

/-- The chain of nodes, the one inside the pool first, and the large blocks that hang on it. -/
structure Pool where
  nodes : List PoolNode
  large : List LargeBlock
deriving DecidableEq, Repr

/-- The size that is asked for, and what `posix_memalign` and `malloc` return if they are called.
A failure of theirs ends the process. -/
structure Request where
  size : ℕ
  node : ℕ
  data : ℕ

namespace PoolNode

def create (poolAddr : ℕ) : PoolNode where
  poolAddr := poolAddr
  emptyStart := poolAddr + sizeofPoolNode
  emptyEnd := poolAddr + defaultPoolSize

def getAlignedPtr (n : PoolNode) : ℕ :=
  wrap (n.emptyStart + (ptrAlignment - 1)) &&& (addressSpace - ptrAlignment)

def room (n : PoolNode) : ℕ := wrap (n.emptyEnd + (addressSpace - n.getAlignedPtr))

def take (n : PoolNode) (size : ℕ) : PoolNode := { n with emptyStart := n.getAlignedPtr + size }

def region (n : PoolNode) : Block := ⟨n.poolAddr, n.poolAddr + defaultPoolSize⟩

end PoolNode

def LargeBlock.headerBlock (b : LargeBlock) : Block := ⟨b.header, b.header + sizeofLargeBlock⟩

def LargeBlock.dataBlock (b : LargeBlock) : Block := ⟨b.data, b.data + b.size⟩

/-- The first node that has the room is used, or a new one at the end. -/
def searchNode (size fresh : ℕ) : List PoolNode → List PoolNode × ℕ
  | [] => ([(PoolNode.create fresh).take size], (PoolNode.create fresh).getAlignedPtr)
  | n :: ns =>
    if size ≤ n.room then (n.take size :: ns, n.getAlignedPtr)
    else (n :: (searchNode size fresh ns).1, (searchNode size fresh ns).2)

namespace Pool

def create (poolAddr : ℕ) : Pool where
  nodes := [{ PoolNode.create poolAddr with emptyStart := poolAddr + sizeofPool }]
  large := []

def doPoolAllocateSmall (P : Pool) (size fresh : ℕ) : Pool × ℕ :=
  ({ P with nodes := (searchNode size fresh P.nodes).1 }, (searchNode size fresh P.nodes).2)

/-- The header is itself a small block. -/
def doPoolAllocateLarge (P : Pool) (q : Request) : Pool × ℕ :=
  let (P', header) := P.doPoolAllocateSmall sizeofLargeBlock q.node
  ({ P' with large := ⟨header, q.data, q.size⟩ :: P'.large }, q.data)

def doPoolAllocate (P : Pool) (q : Request) : Pool × ℕ :=
  if largeBlockSize - sizeofPool < q.size then P.doPoolAllocateLarge q
  else P.doPoolAllocateSmall q.size q.node

def headers (P : Pool) : List Block := P.large.map LargeBlock.headerBlock

def mapped (P : Pool) : List Block := P.large.map LargeBlock.dataBlock

def regions (P : Pool) : List Block := P.nodes.map PoolNode.region ++ P.mapped

end Pool

def Request.cut (q : Request) : ℕ :=
  if largeBlockSize - sizeofPool < q.size then sizeofLargeBlock else q.size

lemma Request.cut_le (q : Request) : q.cut ≤ largeBlockSize - sizeofPool := by
  rw [cut]
  split_ifs with h
  · decide
  · exact not_lt.mp h

def allocate (P : Pool) (q : Request) : Option Pool := some (P.doPoolAllocate q).1

def recordBlock (P : Pool) (q : Request) (_ : Pool) (g : List Block) : List Block :=
  if largeBlockSize - sizeofPool < q.size then g
  else ⟨(P.doPoolAllocate q).2, (P.doPoolAllocate q).2 + q.size⟩ :: g

def Pool.Full (P : Pool) (size : ℕ) : Prop := ∀ n ∈ P.nodes, n.room < size

/-- A region where a node can be made, apart from others. -/
structure FreshNode (a : ℕ) (others : List Block) : Prop where
  aligned : poolAlignment ∣ a
  fits : a + defaultPoolSize < addressSpace
  apart : ∀ b ∈ others, (PoolNode.create a).region.Apart b

/-- `posix_memalign` and `malloc` return regions that are apart from those returned before. -/
structure Granted (P : Pool) (q : Request) : Prop where
  node : P.Full q.cut → FreshNode q.node P.regions
  data : largeBlockSize - sizeofPool < q.size →
    ∀ b ∈ (P.doPoolAllocateSmall sizeofLargeBlock q.node).1.regions,
      (⟨q.data, q.data + q.size⟩ : Block).Apart b

instance (P : Pool) (size : ℕ) : Decidable (P.Full size) :=
  inferInstanceAs (Decidable (∀ n ∈ P.nodes, n.room < size))

instance (a : ℕ) (others : List Block) : Decidable (FreshNode a others) :=
  decidable_of_iff (poolAlignment ∣ a ∧ a + defaultPoolSize < addressSpace ∧
    ∀ b ∈ others, (PoolNode.create a).region.Apart b)
    ⟨fun ⟨h, h', h''⟩ => ⟨h, h', h''⟩, fun ⟨h, h', h''⟩ => ⟨h, h', h''⟩⟩

instance (P : Pool) (q : Request) : Decidable (Granted P q) :=
  decidable_of_iff ((P.Full q.cut → FreshNode q.node P.regions) ∧
    (largeBlockSize - sizeofPool < q.size →
      ∀ b ∈ (P.doPoolAllocateSmall sizeofLargeBlock q.node).1.regions,
        (⟨q.data, q.data + q.size⟩ : Block).Apart b))
    ⟨fun ⟨h, h'⟩ => ⟨h, h'⟩, fun ⟨h, h'⟩ => ⟨h, h'⟩⟩

/-- Where the blocks of a node begin: behind the whole pool in the first, behind the node in the
others. -/
def PoolNode.bodyStart (a : ℕ) (n : PoolNode) : ℕ :=
  n.poolAddr + if n.poolAddr = a then sizeofPool else sizeofPoolNode

structure PoolNode.Sound (a : ℕ) (n : PoolNode) : Prop where
  aligned : poolAlignment ∣ n.poolAddr
  fits : n.poolAddr + defaultPoolSize < addressSpace
  emptyEnd : n.emptyEnd = n.poolAddr + defaultPoolSize
  start_le : n.bodyStart a ≤ n.emptyStart
  le_end : n.emptyStart ≤ n.emptyEnd

namespace PoolNode

variable {a size : ℕ} {n : PoolNode}

lemma getAlignedPtr_eq (h : n.emptyStart + 7 < addressSpace) :
    n.getAlignedPtr = roundUp ptrAlignment n.emptyStart := by
  rw [getAlignedPtr, ptrAlignment, wrap_of_lt h]
  exact and_mask (k := 3) (w := 64) (by decide) h

lemma Sound.ptr_eq (h : n.Sound a) : n.getAlignedPtr = roundUp ptrAlignment n.emptyStart := by
  refine getAlignedPtr_eq ?_
  have hal := h.aligned
  have hfits := h.fits
  have hend := h.emptyEnd
  have hle := h.le_end
  rw [poolAlignment] at hal
  rw [addressSpace] at hfits ⊢
  rw [defaultPoolSize] at hfits hend
  omega

lemma Sound.le_ptr (h : n.Sound a) : n.emptyStart ≤ n.getAlignedPtr := by
  rw [h.ptr_eq]
  exact le_roundUp (by decide)

lemma Sound.dvd_ptr (h : n.Sound a) : ptrAlignment ∣ n.getAlignedPtr := by
  rw [h.ptr_eq]
  exact dvd_roundUp

lemma Sound.ptr_le (h : n.Sound a) : n.getAlignedPtr ≤ n.emptyEnd := by
  rw [h.ptr_eq]
  refine roundUp_le (by decide) ?_ h.le_end
  rw [h.emptyEnd]
  exact dvd_add ((by decide : ptrAlignment ∣ poolAlignment).trans h.aligned) (by decide)

lemma Sound.ptr_add_room (h : n.Sound a) : n.getAlignedPtr + n.room = n.emptyEnd := by
  have hle := h.ptr_le
  have hfits := h.fits
  rw [← h.emptyEnd] at hfits
  have hsub : n.emptyEnd + (addressSpace - n.getAlignedPtr)
      = n.emptyEnd - n.getAlignedPtr + addressSpace := by
    omega
  rw [room, hsub, wrap, Nat.add_mod_right, Nat.mod_eq_of_lt (by omega)]
  omega

lemma create_sound {fresh : ℕ} {others : List Block} (h : FreshNode fresh others)
    (hne : fresh ≠ a) : (create fresh).Sound a where
  aligned := h.aligned
  fits := h.fits
  emptyEnd := rfl
  start_le := by
    rw [bodyStart, if_neg (by exact hne)]
    exact le_rfl
  le_end := Nat.add_le_add_left (by decide) _

lemma create_room {fresh : ℕ} (h : (create fresh).Sound a)
    (hs : size ≤ largeBlockSize - sizeofPool) : size ≤ (create fresh).room := by
  have hroom := h.ptr_add_room
  have hptr : (create fresh).getAlignedPtr ≤ fresh + sizeofPoolNode := by
    rw [h.ptr_eq]
    exact roundUp_le (by decide)
      (dvd_add ((by decide : ptrAlignment ∣ poolAlignment).trans h.aligned) (by decide)) le_rfl
  rw [create] at hroom hptr ⊢
  simp only [defaultPoolSize, sizeofPoolNode, largeBlockSize, sizeofPool, sizeofMutex] at *
  omega

lemma Sound.take (h : n.Sound a) (hs : size ≤ n.room) : (n.take size).Sound a where
  aligned := h.aligned
  fits := h.fits
  emptyEnd := h.emptyEnd
  start_le := h.start_le.trans (h.le_ptr.trans (Nat.le_add_right _ _))
  le_end := by
    change n.getAlignedPtr + size ≤ n.emptyEnd
    rw [← h.ptr_add_room]
    exact Nat.add_le_add_left hs _

end PoolNode

lemma searchNode_cases (size fresh : ℕ) (nodes : List PoolNode) :
    (∃ l n r, nodes = l ++ n :: r ∧ size ≤ n.room ∧
      searchNode size fresh nodes = (l ++ n.take size :: r, n.getAlignedPtr)) ∨
    ((∀ n ∈ nodes, n.room < size) ∧ searchNode size fresh nodes =
      (nodes ++ [(PoolNode.create fresh).take size], (PoolNode.create fresh).getAlignedPtr)) := by
  induction nodes with
  | nil => exact Or.inr ⟨nofun, rfl⟩
  | cons m ms ih =>
    by_cases hm : size ≤ m.room
    · refine Or.inl ⟨[], m, ms, rfl, hm, ?_⟩
      simp [searchNode, hm]
    · rcases ih with ⟨l, n, r, rfl, hn, hs⟩ | ⟨hfull, hs⟩
      · refine Or.inl ⟨m :: l, n, r, rfl, hn, ?_⟩
        simp [searchNode, hm, hs]
      · refine Or.inr ⟨List.forall_mem_cons.mpr ⟨not_le.mp hm, hfull⟩, ?_⟩
        simp [searchNode, hm, hs]

/-- `carved` are the blocks that have been cut from the nodes. -/
structure Sound (a : ℕ) (nodes : List PoolNode) (mapped carved : List Block) : Prop where
  first : ∃ n ∈ nodes, n.poolAddr = a
  node : ∀ n ∈ nodes, n.Sound a
  regions : (nodes.map PoolNode.region ++ mapped).Pairwise Block.Apart
  placed : ∀ b ∈ carved, ptrAlignment ∣ b.start ∧
    ∃ n ∈ nodes, n.bodyStart a ≤ b.start ∧ b.stop ≤ n.emptyStart
  apart : carved.Pairwise Block.Apart

section Invariant

variable {a size fresh : ℕ} {n : PoolNode} {nodes l r : List PoolNode}
  {mapped carved carved' : List Block} {b : Block}

lemma PoolNode.Sound.within (h : n.Sound a) (hstart : n.bodyStart a ≤ b.start)
    (hstop : b.stop ≤ n.emptyStart) : b.Within n.region := by
  refine ⟨(Nat.le_add_right _ _).trans hstart, ?_⟩
  rw [region, ← h.emptyEnd]
  exact hstop.trans h.le_end

lemma mem_middle {m : PoolNode} : m ∈ l ++ n :: r ↔ m = n ∨ m ∈ l ++ r :=
  List.perm_middle.mem_iff.trans List.mem_cons

lemma regions_middle : ((l ++ n :: r).map PoolNode.region ++ mapped).Perm
    (n.region :: ((l ++ r).map PoolNode.region ++ mapped)) := by
  rw [← List.cons_append, ← List.map_cons]
  exact (List.perm_middle.map _).append_right _

namespace Sound

lemma perm (h : Sound a nodes mapped carved) (hp : carved.Perm carved') :
    Sound a nodes mapped carved' where
  first := h.first
  node := h.node
  regions := h.regions
  placed b hb := h.placed b (hp.mem_iff.mpr hb)
  apart := (hp.pairwise_iff Block.Apart.symm).mp h.apart

lemma region_apart (h : Sound a (l ++ n :: r) mapped carved) :
    ∀ b ∈ (l ++ r).map PoolNode.region ++ mapped, n.region.Apart b :=
  (List.pairwise_cons.mp ((regions_middle.pairwise_iff Block.Apart.symm).mp h.regions)).1

lemma fresh_ne (h : Sound a nodes mapped carved)
    (hf : FreshNode fresh (nodes.map PoolNode.region ++ mapped)) : fresh ≠ a := by
  rintro rfl
  obtain ⟨n, hn, rfl⟩ := h.first
  have hap := hf.apart n.region (List.mem_append_left _ (List.mem_map_of_mem hn))
  have hpos : 0 < defaultPoolSize := by decide
  simp only [Block.Apart, PoolNode.region, PoolNode.create] at hap
  omega

lemma fresh_sound (h : Sound a nodes mapped carved)
    (hf : FreshNode fresh (nodes.map PoolNode.region ++ mapped)) :
    (PoolNode.create fresh).Sound a :=
  PoolNode.create_sound hf (h.fresh_ne hf)

lemma extend (h : Sound a nodes mapped carved)
    (hf : FreshNode fresh (nodes.map PoolNode.region ++ mapped)) :
    Sound a (nodes ++ [PoolNode.create fresh]) mapped carved where
  first := by
    obtain ⟨n, hn, ha⟩ := h.first
    exact ⟨n, List.mem_append_left _ hn, ha⟩
  node := List.forall_mem_append.mpr ⟨h.node, List.forall_mem_singleton.mpr (h.fresh_sound hf)⟩
  regions := by
    rw [regions_middle.pairwise_iff Block.Apart.symm, List.append_nil]
    exact List.pairwise_cons.mpr ⟨hf.apart, h.regions⟩
  placed b hb := by
    obtain ⟨hal, n, hn, hin⟩ := h.placed b hb
    exact ⟨hal, n, List.mem_append_left _ hn, hin⟩
  apart := h.apart

lemma advance (h : Sound a (l ++ n :: r) mapped carved) (hs : size ≤ n.room) :
    Sound a (l ++ n.take size :: r) mapped
      (⟨n.getAlignedPtr, n.getAlignedPtr + size⟩ :: carved) := by
  have hn : n.Sound a := h.node n (mem_middle.mpr (Or.inl rfl))
  have htake : (n.take size).Sound a := hn.take hs
  have hnew : n.bodyStart a ≤ n.getAlignedPtr := hn.start_le.trans hn.le_ptr
  refine ⟨?_, ?_, ?_, ?_, ?_⟩
  · obtain ⟨m, hm, ha⟩ := h.first
    rcases mem_middle.mp hm with rfl | hm
    · exact ⟨m.take size, mem_middle.mpr (Or.inl rfl), ha⟩
    · exact ⟨m, mem_middle.mpr (Or.inr hm), ha⟩
  · intro m hm
    rcases mem_middle.mp hm with rfl | hm
    · exact htake
    · exact h.node m (mem_middle.mpr (Or.inr hm))
  · have hmap : (l ++ n.take size :: r).map PoolNode.region =
        (l ++ n :: r).map PoolNode.region := by
      simp only [List.map_append, List.map_cons]
      rfl
    rw [hmap]
    exact h.regions
  · refine List.forall_mem_cons.mpr ⟨⟨hn.dvd_ptr, n.take size, ?_, hnew, le_rfl⟩, ?_⟩
    · exact mem_middle.mpr (Or.inl rfl)
    · intro b hb
      obtain ⟨hal, m, hm, hstart, hstop⟩ := h.placed b hb
      refine ⟨hal, ?_⟩
      rcases mem_middle.mp hm with rfl | hm
      · exact ⟨m.take size, mem_middle.mpr (Or.inl rfl), hstart,
          hstop.trans (hn.le_ptr.trans (Nat.le_add_right _ _))⟩
      · exact ⟨m, mem_middle.mpr (Or.inr hm), hstart, hstop⟩
  · refine List.pairwise_cons.mpr ⟨fun b hb => ?_, h.apart⟩
    obtain ⟨-, m, hm, hstart, hstop⟩ := h.placed b hb
    rcases mem_middle.mp hm with rfl | hm
    · exact Or.inr (hstop.trans hn.le_ptr)
    · have hsep : n.region.Apart m.region :=
        h.region_apart _ (List.mem_append_left _ (List.mem_map_of_mem hm))
      exact hsep.mono (htake.within hnew le_rfl)
        ((h.node m (mem_middle.mpr (Or.inr hm))).within hstart hstop)

lemma search (h : Sound a nodes mapped carved) (hs : size ≤ largeBlockSize - sizeofPool)
    (hf : (∀ n ∈ nodes, n.room < size) →
      FreshNode fresh (nodes.map PoolNode.region ++ mapped)) :
    Sound a (searchNode size fresh nodes).1 mapped
      (⟨(searchNode size fresh nodes).2, (searchNode size fresh nodes).2 + size⟩ :: carved) := by
  rcases searchNode_cases size fresh nodes with ⟨l, n, r, rfl, hroom, heq⟩ | ⟨hfull, heq⟩
  · rw [heq]
    exact h.advance hroom
  · rw [heq]
    have hfresh := h.fresh_sound (hf hfull)
    exact (h.extend (hf hfull)).advance (PoolNode.create_room hfresh hs)

lemma map (h : Sound a nodes mapped carved)
    (hb : ∀ c ∈ nodes.map PoolNode.region ++ mapped, b.Apart c) :
    Sound a nodes (b :: mapped) carved where
  first := h.first
  node := h.node
  regions := by
    rw [List.perm_middle.pairwise_iff Block.Apart.symm]
    exact List.pairwise_cons.mpr ⟨hb, h.regions⟩
  placed := h.placed
  apart := h.apart

lemma carved_apart_mapped (h : Sound a nodes mapped carved) :
    ∀ b ∈ carved, ∀ c ∈ mapped, b.Apart c := by
  intro b hb c hc
  obtain ⟨-, n, hn, hstart, hstop⟩ := h.placed b hb
  have hsep : n.region.Apart c :=
    (List.pairwise_append.mp h.regions).2.2 _ (List.mem_map_of_mem hn) c hc
  exact hsep.mono ((h.node n hn).within hstart hstop) ⟨le_rfl, le_rfl⟩

end Sound

end Invariant

namespace Pool

variable {a : ℕ} {P P' : Pool} {q : Request} {g : List Block}

lemma create_sound (ha : poolAlignment ∣ a) (hfit : a + defaultPoolSize < addressSpace) :
    Sound a (create a).nodes (create a).mapped ([] ++ (create a).headers) where
  first := ⟨_, List.mem_singleton_self _, rfl⟩
  node := List.forall_mem_singleton.mpr
    { aligned := ha
      fits := hfit
      emptyEnd := rfl
      start_le := by
        rw [PoolNode.bodyStart, if_pos (by rfl)]
        exact le_rfl
      le_end := Nat.add_le_add_left (by decide) _ }
  regions := List.pairwise_singleton _ _
  placed := nofun
  apart := List.Pairwise.nil

lemma allocate_sound (h : Sound a P.nodes P.mapped (g ++ P.headers)) (hq : Granted P q)
    (hst : allocate P q = some P') :
    Sound a P'.nodes P'.mapped (recordBlock P q P' g ++ P'.headers) := by
  obtain rfl := Option.some.inj hst
  have hnode := hq.node
  rw [Request.cut] at hnode
  by_cases hl : largeBlockSize - sizeofPool < q.size
  · rw [if_pos hl] at hnode
    rw [doPoolAllocate, if_pos hl, recordBlock, if_pos hl]
    have hcut := h.search (by decide : sizeofLargeBlock ≤ _) hnode
    exact (hcut.map (hq.data hl)).perm List.perm_middle.symm
  · rw [if_neg hl] at hnode
    rw [recordBlock, if_neg hl, doPoolAllocate, if_neg hl]
    exact h.search (not_lt.mp hl) hnode

lemma observed_sound (ha : poolAlignment ∣ a) (hfit : a + defaultPoolSize < addressSpace)
    (h : Observed allocate recordBlock Granted (create a, []) (P, g)) :
    Sound a P.nodes P.mapped (g ++ P.headers) :=
  h.invariant (I := fun x => Sound a x.1.nodes x.1.mapped (x.2 ++ x.1.headers))
    (create_sound ha hfit) fun _ _ _ _ hi hc hst => allocate_sound hi hc hst

end Pool

structure BlocksSound (a : ℕ) (P : Pool) (g : List Block) : Prop where
  aligned : ∀ b ∈ g, ptrAlignment ∣ b.start
  inside : ∀ b ∈ g, ∃ n ∈ P.nodes, n.bodyStart a ≤ b.start ∧ b.stop ≤ n.poolAddr + defaultPoolSize
  apart : (g ++ P.headers ++ P.mapped).Pairwise Block.Apart
  pointers : ∀ n ∈ P.nodes, n.emptyStart ≤ n.getAlignedPtr ∧ n.getAlignedPtr ≤ n.emptyEnd ∧
    n.getAlignedPtr + n.room = n.emptyEnd
  fresh : ∀ q, Granted P q → P.Full q.cut → q.cut ≤ (PoolNode.create q.node).room

theorem pool_blocks_sound (a : ℕ) (P : Pool) (g : List Block) (ha : poolAlignment ∣ a)
    (hfit : a + defaultPoolSize < addressSpace)
    (h : Observed allocate recordBlock Granted (Pool.create a, []) (P, g)) :
    BlocksSound a P g := by
  have hs := Pool.observed_sound ha hfit h
  refine ⟨?_, ?_, ?_, ?_, ?_⟩
  · intro b hb
    exact (hs.placed b (List.mem_append_left _ hb)).1
  · intro b hb
    obtain ⟨-, n, hn, hstart, hstop⟩ := hs.placed b (List.mem_append_left _ hb)
    exact ⟨n, hn, hstart, ((hs.node n hn).within hstart hstop).2⟩
  · refine List.pairwise_append.mpr ⟨hs.apart, ?_, hs.carved_apart_mapped⟩
    exact (List.pairwise_append.mp hs.regions).2.1
  · intro n hn
    have hsn := hs.node n hn
    exact ⟨hsn.le_ptr, hsn.ptr_le, hsn.ptr_add_room⟩
  · intro q hq hfull
    exact PoolNode.create_room (hs.fresh_sound (hq.node hfull)) q.cut_le

theorem pool_blocks_sound_two_nodes : BlocksSound 65536
    ⟨[⟨65536, 81744, 81920⟩, ⟨131072, 131304, 147456⟩], [⟨81728, 262144, 5000⟩]⟩
    [⟨131104, 131304⟩, ⟨77696, 81728⟩, ⟨73664, 77696⟩, ⟨69632, 73663⟩, ⟨65600, 69632⟩] := by
  have h : execute (observe allocate recordBlock) (fun x q => Granted x.1 q) (Pool.create 65536, [])
      [⟨4032, 0, 0⟩, ⟨4031, 0, 0⟩, ⟨4032, 0, 0⟩, ⟨4032, 0, 0⟩, ⟨200, 131072, 0⟩,
        ⟨5000, 0, 262144⟩] =
      some (⟨[⟨65536, 81744, 81920⟩, ⟨131072, 131304, 147456⟩], [⟨81728, 262144, 5000⟩]⟩,
        [⟨131104, 131304⟩, ⟨77696, 81728⟩, ⟨73664, 77696⟩, ⟨69632, 73663⟩, ⟨65600, 69632⟩]) := by
    decide +kernel
  exact pool_blocks_sound 65536 _ _ (by decide) (by decide) (reaches_of_execute h)

end Xty.Pools
