import Xty.Pools.LinkedPool

/-! `xtyPool::MemoryCleanUp`: both chains are followed while their regions are given back. -/

namespace Xty.Pools

open Xty.General.Programs Xty.General.Chains Xty.General.Blocks Xty.General.Cursor

section Operations

def dropData (p : ℕ) (o : LargeObject) : PoolProgram Unit :=
  if o.data ≠ 0 then do
    free o.data
    writeLarge p { o with data := 0 }
  else return ()

/-- The destructor of the first large block goes through all of them. -/
def destroyLarge : ℕ → ℕ → PoolProgram Unit
  | 0, _ => fun _ => none
  | fuel + 1, p =>
    if p = 0 then return ()
    else do
      dropData p (← readLarge p)
      let o ← readLarge p
      destroyLarge fuel o.next

def cleanLarge (bound p : ℕ) : PoolProgram Unit := do
  let o ← readNode p
  if o.large ≠ 0 then do
    destroyLarge bound o.large
    writeNode p { o with large := 0 }
  else return ()

-- The first node is not a region of its own.
def freeNode (pool p : ℕ) : PoolProgram Unit :=
  if p ≠ firstNode pool then free p else return ()

def cleanNodes (pool bound : ℕ) : ℕ → ℕ → ℕ → PoolProgram Unit
  | 0, _, _ => fun _ => none
  | fuel + 1, current, next =>
    if current = 0 then return ()
    else do
      cleanLarge bound current
      freeNode pool current
      if next = 0 then return ()
      else do
        let o ← readNode next
        cleanNodes pool bound fuel next o.next

def memoryCleanUp (pool : ℕ) : PoolProgram Unit := do
  let bound ← regionBound
  let o ← readNode (firstNode pool)
  cleanNodes pool bound bound (firstNode pool) o.next
  free pool

/-- The result is the pointer to the pool, which is null afterwards. -/
def destroy (pool : ℕ) : PoolProgram ℕ :=
  if pool ≠ 0 then do
    memoryCleanUp pool
    return 0
  else return pool

def history (fresh : ℕ) (qs : List Request) : PoolProgram ℕ := do
  let pool ← createPool fresh
  allocateAll pool qs
  destroy pool

end Operations

section Regions

variable {m : Memory} {b c : Block} {L : List Block}

def Memory.Told (m : Memory) : Prop := (m.obtained.map Block.start).Nodup

lemma free_run (ht : m.Told) (hb : b ∈ m.obtained) (hn : b ∉ m.givenBack) :
    free b.start m = some ((), { m with givenBack := b :: m.givenBack }) := by
  have hfind : m.obtained.find? (fun c => c.start = b.start ∧ c ∉ m.givenBack) = some b := by
    have hsome : (m.obtained.find? fun c => c.start = b.start ∧ c ∉ m.givenBack).isSome :=
      List.find?_isSome.mpr ⟨b, hb, by simp [hn]⟩
    obtain ⟨c, hc⟩ := Option.isSome_iff_exists.mp hsome
    have hstart : c.start = b.start ∧ c ∉ m.givenBack := by simpa using List.find?_some hc
    rw [hc, List.inj_on_of_nodup_map ht (List.mem_of_find?_eq_some hc) hb hstart.1]
  rw [free, hfind]
  rfl

lemma Live.cons (hb : m.Live b) (hc : b.Apart c) :
    Memory.Live { m with givenBack := c :: m.givenBack } b := by
  intro d hd
  rcases List.mem_cons.mp hd with rfl | hd
  · exact hc
  · exact hb d hd

lemma readLarge_run {p : ℕ} {o : LargeObject} (hl : m.Live (largeBlock p))
    (ho : m.large p = some o) : readLarge p m = some (o, m) := by
  simp [readLarge, hl, ho]

end Regions

section LargeBlocks

variable {m : Memory} {p fuel : ℕ} {bs : List LargeBlock}

structure Hung (m : Memory) (bs : List LargeBlock) : Prop where
  blocks : ∀ b ∈ bs, (b.header ≠ 0 ∧ b.data ≠ 0) ∧ ∃ o, m.large b.header = some o ∧ o.data = b.data
  regions : ∀ b ∈ bs, b.dataBlock ∈ m.obtained ∧ b.dataBlock ∉ m.givenBack
  live : ∀ b ∈ bs, m.Live b.headerBlock
  apart : ∀ b ∈ bs, ∀ c ∈ bs, b.headerBlock.Apart c.dataBlock
  headers : (bs.map LargeBlock.header).Nodup
  data : (bs.map LargeBlock.dataBlock).Nodup

lemma Hung.rest {b : LargeBlock} {o : LargeObject} (h : Hung m (b :: bs)) :
    Hung { m with
      givenBack := b.dataBlock :: m.givenBack
      large := Function.update m.large b.header (some o) } bs where
  blocks c hc := by
    obtain ⟨hz, o', ho', hod⟩ := h.blocks c (List.mem_cons_of_mem b hc)
    have hne : c.header ≠ b.header := by
      rintro he
      exact (List.nodup_cons.mp h.headers).1 (he ▸ List.mem_map_of_mem hc)
    exact ⟨hz, o', (Function.update_of_ne hne _ _).trans ho', hod⟩
  regions c hc := by
    obtain ⟨hobt, hnot⟩ := h.regions c (List.mem_cons_of_mem b hc)
    refine ⟨hobt, fun hmem => ?_⟩
    rcases List.mem_cons.mp hmem with he | hmem
    · exact (List.nodup_cons.mp h.data).1 (he ▸ List.mem_map_of_mem hc)
    · exact hnot hmem
  live c hc := Live.cons (h.live c (List.mem_cons_of_mem b hc))
    (h.apart c (List.mem_cons_of_mem b hc) b List.mem_cons_self)
  apart c hc d hd := h.apart c (List.mem_cons_of_mem b hc) d (List.mem_cons_of_mem b hd)
  headers := (List.nodup_cons.mp h.headers).2
  data := (List.nodup_cons.mp h.data).2

lemma destroyLarge_spec (ht : m.Told) (h : Hung m bs)
    (hchain : Leads m.nextLarge 0 p (bs.map LargeBlock.header)) (hfuel : bs.length < fuel) :
    Yields (destroyLarge fuel p) m fun _ m' => m'.node = m.node ∧ m'.obtained = m.obtained ∧
      m'.givenBack = (bs.map LargeBlock.dataBlock).reverse ++ m.givenBack := by
  induction bs generalizing m p fuel with
  | nil =>
    obtain ⟨n, rfl⟩ := Nat.exists_eq_add_of_lt hfuel
    rw [destroyLarge, if_pos (show p = 0 from hchain)]
    exact Yields.pure ⟨rfl, rfl, rfl⟩
  | cons b bs ih =>
    obtain _ | fuel := fuel
    · simp at hfuel
    obtain ⟨rfl, r, hr, hchain⟩ := hchain
    obtain ⟨⟨hz, hdz⟩, o, ho, hod⟩ := h.blocks b List.mem_cons_self
    obtain ⟨hobt, hnot⟩ := h.regions b List.mem_cons_self
    have hlive := h.live b List.mem_cons_self
    have hlive' :
        Memory.Live { m with givenBack := b.dataBlock :: m.givenBack } (largeBlock b.header) :=
      Live.cons hlive (h.apart b List.mem_cons_self b List.mem_cons_self)
    have hnext : o.next = r := by simpa [Memory.nextLarge, ho] using hr
    have hread : readLarge b.header m = some (o, m) := readLarge_run hlive ho
    have hdrop : dropData b.header o m = some ((), { m with
        givenBack := b.dataBlock :: m.givenBack
        large := Function.update m.large b.header (some { o with data := 0 }) }) := by
      have hfree := free_run ht hobt hnot
      rw [dropData, if_pos (by rw [hod]; exact hdz), hod]
      exact Yields.run_eq (Yields.step hfree (Yields.of_eq (if_pos hlive') ⟨rfl, rfl⟩))
    rw [destroyLarge, if_neg hz]
    refine Yields.step hread (Yields.step hdrop ?_)
    refine Yields.step (readLarge_run hlive' (Function.update_self _ _ _)) ?_
    have hne : ∀ x ∈ bs.map LargeBlock.header, x ≠ b.header := by
      rintro x hx rfl
      exact (List.nodup_cons.mp h.headers).1 hx
    have hchain' : Leads (Memory.nextLarge { m with
        givenBack := b.dataBlock :: m.givenBack
        large := Function.update m.large b.header (some { o with data := 0 }) }) 0 o.next
          (bs.map LargeBlock.header) := by
      rw [hnext]
      exact hchain.frame fun x hx => by simp [Memory.nextLarge, hne x hx]
    refine (ih (by exact ht) h.rest hchain' (Nat.lt_of_succ_lt_succ hfuel)).mono ?_
    rintro _ m' ⟨hnode, hobt', hback⟩
    refine ⟨hnode, hobt', ?_⟩
    rw [hback, List.map_cons, List.reverse_cons, List.append_assoc]
    rfl

end LargeBlocks

section Nodes

variable {pool bound fuel next p : ℕ} {m : Memory} {n : PoolNode} {ns : List PoolNode}

structure Loose (pool : ℕ) (m : Memory) (ns : List PoolNode) : Prop where
  nodes : ∀ n ∈ ns, (n.poolAddr ≠ 0 ∧ n.poolAddr ≠ firstNode pool) ∧
    ∃ o, m.node n.poolAddr = some o ∧ o.large = 0
  regions : ∀ n ∈ ns, n.region ∈ m.obtained ∧ n.region ∉ m.givenBack
  live : ∀ n ∈ ns, m.Live (nodeBlock n.poolAddr)
  apart : ns.Pairwise fun n k => n.region.Apart k.region

lemma nodeBlock_within (n : PoolNode) : (nodeBlock n.poolAddr).Within n.region :=
  ⟨le_rfl, Nat.add_le_add_left (by decide) _⟩

lemma region_ne {k : PoolNode} (h : n.region.Apart k.region) : k.region ≠ n.region := by
  intro he
  have hpos : 0 < defaultPoolSize := by decide
  rw [he] at h
  simp only [Block.Apart, PoolNode.region] at h
  omega

lemma Loose.rest (h : Loose pool m (n :: ns)) :
    Loose pool { m with givenBack := n.region :: m.givenBack } ns where
  nodes k hk := h.nodes k (List.mem_cons_of_mem n hk)
  regions k hk := by
    obtain ⟨hobt, hnot⟩ := h.regions k (List.mem_cons_of_mem n hk)
    refine ⟨hobt, fun hmem => ?_⟩
    rcases List.mem_cons.mp hmem with he | hmem
    · exact region_ne ((List.pairwise_cons.mp h.apart).1 k hk) he
    · exact hnot hmem
  live k hk := Live.cons (h.live k (List.mem_cons_of_mem n hk))
    (((List.pairwise_cons.mp h.apart).1 k hk).symm.mono (nodeBlock_within k) ⟨le_rfl, le_rfl⟩)
  apart := (List.pairwise_cons.mp h.apart).2

lemma cleanLarge_bare {o : NodeObject} (hl : m.Live (nodeBlock p)) (ho : m.node p = some o)
    (hz : o.large = 0) : cleanLarge bound p m = some ((), m) := by
  refine Yields.run_eq (Yields.step (readNode_run hl ho) ?_)
  rw [if_neg (by simp [hz])]
  exact Yields.pure ⟨rfl, rfl⟩

/-- A node's pointer to the next one is read before its region is given back. -/
lemma cleanNodes_spec (ht : m.Told) (h : Loose pool m (n :: ns))
    (hchain : Leads m.nextNode 0 next (ns.map PoolNode.poolAddr)) (hfuel : ns.length < fuel) :
    Yields (cleanNodes pool bound fuel n.poolAddr next) m fun _ m' => m'.obtained = m.obtained ∧
      m'.givenBack = ((n :: ns).map PoolNode.region).reverse ++ m.givenBack := by
  induction ns generalizing m n next fuel with
  | nil =>
    obtain ⟨fuel, rfl⟩ := Nat.exists_eq_add_of_lt hfuel
    obtain ⟨⟨hz, hne⟩, o, ho, hl⟩ := h.nodes n List.mem_cons_self
    obtain ⟨hobt, hnot⟩ := h.regions n List.mem_cons_self
    rw [cleanNodes, if_neg hz, freeNode, if_pos hne, if_pos (show next = 0 from hchain)]
    apply Yields.step (cleanLarge_bare (h.live n List.mem_cons_self) ho hl)
    exact Yields.step (free_run ht hobt hnot) (Yields.pure ⟨rfl, rfl⟩)
  | cons k ks ih =>
    obtain _ | fuel := fuel
    · simp at hfuel
    obtain ⟨⟨hz, hne⟩, o, ho, hl⟩ := h.nodes n List.mem_cons_self
    obtain ⟨hobt, hnot⟩ := h.regions n List.mem_cons_self
    obtain ⟨rfl, r, hr, hchain⟩ := hchain
    have hrest := h.rest
    obtain ⟨⟨hzk, _⟩, ok, hok, _⟩ := hrest.nodes k List.mem_cons_self
    have hnext : ok.next = r := by
      have hok : m.node k.poolAddr = some ok := hok
      simpa [Memory.nextNode, hok] using hr
    rw [cleanNodes, if_neg hz, freeNode, if_pos hne, if_neg hzk]
    apply Yields.step (cleanLarge_bare (h.live n List.mem_cons_self) ho hl)
    apply Yields.step (free_run ht hobt hnot)
    apply Yields.step (readNode_run (hrest.live k List.mem_cons_self) hok)
    refine (ih (by exact ht) hrest (hnext ▸ hchain) (Nat.lt_of_succ_lt_succ hfuel)).mono ?_
    rintro _ m' ⟨hobt', hback⟩
    refine ⟨hobt', ?_⟩
    simp [hback]

end Nodes

section WholePool

variable {pool : ℕ} {m : Memory} {P : Pool} {g : List Block}

lemma Lays.nonempty (h : Lays pool P m) : ∀ b ∈ P.regions, b.start < b.stop := by
  intro b hb
  rcases List.mem_append.mp hb with hb | hb
  · obtain ⟨n, _, rfl⟩ := List.mem_map.mp hb
    exact Nat.lt_add_of_pos_right (by decide)
  · obtain ⟨d, hd, rfl⟩ := List.mem_map.mp hb
    exact Nat.lt_add_of_pos_right (h.large d hd).1.2.2

lemma Lays.told (h : Lays pool P m) (hs : Sound pool P.nodes P.mapped (g ++ P.headers)) :
    m.Told :=
  ((h.obtained.map _).nodup_iff).mpr (Block.starts_nodup hs.regions h.nonempty)

lemma Lays.hungBlocks (h : Lays pool P m) (hs : Sound pool P.nodes P.mapped (g ++ P.headers)) :
    Hung m P.large where
  blocks b hb := by
    obtain ⟨⟨hz, hdz, _⟩, ho⟩ := h.large b hb
    exact ⟨⟨hz, hdz⟩, ho⟩
  regions b hb := by
    refine ⟨h.obtained.mem_iff.mpr (List.mem_append_right _ (List.mem_map_of_mem hb)), ?_⟩
    rw [h.givenBack]
    exact List.not_mem_nil
  live b _ := live_of_none h.givenBack _
  apart b hb c hc := hs.carved_apart_mapped _ (List.mem_append_right _ (List.mem_map_of_mem hb)) _
    (List.mem_map_of_mem hc)
  headers := by
    have hnodup := Block.starts_nodup (List.pairwise_append.mp hs.apart).2.1 fun b hb => by
      obtain ⟨d, _, rfl⟩ := List.mem_map.mp hb
      exact Nat.lt_add_of_pos_right (by decide)
    rwa [Pool.headers, List.map_map] at hnodup
  data := (Block.starts_nodup (List.pairwise_append.mp hs.regions).2.1 fun b hb =>
    h.nonempty b (List.mem_append_right _ hb)).of_map

structure Halfway (pool : ℕ) (P : Pool) (m m' : Memory) : Prop where
  obtained : m'.obtained = m.obtained
  givenBack : m'.givenBack = P.mapped.reverse
  node : ∀ p, p ≠ firstNode pool → m'.node p = m.node p

lemma cleanLarge_spec (h : Lays pool P m) (hs : Sound pool P.nodes P.mapped (g ++ P.headers)) :
    Yields (cleanLarge (m.obtained.length + 1) (firstNode pool)) m fun _ m' =>
      Halfway pool P m m' := by
  obtain ⟨o, ho, hchain⟩ := h.hung
  refine Yields.step (readNode_run (live_of_none h.givenBack _) ho) ?_
  by_cases hz : o.large = 0
  · have hnil : P.large = [] := by
      cases hl : P.large with
      | nil => rfl
      | cons b bs =>
        rw [hl] at hchain
        have hb := (h.large b (by rw [hl]; exact List.mem_cons_self)).1.1
        exact absurd (hchain.1.symm.trans hz) hb
    rw [if_neg (by simp [hz])]
    refine Yields.pure ⟨rfl, ?_, fun _ _ => rfl⟩
    rw [h.givenBack, Pool.mapped, hnil]
    rfl
  · rw [if_pos hz]
    have hlength : P.large.length < m.obtained.length + 1 := by
      rw [h.obtained.length_eq, Pool.regions, List.length_append, Pool.mapped, List.length_map,
        List.length_map]
      omega
    apply (destroyLarge_spec (h.told hs) (h.hungBlocks hs) hchain hlength).bind
    rintro _ m' ⟨hnode, hobt, hback⟩
    rw [h.givenBack, List.append_nil] at hback
    have hlive : m'.Live (nodeBlock (firstNode pool)) := by
      intro b hb
      rw [hback, List.mem_reverse] at hb
      obtain ⟨n, ns, hn, rfl⟩ := h.head
      have hmem : (firstNode n.poolAddr, n) ∈ cells n.poolAddr P.nodes := by simp [hn, cells]
      have hap := (List.pairwise_append.mp hs.regions).2.2 n.region
        (List.mem_map_of_mem (by rw [hn]; exact List.mem_cons_self)) b hb
      exact hap.mono (cells_within h.head hmem) ⟨le_rfl, le_rfl⟩
    refine Yields.of_eq (writeNode_run hlive _) ⟨hobt, hback, fun p hp => ?_⟩
    rw [← hnode]
    exact Function.update_of_ne hp _ _

lemma Halfway.loose {m' : Memory} {n : PoolNode} {ns : List PoolNode} (h : Lays pool P m)
    (hs : Sound pool P.nodes P.mapped (g ++ P.headers)) (hh : Halfway pool P m m')
    (hn : P.nodes = n :: ns) : Loose pool m' ns := by
  have hd := cells_distinct hs h.head
  have hmem : ∀ k ∈ ns, k ∈ P.nodes := fun k hk => by
    rw [hn]
    exact List.mem_cons_of_mem n hk
  have hcell : ∀ k ∈ ns, (k.poolAddr, k) ∈ ns.map fun k => (k.poolAddr, k) := fun k hk =>
    List.mem_map_of_mem hk
  have hne : ∀ k ∈ ns, k.poolAddr ≠ firstNode pool := by
    intro k hk he
    rw [hn, cells, List.map_cons, List.nodup_cons] at hd
    exact hd.1 (List.mem_map.mpr ⟨(k.poolAddr, k), hcell k hk, he⟩)
  have hap : ∀ k ∈ ns, ∀ b ∈ P.mapped, k.region.Apart b := fun k hk b hb =>
    (List.pairwise_append.mp hs.regions).2.2 k.region (List.mem_map_of_mem (hmem k hk)) b hb
  refine ⟨fun k hk => ⟨⟨?_, hne k hk⟩, ?_⟩, fun k hk => ⟨?_, ?_⟩, fun k hk b hb => ?_, ?_⟩
  · exact h.nonnull (k.poolAddr, k) (by rw [hn]; exact List.mem_cons_of_mem _ (hcell k hk))
  · obtain ⟨o, ho, hz⟩ := h.bare k (by rw [hn]; exact hk)
    exact ⟨o, (hh.node _ (hne k hk)).trans ho, hz⟩
  · rw [hh.obtained]
    exact h.obtained.mem_iff.mpr (List.mem_append_left _ (List.mem_map_of_mem (hmem k hk)))
  · rw [hh.givenBack, List.mem_reverse]
    intro hb
    have hself := hap k hk _ hb
    have hpos : 0 < defaultPoolSize := by decide
    simp only [Block.Apart, PoolNode.region] at hself
    omega
  · rw [hh.givenBack, List.mem_reverse] at hb
    exact (hap k hk b hb).mono (nodeBlock_within k) ⟨le_rfl, le_rfl⟩
  · have hregions := (List.pairwise_append.mp hs.regions).1
    rw [hn, List.map_cons, List.pairwise_cons] at hregions
    exact List.pairwise_map.mp hregions.2

lemma told_after {m' : Memory} (h : Lays pool P m)
    (hs : Sound pool P.nodes P.mapped (g ++ P.headers)) (hobt : m'.obtained = m.obtained) :
    m'.Told := by
  rw [Memory.Told, hobt]
  exact h.told hs

lemma freePool_spec {m' : Memory} {n : PoolNode} {ns : List PoolNode} (h : Lays pool P m)
    (hs : Sound pool P.nodes P.mapped (g ++ P.headers)) (hn : P.nodes = n :: ns)
    (hpool : n.poolAddr = pool) (hobt : m'.obtained = m.obtained)
    (hback : m'.givenBack.Perm (ns.map PoolNode.region ++ P.mapped)) :
    Yields (free pool) m' fun _ m'' => m''.obtained = m.obtained ∧
      m''.givenBack.Perm m.obtained := by
  have hperm : m.obtained.Perm (n.region :: (ns.map PoolNode.region ++ P.mapped)) := by
    have hobt := h.obtained
    rwa [Pool.regions, hn, List.map_cons, List.cons_append] at hobt
  have hmem : n.region ∈ m'.obtained := by
    rw [hobt, hperm.mem_iff]
    exact List.mem_cons_self
  have hnot : n.region ∉ m'.givenBack := by
    rw [hback.mem_iff]
    have hnodup := (hperm.nodup_iff).mp (h.told hs).of_map
    exact (List.nodup_cons.mp hnodup).1
  have hfree := free_run (told_after h hs hobt) hmem hnot
  rw [show n.region.start = pool from hpool] at hfree
  exact Yields.of_eq hfree ⟨hobt, (hback.cons _).trans hperm.symm⟩

lemma Halfway.chain {m' : Memory} {ns : List PoolNode} {p : ℕ} (hh : Halfway pool P m m')
    (hloose : Loose pool m' ns) (hchain : Leads m.nextNode 0 p (ns.map PoolNode.poolAddr)) :
    Leads m'.nextNode 0 p (ns.map PoolNode.poolAddr) := by
  refine hchain.frame fun x hx => ?_
  obtain ⟨d, hd, rfl⟩ := List.mem_map.mp hx
  rw [Memory.nextNode, Memory.nextNode, hh.node _ (hloose.nodes d hd).1.2]

lemma memoryCleanUp_spec (h : Lays pool P m) (hs : Sound pool P.nodes P.mapped (g ++ P.headers)) :
    Yields (memoryCleanUp pool) m fun _ m' => m'.obtained = m.obtained ∧
      m'.givenBack.Perm m.obtained := by
  obtain ⟨n, ns, hn, hpool⟩ := h.head
  have hchain := h.chain
  rw [hn, cells, List.map_cons, List.map_map] at hchain
  obtain ⟨_, r, hr, hchain⟩ := hchain
  obtain ⟨o, ho, _⟩ := h.hung
  have hnext : o.next = r := by simpa [Memory.nextNode, ho] using hr
  have hlength : ns.length < m.obtained.length := by
    rw [h.obtained.length_eq, Pool.regions, hn, List.map_cons, List.length_append, List.length_cons,
      List.length_map]
    omega
  refine Yields.step rfl (Yields.step (readNode_run (live_of_none h.givenBack _) ho) ?_)
  refine Yields.bind (P := fun _ m' => m'.obtained = m.obtained ∧
    m'.givenBack.Perm (ns.map PoolNode.region ++ P.mapped)) ?_ fun _ m' hm =>
      freePool_spec h hs hn hpool hm.1 hm.2
  rw [cleanNodes, if_neg (by simp [firstNode]), freeNode, if_neg (by simp)]
  apply (cleanLarge_spec h hs).bind
  intro _ m' hh
  refine Yields.step rfl ?_
  have hloose := hh.loose h hs hn
  have hchain := hh.chain hloose hchain
  cases ns with
  | nil =>
    rw [if_pos (hnext.trans hchain)]
    refine Yields.pure ⟨hh.obtained, ?_⟩
    rw [hh.givenBack]
    exact List.reverse_perm _
  | cons k ks =>
    obtain ⟨rfl, s, hs', hchain⟩ := hchain
    obtain ⟨⟨hz, hne⟩, ok, hok, _⟩ := hloose.nodes k List.mem_cons_self
    have hkn : ok.next = s := by simpa [Memory.nextNode, hok] using hs'
    rw [if_neg (by rw [hnext]; exact hz), hnext]
    apply Yields.step (readNode_run (hloose.live k List.mem_cons_self) hok)
    refine (cleanNodes_spec (told_after h hs hh.obtained) hloose (hkn ▸ hchain)
      (Nat.lt_of_succ_lt hlength)).mono ?_
    rintro _ m'' ⟨hobt, hback⟩
    refine ⟨hobt.trans hh.obtained, ?_⟩
    rw [hback, hh.givenBack]
    exact (List.reverse_perm _).append (List.reverse_perm _)

end WholePool

/-- `free` undoes each `posix_memalign` and each `malloc` once, and nothing else. The history yields
nothing if it reads or writes a header in a region that has been given back. -/
theorem pool_given_back (fresh : ℕ) (qs : List Request) (hne : fresh ≠ 0)
    (hal : poolAlignment ∣ fresh) (hfit : fresh + defaultPoolSize < addressSpace)
    (hqs : ReturnedAll (Pool.create fresh) qs) :
    Yields (history fresh qs) Memory.empty fun pool m => pool = 0 ∧
      m.obtained.Perm ((Pool.create fresh).after qs).regions ∧ m.obtained.Nodup ∧
      m.givenBack.Perm m.obtained := by
  apply (createPool_spec fresh).bind
  rintro _ m ⟨rfl, h⟩
  apply (allocateAll_spec h (Pool.create_sound hal hfit) hqs).bind
  rintro _ m' ⟨h', g, hs⟩
  rw [destroy, if_pos hne]
  apply (memoryCleanUp_spec h' hs).bind
  rintro _ m'' ⟨hobt, hback⟩
  refine Yields.pure ⟨rfl, ?_, ?_, ?_⟩
  · rw [hobt]
    exact h'.obtained
  · rw [hobt]
    exact (h'.told hs).of_map
  · rw [hobt]
    exact hback

instance (P : Pool) (q : Request) : Decidable (Returned P q) :=
  decidable_of_iff (Granted P q ∧ (P.Full q.cut → q.node ≠ 0) ∧
    (largeBlockSize - sizeofPool < q.size → q.data ≠ 0))
    ⟨fun ⟨h, h', h''⟩ => ⟨h, h', h''⟩, fun ⟨h, h', h''⟩ => ⟨h, h', h''⟩⟩

instance decidableReturnedAll : (P : Pool) → (qs : List Request) → Decidable (ReturnedAll P qs)
  | _, [] => isTrue trivial
  | P, q :: qs =>
    have := decidableReturnedAll (P.doPoolAllocate q).1 qs
    inferInstanceAs (Decidable (Returned P q ∧ ReturnedAll (P.doPoolAllocate q).1 qs))

theorem pool_given_back_two_nodes :
    Yields (history 65536 [⟨4032, 0, 0⟩, ⟨4032, 0, 0⟩, ⟨4032, 0, 0⟩, ⟨4032, 0, 0⟩, ⟨192, 0, 0⟩,
      ⟨5000, 131072, 262144⟩, ⟨6000, 0, 524288⟩]) Memory.empty fun pool m => pool = 0 ∧
        m.obtained.Perm ((Pool.create 65536).after [⟨4032, 0, 0⟩, ⟨4032, 0, 0⟩, ⟨4032, 0, 0⟩,
          ⟨4032, 0, 0⟩, ⟨192, 0, 0⟩, ⟨5000, 131072, 262144⟩, ⟨6000, 0, 524288⟩]).regions ∧
        m.obtained.Nodup ∧ m.givenBack.Perm m.obtained :=
  pool_given_back 65536 _ (by decide) (by decide) (by decide) (by decide +kernel)

end Xty.Pools
