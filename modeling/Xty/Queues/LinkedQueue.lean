import Xty.General.Chains
import Xty.General.Programs
import Xty.Queues.Queue

/-! `xtyQueue` with its pointers: a ring of nodes through the sentinel. -/

namespace Xty.Queues.Linked

open Xty.General.Programs Xty.General.Chains

inductive Ptr where
  | null
  | sentinel
  | node (a : ℕ)
deriving DecidableEq, Repr

/-- The fields of the nodes, which have no value where there is no node. -/
structure LinkedQueue (T : Type) where
  data : Ptr → Option T
  prev : Ptr → Option Ptr
  next : Ptr → Option Ptr
  nodeCount : UInt32
  fresh : ℕ

abbrev QueueProgram (T α : Type) := Program (LinkedQueue T) α

variable {T : Type}

section Operations

def create [Inhabited T] : LinkedQueue T where
  data := Function.update (fun _ => none) .sentinel (some default)
  prev := Function.update (fun _ => none) .sentinel (some .sentinel)
  next := Function.update (fun _ => none) .sentinel (some .sentinel)
  nodeCount := 0
  fresh := 0

def getData (p : Ptr) : QueueProgram T T := fun q => (q.data p).map fun v => (v, q)

def getPrev (p : Ptr) : QueueProgram T Ptr := fun q => (q.prev p).map fun r => (r, q)

def getNext (p : Ptr) : QueueProgram T Ptr := fun q => (q.next p).map fun r => (r, q)

def setPrev (p r : Ptr) : QueueProgram T Unit := fun q =>
  (q.prev p).map fun _ => ((), { q with prev := Function.update q.prev p (some r) })

def setNext (p r : Ptr) : QueueProgram T Unit := fun q =>
  (q.next p).map fun _ => ((), { q with next := Function.update q.next p (some r) })

def getCount : QueueProgram T UInt32 := fun q => some (q.nodeCount, q)

def setCount (n : UInt32) : QueueProgram T Unit := fun q => some ((), { q with nodeCount := n })

/-- A bound on the rounds of a loop: no more nodes exist than were allocated. -/
def nodeBound : QueueProgram T ℕ := fun q => some (q.fresh + 1, q)

def allocate (v : T) : QueueProgram T Ptr := fun q =>
  some (.node q.fresh, { q with
    data := Function.update q.data (.node q.fresh) (some v)
    prev := Function.update q.prev (.node q.fresh) (some .null)
    next := Function.update q.next (.node q.fresh) (some .null)
    fresh := q.fresh + 1 })

/-- The destructor. The allocator does not get the memory back. -/
def destroy (p : Ptr) : QueueProgram T Unit := fun q =>
  (q.next p).map fun _ => ((), { q with
    data := Function.update q.data p none
    prev := Function.update q.prev p none
    next := Function.update q.next p none })

def enQueue (v : T) : QueueProgram T Unit := do
  let node ← allocate v
  setPrev node (← getPrev .sentinel)
  setNext node .sentinel
  setNext (← getPrev .sentinel) node
  setPrev .sentinel node
  setCount ((← getCount) + 1)

def deQueue : QueueProgram T (Except Fault T) := do
  if (← getCount) = 0 then return .error .emptyQueue
  else do
    let node ← getNext .sentinel
    setNext .sentinel (← getNext node)
    setPrev (← getNext node) .sentinel
    setPrev node .null
    setNext node .null
    let value ← getData node
    destroy node
    setCount ((← getCount) - 1)
    return .ok value

def clearFrom : ℕ → Ptr → QueueProgram T Unit
  | 0, _ => fun _ => none
  | fuel + 1, p =>
    if p = .sentinel then return ()
    else do
      let r ← getNext p
      destroy p
      clearFrom fuel r

def resetSentinel : QueueProgram T Unit := do
  setPrev .sentinel .sentinel
  setNext .sentinel .sentinel
  setCount 0

def clear : QueueProgram T Unit := do
  clearFrom (← nodeBound) (← getNext .sentinel)
  resetSentinel

variable (equal : T → T → Bool)

def searchFrom (v : T) : ℕ → Ptr → QueueProgram T Ptr
  | 0, _ => fun _ => none
  | fuel + 1, p =>
    if p = .sentinel then return .null
    else do
      if equal (← getData p) v then return p
      else searchFrom v fuel (← getNext p)

def search (v : T) : QueueProgram T Ptr := do
  searchFrom equal v (← nodeBound) (← getNext .sentinel)

end Operations

section Paths

/-- The pointers lead from `p` over `as` to `q` and back. -/
def Path (next prev : Ptr → Option Ptr) : Ptr → List Ptr → Ptr → Prop
  | p, [], q => next p = some q ∧ prev q = some p
  | p, a :: as, q => next p = some a ∧ prev a = some p ∧ Path next prev a as q

variable {next prev next' prev' : Ptr → Option Ptr} {p q r : Ptr} {as : List Ptr}

lemma Path.frame (h : Path next prev p as q) (hn : ∀ x ∈ p :: as, next' x = next x)
    (hp : ∀ x ∈ as ++ [q], prev' x = prev x) : Path next' prev' p as q := by
  induction as generalizing p with
  | nil =>
    obtain ⟨hnext, hprev⟩ := h
    exact ⟨(hn p (by simp)).trans hnext, (hp q (by simp)).trans hprev⟩
  | cons a as ih =>
    obtain ⟨hnext, hprev, h⟩ := h
    refine ⟨(hn p (by simp)).trans hnext, (hp a (by simp)).trans hprev, ?_⟩
    exact ih h (fun x hx => hn x (by simp [List.mem_cons.mp hx])) fun x hx => hp x (by simp_all)

lemma Path.ends (h : Path next prev p as q) :
    next ((p :: as).getLast (List.cons_ne_nil p as)) = some q ∧
      prev q = some ((p :: as).getLast (List.cons_ne_nil p as)) := by
  induction as generalizing p with
  | nil => exact h
  | cons a as ih =>
    obtain ⟨_, _, h⟩ := h
    exact ih h

lemma Path.redirect (h : Path next prev p as q) (hd : (p :: as).Nodup)
    (hn : ∀ x ∈ p :: as, x ≠ (p :: as).getLast (List.cons_ne_nil p as) → next' x = next x)
    (hl : next' ((p :: as).getLast (List.cons_ne_nil p as)) = some r)
    (hp : ∀ x ∈ as, prev' x = prev x)
    (hr : prev' r = some ((p :: as).getLast (List.cons_ne_nil p as))) :
    Path next' prev' p as r := by
  induction as generalizing p with
  | nil => exact ⟨hl, hr⟩
  | cons a as ih =>
    obtain ⟨hnext, hprev, h⟩ := h
    obtain ⟨hp', hd'⟩ := List.nodup_cons.mp hd
    have hlast : p ≠ (a :: as).getLast (List.cons_ne_nil a as) := by
      rintro he
      exact hp' (he ▸ List.getLast_mem _)
    refine ⟨(hn p (by simp) hlast).trans hnext, (hp a (by simp)).trans hprev, ?_⟩
    exact ih h hd' (fun x hx => hn x (List.mem_cons_of_mem p hx)) hl
      (fun x hx => hp x (List.mem_cons_of_mem a hx)) hr

lemma Path.append_singleton (h : Path next prev p as r) (h' : Path next prev r [] q) :
    Path next prev p (as ++ [r]) q := by
  induction as generalizing p with
  | nil => exact ⟨h.1, h.2, h'⟩
  | cons a as ih =>
    obtain ⟨hnext, hprev, h⟩ := h
    exact ⟨hnext, hprev, ih h⟩

lemma Path.shift (h : Path next prev p as q) (hd : (as ++ [q]).Nodup) :
    ∃ b ∈ as ++ [q], next p = some b ∧ prev b = some p ∧
      ∀ r next' prev', next' r = some b → prev' b = some r → (∀ x ∈ as, next' x = next x) →
        (∀ x ∈ as ++ [q], x ≠ b → prev' x = prev x) → Path next' prev' r as q := by
  cases as with
  | nil => exact ⟨q, by simp, h.1, h.2, fun r next' prev' hn hp _ _ => ⟨hn, hp⟩⟩
  | cons b as =>
    obtain ⟨hnext, hprev, h⟩ := h
    refine ⟨b, by simp, hnext, hprev, fun r next' prev' hn hp hns hps => ⟨hn, hp, ?_⟩⟩
    have hb := (List.nodup_cons.mp hd).1
    refine h.frame hns fun x hx => hps x (List.mem_cons_of_mem b hx) ?_
    rintro rfl
    exact hb hx

lemma Path.successor (h : Path next prev p as q) {x : Ptr} (hx : x ∈ p :: as) :
    ∃ y, next x = some y ∧ prev y = some x := by
  induction as generalizing p with
  | nil =>
    obtain rfl := List.mem_singleton.mp hx
    exact ⟨q, h⟩
  | cons a as ih =>
    obtain ⟨hnext, hprev, h⟩ := h
    rcases List.mem_cons.mp hx with rfl | hx
    · exact ⟨a, hnext, hprev⟩
    · exact ih h hx

lemma Path.predecessor (h : Path next prev p as q) {y : Ptr} (hy : y ∈ as ++ [q]) :
    ∃ x, next x = some y ∧ prev y = some x := by
  induction as generalizing p with
  | nil =>
    obtain rfl := List.mem_singleton.mp hy
    exact ⟨p, h⟩
  | cons a as ih =>
    obtain ⟨hnext, hprev, h⟩ := h
    rcases List.mem_cons.mp hy with rfl | hy
    · exact ⟨p, hnext, hprev⟩
    · exact ih h hy

lemma Path.leads (h : Path next prev p as q) : ∃ r, next p = some r ∧ Leads next q r as := by
  induction as generalizing p with
  | nil => exact ⟨q, h.1, rfl⟩
  | cons a as ih => exact ⟨a, h.1, rfl, ih h.2.2⟩

def removed {α : Type} (f : Ptr → Option α) (as : List Ptr) : Ptr → Option α :=
  fun p => if p ∈ as then none else f p

lemma removed_update {α : Type} (f : Ptr → Option α) (a : Ptr) (as : List Ptr) :
    removed (Function.update f a none) as = removed f (a :: as) := by
  funext p
  by_cases hp : p = a <;> simp [removed, hp]

end Paths

section Contents

/-- The nodes of the ring after the sentinel, with their values. -/
structure Shows (q : LinkedQueue T) (cells : List (Ptr × T)) : Prop where
  distinct : (.sentinel :: cells.map Prod.fst).Nodup
  ring : Path q.next q.prev .sentinel (cells.map Prod.fst) .sentinel
  data : ∀ c ∈ cells, q.data c.1 = some c.2
  bounded : ∀ p ∈ cells.map Prod.fst, ∃ a < q.fresh, p = .node a
  others : ∀ p, p ∉ .sentinel :: cells.map Prod.fst → q.next p = none ∧ q.prev p = none
  counted : q.nodeCount = UInt32.ofNat cells.length

variable {q : LinkedQueue T} {cells : List (Ptr × T)} {a b l r : Ptr} {v : T}

lemma create_shows [Inhabited T] : Shows (create : LinkedQueue T) [] where
  distinct := by simp
  ring := by simp [Path, create]
  data := by simp
  bounded := by simp
  others p hp := by
    have hp : p ≠ .sentinel := by simpa using hp
    simp [create, hp]
  counted := rfl

lemma enQueue_run (hp : q.prev .sentinel = some l) (hl : q.next l = some r)
    (hne : l ≠ .node q.fresh) (v : T) : enQueue v q = some ((), {
      data := Function.update q.data (.node q.fresh) (some v)
      prev := Function.update (Function.update q.prev (.node q.fresh) (some l)) .sentinel
        (some (.node q.fresh))
      next := Function.update (Function.update q.next (.node q.fresh) (some .sentinel)) l
        (some (.node q.fresh))
      nodeCount := q.nodeCount + 1
      fresh := q.fresh + 1 }) := by
  simp [enQueue, allocate, getPrev, setPrev, setNext, getCount, setCount, bind_apply, hp, hl,
    hne]

lemma Shows.fresh_not_mem (h : Shows q cells) :
    .node q.fresh ∉ .sentinel :: cells.map Prod.fst := by
  intro hmem
  rcases List.mem_cons.mp hmem with he | hmem
  · cases he
  · obtain ⟨a, ha, he⟩ := h.bounded _ hmem
    cases he
    exact lt_irrefl _ ha

lemma enQueue_spec (h : Shows q cells) (v : T) :
    Yields (enQueue v) q fun _ q' => ∃ p, Shows q' (cells ++ [(p, v)]) := by
  obtain ⟨hnext, hprev⟩ := h.ring.ends
  have hfresh := h.fresh_not_mem
  have hne : ∀ x ∈ .sentinel :: cells.map Prod.fst, x ≠ .node q.fresh := fun x hx he =>
    hfresh (he ▸ hx)
  have hlast := List.getLast_mem (List.cons_ne_nil Ptr.sentinel (cells.map Prod.fst))
  have hpath : ∀ x ∈ cells.map Prod.fst, x ≠ .sentinel := by
    rintro x hx rfl
    exact (List.nodup_cons.mp h.distinct).1 hx
  refine Yields.of_eq (enQueue_run hprev hnext (hne _ hlast) v) ⟨.node q.fresh, ?_⟩
  refine ⟨?_, ?_, ?_, ?_, ?_, ?_⟩
  · rw [List.map_append, ← List.cons_append, List.nodup_append]
    refine ⟨h.distinct, by simp, ?_⟩
    simpa using hne
  · rw [List.map_append]
    refine Path.append_singleton (h.ring.redirect h.distinct ?_ ?_ ?_ ?_) ⟨?_, ?_⟩
    · intro x hx hxl
      simp [hxl, hne x hx]
    · simp
    · intro x hx
      simp [hpath x hx, hne x (List.mem_cons_of_mem _ hx)]
    · simp
    · simp [(hne _ hlast).symm]
    · simp
  · intro c hc
    rcases List.mem_append.mp hc with hc | hc
    · have hcne := hne c.1 (List.mem_cons_of_mem _ (List.mem_map_of_mem hc))
      simp [hcne, h.data c hc]
    · obtain rfl := List.mem_singleton.mp hc
      simp
  · intro p hp
    rw [List.map_append, List.mem_append] at hp
    rcases hp with hp | hp
    · obtain ⟨a, ha, he⟩ := h.bounded p hp
      exact ⟨a, ha.trans (Nat.lt_succ_self _), he⟩
    · exact ⟨q.fresh, Nat.lt_succ_self _, by simpa using hp⟩
  · intro p hp
    rw [List.map_append, ← List.cons_append, List.mem_append, not_or] at hp
    obtain ⟨hp, hpf⟩ := hp
    have hps : p ≠ .sentinel := fun he => hp (he ▸ List.mem_cons_self)
    have hpl : p ≠ _ := fun he => hp (he ▸ hlast)
    have hpf : p ≠ .node q.fresh := by simpa using hpf
    simpa [hps, hpl, hpf] using h.others p hp
  · rw [h.counted, List.length_append, UInt32.ofNat_add]
    rfl

lemma deQueue_empty (hc : q.nodeCount = 0) : deQueue q = some (.error .emptyQueue, q) := by
  simp [deQueue, getCount, bind_apply, hc, pure_apply]

lemma deQueue_run (hc : q.nodeCount ≠ 0) (hs : q.next .sentinel = some a) (ha : q.next a = some b)
    (hp : q.prev a = some .sentinel) (hb : q.prev b = some a) (hv : q.data a = some v)
    (hne : a ≠ .sentinel) (hab : a ≠ b) : deQueue q = some (.ok v, {
      data := Function.update q.data a none
      prev := Function.update (Function.update q.prev b (some .sentinel)) a none
      next := Function.update (Function.update q.next .sentinel (some b)) a none
      nodeCount := q.nodeCount - 1
      fresh := q.fresh }) := by
  simp [deQueue, getCount, setCount, getNext, setPrev, setNext, getData, destroy, bind_apply,
    pure_apply, -bind_pure_comp, hc, hs, ha, hb, hp, hv, hne, hab]

lemma Shows.count (h : Shows q cells) (hbound : cells.length < 2 ^ 32) :
    q.nodeCount.toNat = cells.length := by
  rw [h.counted, UInt32.toNat_ofNat', Nat.mod_eq_of_lt hbound]

lemma Shows.count_ne_zero {c : Ptr × T} (h : Shows q (c :: cells))
    (hbound : cells.length + 1 < 2 ^ 32) : q.nodeCount ≠ 0 := by
  intro hz
  have hc := h.count hbound
  rw [hz] at hc
  cases hc

lemma deQueue_spec {c : Ptr × T} (h : Shows q (c :: cells)) (hbound : cells.length + 1 < 2 ^ 32) :
    Yields deQueue q fun r q' => r = .ok c.2 ∧ Shows q' cells := by
  obtain ⟨a, v⟩ := c
  obtain ⟨hs, hp, hpath⟩ := h.ring
  obtain ⟨hsn, hrest⟩ := List.nodup_cons.mp h.distinct
  obtain ⟨han, hcells⟩ := List.nodup_cons.mp hrest
  obtain ⟨hsa, hsc⟩ := List.ne_and_not_mem_of_not_mem_cons hsn
  have hd : (cells.map Prod.fst ++ [Ptr.sentinel]).Nodup := by
    rw [List.nodup_append]
    refine ⟨hcells, by simp, fun x hx y hy => ?_⟩
    rw [List.mem_singleton.mp hy]
    rintro rfl
    exact hsc hx
  have hna : ∀ x ∈ cells.map Prod.fst ++ [Ptr.sentinel], x ≠ a := by
    rintro x hx rfl
    rcases List.mem_append.mp hx with hx | hx
    · exact han hx
    · exact hsa (List.mem_singleton.mp hx).symm
  obtain ⟨b, hb, hab, hba, hshift⟩ := hpath.shift hd
  have hcount := h.count_ne_zero hbound
  have hv := h.data _ List.mem_cons_self
  refine Yields.of_eq (deQueue_run hcount hs hab hp hba hv hsa.symm (hna b hb).symm) ⟨rfl, ?_⟩
  refine ⟨List.nodup_cons.mpr ⟨hsc, hcells⟩, ?_, ?_, ?_, ?_, ?_⟩
  · refine hshift _ _ _ (by simp [hsa]) (by simp [hna b hb]) ?_ ?_
    · intro x hx
      have hxs : x ≠ .sentinel := by
        rintro rfl
        exact hsc hx
      simp [hxs, hna x (List.mem_append_left _ hx)]
    · intro x hx hxb
      simp [hxb, hna x hx]
  · intro c hc
    have hca := hna c.1 (List.mem_append_left _ (List.mem_map_of_mem hc))
    simp [hca, h.data c (List.mem_cons_of_mem _ hc)]
  · exact fun p hp => h.bounded p (List.mem_cons_of_mem _ hp)
  · intro x hx
    obtain ⟨hxs, hxc⟩ := List.ne_and_not_mem_of_not_mem_cons hx
    by_cases hxa : x = a
    · simp [hxa]
    · have hxb : x ≠ b := by
        rintro rfl
        rcases List.mem_append.mp hb with hb | hb
        · exact hxc hb
        · exact hxs (List.mem_singleton.mp hb)
      simpa [hxs, hxa, hxb] using h.others x (by simp [hxs, hxa, hxc])
  · rw [h.counted, List.length_cons, UInt32.ofNat_add]
    exact UInt32.add_sub_cancel _ _

lemma Shows.length_le (h : Shows q cells) : cells.length ≤ q.fresh := by
  have hsub : cells.map Prod.fst ⊆ (List.range q.fresh).map Ptr.node := by
    intro p hp
    obtain ⟨a, ha, rfl⟩ := h.bounded p hp
    exact List.mem_map_of_mem (List.mem_range.mpr ha)
  have hnodup := (List.nodup_cons.mp h.distinct).2
  simpa using (List.subperm_of_subset hnodup hsub).length_le

lemma clearFrom_spec {p : Ptr} {as : List Ptr} {fuel : ℕ} (h : Leads q.next .sentinel p as)
    (hd : (.sentinel :: as).Nodup) (hfuel : as.length < fuel) :
    Yields (clearFrom fuel p) q fun _ q' => q' = { q with
      data := removed q.data as
      prev := removed q.prev as
      next := removed q.next as } := by
  induction as generalizing q p fuel with
  | nil =>
    obtain ⟨n, rfl⟩ := Nat.exists_eq_add_of_lt hfuel
    rw [clearFrom, if_pos (show p = .sentinel from h)]
    exact Yields.pure rfl
  | cons a as ih =>
    obtain ⟨rfl, r, hr, h⟩ := h
    obtain _ | fuel := fuel
    · simp at hfuel
    obtain ⟨hsn, hrest⟩ := List.nodup_cons.mp hd
    obtain ⟨hsp, hsa⟩ := List.ne_and_not_mem_of_not_mem_cons hsn
    obtain ⟨hpa, has⟩ := List.nodup_cons.mp hrest
    have hget : getNext p q = some (r, q) := by simp [getNext, hr]
    have hdestroy : destroy p q = some ((), { q with
        data := Function.update q.data p none
        prev := Function.update q.prev p none
        next := Function.update q.next p none }) := by simp [destroy, hr]
    rw [clearFrom, if_neg hsp.symm]
    refine Yields.step hget (Yields.step hdestroy ?_)
    have hne : ∀ x ∈ as, x ≠ p := by
      rintro x hx rfl
      exact hpa hx
    refine (ih (h.frame fun x hx => Function.update_of_ne (hne x hx) _ _)
      (List.nodup_cons.mpr ⟨hsa, has⟩) (Nat.lt_of_succ_lt_succ hfuel)).mono ?_
    rintro _ q' rfl
    simp only [removed_update]

lemma clear_spec (h : Shows q cells) : Yields clear q fun _ q' => Shows q' [] := by
  obtain ⟨r, hr, hleads⟩ := h.ring.leads
  have hget : getNext .sentinel q = some (r, q) := by simp [getNext, hr]
  have hs := (List.nodup_cons.mp h.distinct).1
  obtain ⟨_, hprev⟩ := h.ring.ends
  have hfuel : (cells.map Prod.fst).length < q.fresh + 1 := by
    rw [List.length_map]
    exact Nat.lt_succ_of_le h.length_le
  have hreset : resetSentinel { q with
      data := removed q.data (cells.map Prod.fst)
      prev := removed q.prev (cells.map Prod.fst)
      next := removed q.next (cells.map Prod.fst) } = some ((), {
        data := removed q.data (cells.map Prod.fst)
        prev := Function.update (removed q.prev (cells.map Prod.fst)) .sentinel (some .sentinel)
        next := Function.update (removed q.next (cells.map Prod.fst)) .sentinel (some .sentinel)
        nodeCount := 0
        fresh := q.fresh }) := by
    simp [resetSentinel, setPrev, setNext, setCount, bind_apply, removed, hs, hprev, hr]
  refine Yields.step rfl (Yields.step hget ((clearFrom_spec hleads h.distinct hfuel).bind ?_))
  rintro _ q' rfl
  refine Yields.of_eq hreset ⟨by simp, by simp [Path], by simp, by simp, fun p hp => ?_, rfl⟩
  have hp : p ≠ .sentinel := by simpa using hp
  by_cases hc : p ∈ cells.map Prod.fst
  · simp [removed, hp, hc]
  · simpa [removed, hp, hc] using h.others p (by simp [hp, hc])

variable (equal : T → T → Bool)

def firstNode (cells : List (Ptr × T)) (v : T) : Ptr :=
  ((cells.find? fun c => equal c.2 v).map Prod.fst).getD .null

lemma searchFrom_spec {p : Ptr} {fuel : ℕ} (h : Leads q.next .sentinel p (cells.map Prod.fst))
    (hs : .sentinel ∉ cells.map Prod.fst) (hv : ∀ c ∈ cells, q.data c.1 = some c.2)
    (hfuel : cells.length < fuel) :
    Yields (searchFrom equal v fuel p) q fun r q' => r = firstNode equal cells v ∧ q' = q := by
  induction cells generalizing p fuel with
  | nil =>
    obtain ⟨n, rfl⟩ := Nat.exists_eq_add_of_lt hfuel
    rw [searchFrom, if_pos (show p = .sentinel from h)]
    exact Yields.pure ⟨rfl, rfl⟩
  | cons c cells ih =>
    obtain ⟨rfl, r, hr, h⟩ := h
    obtain _ | fuel := fuel
    · simp at hfuel
    obtain ⟨hsc, hsn⟩ := List.ne_and_not_mem_of_not_mem_cons hs
    have hdata : getData c.1 q = some (c.2, q) := by simp [getData, hv c List.mem_cons_self]
    have hget : getNext c.1 q = some (r, q) := by simp [getNext, hr]
    rw [searchFrom, if_neg hsc.symm]
    apply Yields.step hdata
    by_cases he : equal c.2 v = true
    · rw [if_pos he]
      exact Yields.pure ⟨by simp [firstNode, he], rfl⟩
    · rw [if_neg he]
      apply Yields.step hget
      have hfirst : firstNode equal (c :: cells) v = firstNode equal cells v := by
        simp [firstNode, he]
      rw [hfirst]
      exact ih h hsn (fun d hd => hv d (List.mem_cons_of_mem c hd)) (Nat.lt_of_succ_lt_succ hfuel)

lemma search_spec (h : Shows q cells) (v : T) :
    Yields (search equal v) q fun r q' => r = firstNode equal cells v ∧ q' = q := by
  obtain ⟨r, hr, hleads⟩ := h.ring.leads
  have hget : getNext .sentinel q = some (r, q) := by simp [getNext, hr]
  exact Yields.step rfl (Yields.step hget (searchFrom_spec equal hleads
    (List.nodup_cons.mp h.distinct).1 h.data (Nat.lt_succ_of_le h.length_le)))

end Contents

section Values

variable {q : LinkedQueue T} {Q : Queue T}

/-- The queue without its pointers. -/
def Holds (q : LinkedQueue T) (Q : Queue T) : Prop :=
  ∃ cells, Shows q cells ∧ Q = ⟨cells.map Prod.snd, q.nodeCount⟩

lemma Holds.enQueue (h : Holds q Q) (v : T) :
    Yields (Linked.enQueue v) q fun _ q' => Holds q' (Q.enQueue v) := by
  obtain ⟨cells, h, rfl⟩ := h
  apply (enQueue_spec h v).mono
  rintro _ q' ⟨p, h'⟩
  refine ⟨_, h', ?_⟩
  rw [Queue.enQueue, h.counted, h'.counted, List.length_append, UInt32.ofNat_add, List.map_append]
  rfl

lemma Holds.deQueue (h : Holds q Q) (hbound : Q.nodes.length < 2 ^ 32) :
    Yields Linked.deQueue q fun r q' =>
      (r = .error .emptyQueue ∧ Q.deQueue = .error .emptyQueue ∧ q' = q) ∨
        ∃ v Q', r = .ok v ∧ Q.deQueue = .ok (v, Q') ∧ Holds q' Q' := by
  obtain ⟨cells, h, rfl⟩ := h
  rw [List.length_map] at hbound
  cases cells with
  | nil => exact Yields.of_eq (deQueue_empty h.counted) (Or.inl ⟨rfl, if_pos h.counted, rfl⟩)
  | cons c cells =>
    apply (deQueue_spec h hbound).mono
    rintro _ q' ⟨rfl, h'⟩
    have hcount : q'.nodeCount = q.nodeCount - 1 := by
      rw [h.counted, h'.counted, List.length_cons, UInt32.ofNat_add]
      exact (UInt32.add_sub_cancel _ _).symm
    refine Or.inr ⟨c.2, _, rfl, ?_, cells, h', rfl⟩
    rw [Queue.deQueue, if_neg (h.count_ne_zero hbound), hcount]
    rfl

end Values

section Sequences

inductive Operation (T : Type) where
  | enQueue (v : T)
  | deQueue
  | clear
deriving DecidableEq, Repr

inductive Outcome (T : Type) where
  | done
  | returned (v : T)
  | threw (f : Fault)
deriving DecidableEq, Repr

def Operation.run : Operation T → QueueProgram T (Outcome T)
  | .enQueue v => do
    Linked.enQueue v
    return .done
  | .deQueue => do
    match ← Linked.deQueue with
    | .ok v => return .returned v
    | .error f => return .threw f
  | .clear => do
    Linked.clear
    return .done

def runAll : List (Operation T) → QueueProgram T (List (Outcome T))
  | [] => return []
  | p :: ps => do
    let out ← p.run
    return out :: (← runAll ps)

def Operation.onList : Operation T → List T → Outcome T × List T
  | .enQueue v, l => (.done, l ++ [v])
  | .deQueue, [] => (.threw .emptyQueue, [])
  | .deQueue, v :: l => (.returned v, l)
  | .clear, _ => (.done, [])

def allOnList : List (Operation T) → List T → List (Outcome T) × List T
  | [], l => ([], l)
  | p :: ps, l =>
    ((p.onList l).1 :: (allOnList ps (p.onList l).2).1, (allOnList ps (p.onList l).2).2)

def Fits : List (Operation T) → List T → Prop
  | [], l => l.length < 2 ^ 32
  | p :: ps, l => l.length < 2 ^ 32 ∧ Fits ps (p.onList l).2

structure IsRing (q : LinkedQueue T) (as : List Ptr) : Prop where
  ring : Path q.next q.prev .sentinel as .sentinel
  distinct : (.sentinel :: as).Nodup
  inverse : ∀ p r, q.next p = some r ↔ q.prev r = some p
  exactly : ∀ p, q.next p ≠ none ↔ p ∈ .sentinel :: as
  count : q.nodeCount.toNat = as.length

/-- The queue is a ring that holds the list, and its calls do what a list does. -/
structure Refines (equal : T → T → Bool) (q : LinkedQueue T) (cells : List (Ptr × T)) : Prop where
  ring : IsRing q (cells.map Prod.fst)
  data : ∀ c ∈ cells, q.data c.1 = some c.2
  empty : cells = [] → deQueue q = some (.error .emptyQueue, q)
  search : ∀ v, search equal v q = some (firstNode equal cells v, q)

variable {q : LinkedQueue T} {cells : List (Ptr × T)}

lemma Shows.isRing (h : Shows q cells) (hbound : cells.length < 2 ^ 32) :
    IsRing q (cells.map Prod.fst) where
  ring := h.ring
  distinct := h.distinct
  inverse p r := by
    constructor
    · intro hp
      have hmem : p ∈ .sentinel :: cells.map Prod.fst := by
        by_contra hn
        rw [(h.others p hn).1] at hp
        cases hp
      obtain ⟨y, hy, hback⟩ := h.ring.successor hmem
      obtain rfl := Option.some.inj (hp.symm.trans hy)
      exact hback
    · intro hr
      have hmem : r ∈ cells.map Prod.fst ++ [Ptr.sentinel] := by
        by_contra hn
        rw [(h.others r (by simpa [and_comm, or_comm] using hn)).2] at hr
        cases hr
      obtain ⟨x, hx, hback⟩ := h.ring.predecessor hmem
      obtain rfl := Option.some.inj (hr.symm.trans hback)
      exact hx
  exactly p := by
    refine ⟨fun hp => by_contra fun hn => hp (h.others p hn).1, fun hp => ?_⟩
    obtain ⟨y, hy, _⟩ := h.ring.successor hp
    simp [hy]
  count := by rw [h.count hbound, List.length_map]

lemma Shows.refines (equal : T → T → Bool) (h : Shows q cells) (hbound : cells.length < 2 ^ 32) :
    Refines equal q cells where
  ring := h.isRing hbound
  data := h.data
  empty he := by
    rw [he] at h
    exact deQueue_empty h.counted
  search v := (search_spec equal h v).run_eq

lemma Operation.run_spec (p : Operation T) (h : Shows q cells) (hbound : cells.length < 2 ^ 32) :
    Yields p.run q fun out q' => out = (p.onList (cells.map Prod.snd)).1 ∧
      ∃ cells', Shows q' cells' ∧ cells'.map Prod.snd = (p.onList (cells.map Prod.snd)).2 := by
  cases p with
  | enQueue v =>
    apply (enQueue_spec h v).bind
    rintro _ q' ⟨p, h'⟩
    exact Yields.pure ⟨rfl, _, h', by simp [onList]⟩
  | deQueue =>
    cases cells with
    | nil =>
      exact Yields.step (deQueue_empty h.counted) (Yields.pure ⟨rfl, [], h, rfl⟩)
    | cons c cells =>
      apply (deQueue_spec h hbound).bind
      rintro _ q' ⟨rfl, h'⟩
      exact Yields.pure ⟨rfl, cells, h', rfl⟩
  | clear =>
    apply (clear_spec h).bind
    intro _ q' h'
    exact Yields.pure ⟨rfl, [], h', rfl⟩

lemma runAll_spec (ps : List (Operation T)) (h : Shows q cells)
    (hfits : Fits ps (cells.map Prod.snd)) :
    Yields (runAll ps) q fun outs q' => outs = (allOnList ps (cells.map Prod.snd)).1 ∧
      ∃ cells', Shows q' cells' ∧ cells'.length < 2 ^ 32 ∧
        cells'.map Prod.snd = (allOnList ps (cells.map Prod.snd)).2 := by
  induction ps generalizing q cells with
  | nil => exact Yields.pure ⟨rfl, cells, h, by simpa [Fits] using hfits, rfl⟩
  | cons p ps ih =>
    obtain ⟨hbound, hfits⟩ := hfits
    rw [List.length_map] at hbound
    apply (p.run_spec h hbound).bind
    rintro _ q' ⟨rfl, cells', h', hcells⟩
    rw [← hcells] at hfits
    apply (ih h' hfits).bind
    rintro _ q'' ⟨rfl, cells'', h'', hbound', hall⟩
    refine Yields.pure ⟨by rw [allOnList, hcells], cells'', h'', hbound', ?_⟩
    rw [allOnList, ← hcells, hall]

theorem linked_queue_refines [Inhabited T] (equal : T → T → Bool) (ps : List (Operation T))
    (hfits : Fits ps []) :
    Yields (runAll ps) create fun outs q => outs = (allOnList ps []).1 ∧
      ∃ cells, Refines equal q cells ∧ cells.map Prod.snd = (allOnList ps []).2 := by
  apply (runAll_spec ps create_shows hfits).mono
  rintro _ q ⟨houts, cells, h, hbound, hcells⟩
  exact ⟨houts, cells, h.refines equal hbound, hcells⟩

theorem linked_queue_refines_two :
    Yields (runAll [.deQueue, .enQueue 5, .enQueue 6, .deQueue]) (create : LinkedQueue ℕ)
      fun outs q => outs = [.threw .emptyQueue, .done, .done, .returned 5] ∧
        ∃ cells, Refines (fun a b => a == b) q cells ∧ cells.map Prod.snd = [6] :=
  linked_queue_refines (fun a b => a == b) [.deQueue, .enQueue 5, .enQueue 6, .deQueue]
    (by simp [Fits, Operation.onList])

end Sequences

end Xty.Queues.Linked
