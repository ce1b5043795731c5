import Xty.General.RedBlack.Search
import Xty.RbTree.InsertFixUp
import Xty.RbTree.Unlink

/-! `xtyRbTree`: search, insertion, deletion and clearing over nodes that hold data. -/

namespace Xty.RbTree

open Xty.General.Programs Xty.General.RedBlack Xty.General.Heap ColorTree

/-- The operators `<`, `>` and `==` of an element type, which compare keys. -/
structure KeyOrder (T κ : Type) [LinearOrder κ] where
  key : T → κ
  less : T → T → Bool
  greater : T → T → Bool
  equal : T → T → Bool
  less_iff : ∀ a b, less a b = true ↔ key a < key b
  greater_iff : ∀ a b, greater a b = true ↔ key b < key a
  equal_iff : ∀ a b, equal a b = true ↔ key a = key b

structure LinkedTree (T : Type) where
  graph : Graph
  data : Ptr → T
  nodeCount : UInt32
  next : ℕ

abbrev TreeProgram (T α : Type) := Program (LinkedTree T) α

variable {T κ α : Type}

section Operations

def create [Inhabited T] : LinkedTree T where
  graph := ⟨Function.update (fun _ => none) .sentinel (some (sentinelLinks .sentinel)), .sentinel⟩
  data := fun _ => default
  nodeCount := 0
  next := 0

def onGraph (m : GraphProgram α) : TreeProgram T α := fun t =>
  (m t.graph).map fun r => (r.1, { t with graph := r.2 })

def getData (p : Ptr) : TreeProgram T T := fun t =>
  (t.graph.links p).map fun _ => (t.data p, t)

def setData (p : Ptr) (v : T) : TreeProgram T Unit := fun t =>
  (t.graph.links p).map fun _ => ((), { t with data := Function.update t.data p v })

/-- A bound on the rounds of every loop: no more nodes exist than were allocated. -/
def nodeBound : TreeProgram T ℕ := fun t => some (t.next + 1, t)

def addCount (n : UInt32) : TreeProgram T Unit := fun t =>
  some ((), { t with nodeCount := t.nodeCount + n })

def setCount (n : UInt32) : TreeProgram T Unit := fun t => some ((), { t with nodeCount := n })

/-- `Allocate` and the constructor for normal nodes. Memory of deleted nodes is not used again. -/
def allocate (v : T) : TreeProgram T Ptr := fun t =>
  some (.node t.next, { t with
    graph := t.graph.write (.node t.next) ⟨.null, .null, .null, .red⟩
    data := Function.update t.data (.node t.next) v
    next := t.next + 1 })

variable [LinearOrder κ] (o : KeyOrder T κ)

def searchFrom (v : T) : ℕ → Ptr → TreeProgram T Ptr
  | 0, _ => fun _ => none
  | fuel + 1, p =>
    if p = .sentinel then return .null
    else do
      let d ← getData p
      if o.equal d v then return p
      else if o.greater d v then searchFrom v fuel (← onGraph (getChild .left p))
      else searchFrom v fuel (← onGraph (getChild .right p))

def search (v : T) : TreeProgram T Ptr := do
  searchFrom o v (← nodeBound) (← onGraph getRoot)

def placeFrom (node : Ptr) : ℕ → Ptr → Ptr → TreeProgram T Ptr
  | 0, _, _ => fun _ => none
  | fuel + 1, pp, p =>
    if p = .sentinel then return pp
    else do
      let d ← getData p
      if o.greater d (← getData node) then placeFrom node fuel p (← onGraph (getChild .left p))
      else placeFrom node fuel p (← onGraph (getChild .right p))

def attach (node pp : Ptr) : TreeProgram T Unit := do
  if pp = .sentinel then onGraph (setRoot node)
  else do
    let d ← getData node
    if o.less d (← getData pp) then onGraph (setChild .left pp node)
    else onGraph (setChild .right pp node)

def initLinks (node pp : Ptr) : GraphProgram Unit := do
  setParent node pp
  setChild .left node .sentinel
  setChild .right node .sentinel
  -- the node must be red for the fix-up
  setColor node .red

def insertNew (v : T) : TreeProgram T Ptr := do
  let node ← allocate v
  let pp ← placeFrom o node (← nodeBound) .sentinel (← onGraph getRoot)
  attach o node pp
  onGraph (initLinks node pp)
  onGraph (insertFixUp (← nodeBound) node)
  addCount 1
  return node

def insert (v : T) : TreeProgram T Ptr := do
  let found ← search o v
  if found ≠ .null then return found
  else insertNew o v

def delete (v : T) : TreeProgram T Unit := do
  let node ← search o v
  if node = .null then return ()
  else do
    onGraph (remove (← nodeBound) node)
    addCount (-1)

namespace Checked

def insertNew (v : T) : TreeProgram T Ptr := do
  let node ← allocate v
  let pp ← placeFrom o node (← nodeBound) .sentinel (← onGraph getRoot)
  attach o node pp
  onGraph (initLinks node pp)
  onGraph (insertFixUp (← nodeBound) node)
  addCount 1
  return node

def insert (v : T) : TreeProgram T Ptr := do
  let found ← search o v
  if found ≠ .null then return found
  else insertNew o v

def delete (v : T) : TreeProgram T Unit := do
  let node ← search o v
  if node = .null then return ()
  else do
    onGraph (remove (← nodeBound) node)
    addCount (-1)

end Checked

def resetSentinel : GraphProgram Unit := do
  setParent .sentinel .sentinel
  setChild .left .sentinel .sentinel
  setChild .right .sentinel .sentinel
  setRoot .sentinel

def clear : TreeProgram T Unit := do
  onGraph (clearAux (← nodeBound) (← onGraph getRoot))
  onGraph resetSentinel
  setCount 0

end Operations

section Lifting

variable {t : LinkedTree T} {m : GraphProgram α} {a : α} {g : Graph}

lemma onGraph_run (h : m t.graph = some (a, g)) :
    onGraph m t = some (a, { t with graph := g }) := by
  rw [onGraph, h]
  rfl

lemma onGraph_yields {P : α → Graph → Prop} (h : Yields m t.graph P) :
    Yields (onGraph m) t fun a t' => ∃ g, P a g ∧ t' = { t with graph := g } := by
  obtain ⟨a, g, hm, hp⟩ := h
  exact Yields.of_eq (onGraph_run hm) ⟨g, hp, rfl⟩

lemma getData_run {p : Ptr} {k : Links} (h : t.graph.links p = some k) :
    getData p t = some (t.data p, t) := by
  rw [getData, h]
  rfl

lemma setData_run {p : Ptr} {k : Links} (h : t.graph.links p = some k) (v : T) :
    setData p v t = some ((), { t with data := Function.update t.data p v }) := by
  rw [setData, h]
  rfl

lemma erases_onGraph {m m' : GraphProgram α} (h : Erases m m') :
    Erases (onGraph m : TreeProgram T α) (onGraph m') := by
  intro t r hr
  obtain ⟨⟨a, g⟩, hm, rfl⟩ := Option.map_eq_some_iff.mp hr
  exact onGraph_run (h _ _ hm)

end Lifting

variable [LinearOrder κ] {o : KeyOrder T κ}

namespace Checked

lemma erases_insertNew (v : T) : Erases (insertNew o v) (RbTree.insertNew o v) := by
  refine Erases.rest fun node => Erases.rest fun _ => ?_
  refine Erases.rest fun _ => Erases.rest fun _ => ?_
  refine Erases.rest fun _ => Erases.rest fun _ => ?_
  refine Erases.rest fun fuel => ?_
  exact (erases_onGraph (erases_insertFixUp fuel node)).first

lemma erases_insert (v : T) : Erases (insert o v) (RbTree.insert o v) :=
  Erases.rest fun _ => (Erases.refl _).ite (erases_insertNew v)

lemma erases_delete (v : T) : Erases (delete o v) (RbTree.delete o v) := by
  refine Erases.rest fun node => Erases.ite (Erases.refl _) ?_
  refine Erases.rest fun fuel => ?_
  exact (erases_onGraph (erases_remove fuel node)).first

end Checked

def LinkedTree.keyAt (o : KeyOrder T κ) (t : LinkedTree T) (a : ℕ) : κ := o.key (t.data (.node a))

section Search

variable {t : LinkedTree T} {x : ColorTree ℕ} {C : Context ℕ} {p : Ptr} {F : LinkCells} {v : T}

lemma Shows.data_run {c : Color} {l r : ColorTree ℕ} {a : ℕ}
    (h : Shows t.graph (node c l a r) C p F) :
    getData (.node a) t = some (t.data (.node a), t) :=
  getData_run (h.node_run (s := .left))

def Found (o : KeyOrder T κ) (t : LinkedTree T) (v : T) (u : ColorTree ℕ) (q : Ptr) : Prop :=
  (∃ c l a r D, u = plug (node c l a r) D ∧ q = .node a ∧ t.keyAt o a = o.key v) ∨
    (q = .null ∧ ∀ a ∈ u.inorder, t.keyAt o a ≠ o.key v)

lemma Found.mem {u : ColorTree ℕ} {q : Ptr} (h : Found o t v u q) :
    (∃ a ∈ u.inorder, q = .node a ∧ t.keyAt o a = o.key v) ∨
      (q = .null ∧ ∀ a ∈ u.inorder, t.keyAt o a ≠ o.key v) := by
  rcases h with ⟨c, l, a, r, D, rfl, rfl, hk⟩ | h
  · refine Or.inl ⟨a, ?_, rfl, hk⟩
    rw [inorder_plug, inorder]
    simp
  · exact Or.inr h

lemma searchFrom_spec {fuel : ℕ} (h : Shows t.graph x C p F)
    (hs : Sorted (t.keyAt o) (plug x C)) (ha : Around (t.keyAt o) (o.key v) C)
    (hfuel : x.height < fuel) :
    Yields (searchFrom o v fuel (ptr x)) t fun q t' => t' = t ∧ Found o t v (plug x C) q := by
  induction x generalizing C fuel with
  | leaf =>
    obtain ⟨n, rfl⟩ := Nat.exists_eq_add_of_lt hfuel
    rw [searchFrom, ptr, if_pos rfl]
    exact Yields.pure ⟨rfl, Or.inr ⟨rfl, ha.absent⟩⟩
  | node c l a r ihl ihr =>
    obtain _ | fuel := fuel
    · simp at hfuel
    rw [height] at hfuel
    have hl : Shows t.graph l (⟨.left, c, a, r⟩ :: C) p F := h.refocus rfl
    have hr : Shows t.graph r (⟨.right, c, a, l⟩ :: C) p F := h.refocus rfl
    rw [searchFrom, ptr, if_neg (by simp)]
    apply Yields.step h.data_run
    by_cases he : o.equal (t.data (.node a)) v = true
    · rw [if_pos he]
      exact Yields.pure ⟨rfl, Or.inl ⟨c, l, a, r, C, rfl, rfl, (o.equal_iff _ _).mp he⟩⟩
    rw [if_neg he]
    by_cases hg : o.greater (t.data (.node a)) v = true
    · rw [if_pos hg]
      apply Yields.step (onGraph_run hl.child_run)
      exact ihl hl hs (ha.left hs ((o.greater_iff _ _).mp hg)) (by omega)
    · rw [if_neg hg]
      apply Yields.step (onGraph_run hr.child_run)
      refine ihr hr hs (ha.right hs ?_) (by omega)
      apply lt_of_le_of_ne (not_lt.mp fun hlt => hg ((o.greater_iff _ _).mpr hlt))
      exact fun heq => he ((o.equal_iff _ _).mpr heq)

lemma placeFrom_spec {fuel : ℕ} {q : Ptr} {k : Links} (h : Shows t.graph x C p F)
    (hq : t.graph.links q = some k) (hs : Sorted (t.keyAt o) (plug x C))
    (ha : Around (t.keyAt o) (o.key (t.data q)) C)
    (habs : ∀ a ∈ (plug x C).inorder, t.keyAt o a ≠ o.key (t.data q))
    (hfuel : x.height < fuel) :
    Yields (placeFrom o q fuel (contextPtr C) (ptr x)) t fun pp t' => t' = t ∧
      ∃ D, plug x C = plug .leaf D ∧ pp = contextPtr D ∧
        Around (t.keyAt o) (o.key (t.data q)) D := by
  induction x generalizing C fuel with
  | leaf =>
    obtain ⟨n, rfl⟩ := Nat.exists_eq_add_of_lt hfuel
    rw [placeFrom, ptr, if_pos rfl]
    exact Yields.pure ⟨rfl, C, rfl, rfl, ha⟩
  | node c l a r ihl ihr =>
    obtain _ | fuel := fuel
    · simp at hfuel
    rw [height] at hfuel
    have hl : Shows t.graph l (⟨.left, c, a, r⟩ :: C) p F := h.refocus rfl
    have hr : Shows t.graph r (⟨.right, c, a, l⟩ :: C) p F := h.refocus rfl
    rw [placeFrom, ptr, if_neg (by simp)]
    refine Yields.step h.data_run (Yields.step (getData_run hq) ?_)
    by_cases hg : o.greater (t.data (.node a)) (t.data q) = true
    · rw [if_pos hg]
      apply Yields.step (onGraph_run hl.child_run)
      exact ihl hl hs (ha.left hs ((o.greater_iff _ _).mp hg)) habs (by omega)
    · rw [if_neg hg]
      apply Yields.step (onGraph_run hr.child_run)
      refine ihr hr hs (ha.right hs ?_) habs (by omega)
      apply lt_of_le_of_ne (not_lt.mp fun hlt => hg ((o.greater_iff _ _).mpr hlt))
      exact habs a (by rw [inorder_plug, inorder]; simp)

end Search

end Xty.RbTree
