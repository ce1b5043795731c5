import Xty.General.RedBlack.Layers
import Xty.RbTree.Runs

/-! `RecursiveVisit` and `NonRecursiveVisit` of `xtyRbTree`, and what they print. -/

namespace Xty.RbTree

open Xty.General.Programs Xty.General.RedBlack Xty.General.Heap ColorTree

variable {T κ : Type}

inductive Line (T : Type) where
  | data (v : T)
  | color (c : Color)
  | turnLeft
  | turnRight
  | goBack
  | emptyTree
  | nodeCount (n : UInt32)
  | layer (n : ℕ)
deriving DecidableEq, Repr

section Operations

def printNode (p : Ptr) : TreeProgram T (List (Line T)) := do
  let v ← getData p
  return [.data v, .color (← onGraph (getColor p))]

def visitChild (visit : Ptr → TreeProgram T (List (Line T))) (turn : Line T) (p : Ptr) :
    TreeProgram T (List (Line T)) := do
  if p ≠ .sentinel then return turn :: (← visit p) else return []

def visitFrom : ℕ → Ptr → TreeProgram T (List (Line T))
  | 0, _ => fun _ => none
  | fuel + 1, p =>
    if p = .sentinel then return []
    else do
      let here ← printNode p
      let left ← visitChild (visitFrom fuel) .turnLeft (← onGraph (getChild .left p))
      let right ← visitChild (visitFrom fuel) .turnRight (← onGraph (getChild .right p))
      return here ++ left ++ right ++ [.goBack]

def recursiveVisit (p : Ptr) : TreeProgram T (List (Line T)) := do visitFrom (← nodeBound) p

/-- The `int` that counts the nodes of the next layer must not overflow. -/
def increment (n : ℕ) : TreeProgram T ℕ := if n + 1 < 2 ^ 31 then return n + 1 else fun _ => none

def push (p : Ptr) (q : List Ptr) (next : ℕ) : TreeProgram T (List Ptr × ℕ) := do
  if p ≠ .sentinel then return (q ++ [p], ← increment next) else return (q, next)

def visitLayer : ℕ → List Ptr → ℕ → TreeProgram T (List (Line T) × List Ptr × ℕ)
  | 0, q, next => return ([], q, next)
  -- the front of an empty queue
  | _ + 1, [], _ => fun _ => none
  | n + 1, p :: q, next => do
    let here ← printNode p
    let (q, next) ← push (← onGraph (getChild .left p)) q next
    let (q, next) ← push (← onGraph (getChild .right p)) q next
    let (rest, q, next) ← visitLayer n q next
    return (here ++ rest, q, next)

def visitLayers : ℕ → ℕ → ℕ → List Ptr → TreeProgram T (List (Line T))
  | 0, _, _, _ => fun _ => none
  | fuel + 1, layerCount, nodeThisLayer, q =>
    if q = [] then return []
    else do
      let (lines, q, nodeNextLayer) ← visitLayer nodeThisLayer q 0
      return .layer layerCount :: lines ++ (← visitLayers fuel (layerCount + 1) nodeNextLayer q)

def getCount : TreeProgram T UInt32 := fun t => some (t.nodeCount, t)

def nonRecursiveVisit : TreeProgram T (List (Line T)) := do
  let count ← getCount
  if count = 0 then return [.emptyTree]
  else do
    let (q, nodeThisLayer) ← push (← onGraph getRoot) [] 0
    return .nodeCount count :: (← visitLayers (← nodeBound) 0 nodeThisLayer q)

end Operations

section Transcripts

def transcript : ColorTree T → List (Line T)
  | .leaf => []
  | .node c l a r => [.data a, .color c] ++
      (if l.isNode then .turnLeft :: transcript l else []) ++
      (if r.isNode then .turnRight :: transcript r else []) ++ [.goBack]

def nodeLines (n : Color × T) : List (Line T) := [.data n.2, .color n.1]

def layerLines (t : ColorTree T) (k : ℕ) : List (Line T) :=
  .layer k :: (t.layer k).flatMap nodeLines

def printed : List (Line T) → List T :=
  List.filterMap fun
    | .data v => some v
    | _ => none

end Transcripts

section Visits

variable {t : LinkedTree T} {c : ColorTree ℕ} {p : Ptr}

def LinkedTree.values (t : LinkedTree T) (c : ColorTree ℕ) : ColorTree T :=
  c.map fun a => t.data (.node a)

lemma ptr_ne_sentinel {u : ColorTree ℕ} : ptr u ≠ .sentinel ↔ u.isNode = true := by
  cases u <;> simp [ptr, isNode]

lemma isNode_map {α β : Type} (f : α → β) (u : ColorTree α) : (u.map f).isNode = u.isNode := by
  cases u <;> rfl

lemma printNode_run {a : ℕ} {k : Links} (h : t.graph.links (.node a) = some k) :
    printNode (.node a) t = some ([.data (t.data (.node a)), .color k.color], t) := by
  have hcolor : getColor (.node a) t.graph = some (k.color, t.graph) := readLinks_run h
  apply Yields.run_eq
  exact Yields.step (getData_run h) (Yields.step (onGraph_run hcolor) (Yields.pure ⟨rfl, rfl⟩))

lemma getChild_run {a : ℕ} {k : Links} (s : Side) (h : t.graph.links (.node a) = some k) :
    onGraph (getChild s (.node a)) t = some (k.child s, t) :=
  onGraph_run (readLinks_run h)

lemma visitChild_run {visit : Ptr → TreeProgram T (List (Line T))} {u : ColorTree ℕ}
    (turn : Line T) (h : visit (ptr u) t = some (transcript (t.values u), t)) :
    visitChild visit turn (ptr u) t =
      some (if (t.values u).isNode then turn :: transcript (t.values u) else [], t) := by
  rw [visitChild, LinkedTree.values, isNode_map]
  by_cases hu : u.isNode = true
  · rw [if_pos (ptr_ne_sentinel.mpr hu), if_pos hu]
    apply Yields.run_eq
    exact Yields.step h (Yields.pure ⟨rfl, rfl⟩)
  · rw [if_neg (mt ptr_ne_sentinel.mp hu), if_neg hu]
    rfl

lemma visitFrom_spec {fuel : ℕ} (h : Linked t.graph p c) (hfuel : c.height < fuel) :
    visitFrom fuel (ptr c) t = some (transcript (t.values c), t) := by
  induction c generalizing p fuel with
  | leaf =>
    obtain ⟨n, rfl⟩ := Nat.exists_eq_add_of_lt hfuel
    rfl
  | node d l a r ihl ihr =>
    obtain ⟨hn, hl, hr⟩ := h
    obtain _ | fuel := fuel
    · cases hfuel
    rw [height, Nat.succ_lt_succ_iff, max_lt_iff] at hfuel
    have hleft := visitChild_run .turnLeft (ihl hl hfuel.1)
    have hright := visitChild_run .turnRight (ihr hr hfuel.2)
    rw [ptr, visitFrom, if_neg (by simp)]
    apply Yields.run_eq
    apply Yields.step (printNode_run hn)
    apply Yields.step (getChild_run .left hn)
    apply Yields.step hleft
    apply Yields.step (getChild_run .right hn)
    apply Yields.step hright
    exact Yields.pure ⟨rfl, rfl⟩

lemma linked_branches {g : Graph} {u v : ColorTree ℕ} (h : Linked g p u) (hv : v ∈ u.branches) :
    ∃ q, Linked g q v := by
  cases u with
  | leaf => simp [branches] at hv
  | node d l a r =>
    obtain ⟨_, hl, hr⟩ := h
    rw [branches, List.mem_filter, List.mem_pair] at hv
    rcases hv.1 with rfl | rfl
    · exact ⟨_, hl⟩
    · exact ⟨_, hr⟩

lemma push_run {u : ColorTree ℕ} {q : List Ptr} {n : ℕ}
    (h : n + ([u].filter isNode).length < 2 ^ 31) :
    push (ptr u) q n t =
      some ((q ++ ([u].filter isNode).map ptr, n + ([u].filter isNode).length), t) := by
  cases u with
  | leaf => simp [push, ptr, isNode, pure_apply]
  | node =>
    have hlt : n + 1 < 2 ^ 31 := by simpa [List.filter_cons, isNode] using h
    rw [push, increment, if_pos hlt]
    simp [ptr, List.filter_cons, isNode, pure_apply]

lemma visitLayer_spec {ts : List (ColorTree ℕ)} {q : List Ptr} {n : ℕ}
    (hts : ∀ u ∈ ts, u.isNode = true ∧ ∃ p, Linked t.graph p u)
    (hbound : n + (ts.flatMap branches).length < 2 ^ 31) :
    visitLayer ts.length (ts.map ptr ++ q) n t =
      some ((ts.flatMap fun u => ((t.values u).layer 0).flatMap nodeLines,
        q ++ (ts.flatMap branches).map ptr, n + (ts.flatMap branches).length), t) := by
  induction ts generalizing q n with
  | nil => simp [visitLayer, pure_apply]
  | cons u ts ih =>
    obtain ⟨hu, p, hlinked⟩ := hts u List.mem_cons_self
    cases u with
    | leaf => cases hu
    | node d l a r =>
      obtain ⟨hn, _, _⟩ := hlinked
      have hbranches : (node d l a r).branches = [l].filter isNode ++ [r].filter isNode := by
        rw [branches, ← List.filter_append]
        rfl
      rw [List.flatMap_cons, List.length_append, hbranches, List.length_append] at hbound
      have ih := fun q' n' hb => ih (q := q') (n := n')
        (fun v hv => hts v (List.mem_cons_of_mem _ hv)) hb
      rw [List.length_cons, List.map_cons, List.cons_append, ptr, visitLayer]
      apply Yields.run_eq
      apply Yields.step (printNode_run hn)
      apply Yields.step (getChild_run .left hn)
      apply Yields.step (push_run (u := l) (by omega))
      apply Yields.step (getChild_run .right hn)
      apply Yields.step (push_run (u := r) (by omega))
      rw [List.append_assoc, List.append_assoc]
      apply Yields.step (ih _ _ (by omega))
      apply Yields.pure
      simp [hbranches, LinkedTree.values, map, layer, nodeLines]
      omega

lemma layer_lines (u : ColorTree ℕ) (k : ℕ) :
    (u.branches.flatMap fun v => ((t.values v).layer k).flatMap nodeLines) =
      ((t.values u).layer (k + 1)).flatMap nodeLines := by
  rw [LinkedTree.values, layer_map, ← layer_branches, List.map_flatMap, List.flatMap_assoc]
  simp only [LinkedTree.values, layer_map]

lemma visitLayers_spec {ts : List (ColorTree ℕ)} {fuel k : ℕ}
    (hts : ∀ u ∈ ts, u.isNode = true ∧ ∃ p, Linked t.graph p u)
    (hbound : forestSize ts < 2 ^ 31) (hfuel : forestHeight ts < fuel) :
    visitLayers fuel k ts.length (ts.map ptr) t =
      some ((List.range (forestHeight ts)).flatMap fun j => .layer (k + j) ::
        ts.flatMap fun u => ((t.values u).layer j).flatMap nodeLines, t) := by
  induction fuel generalizing ts k with
  | zero => cases hfuel
  | succ fuel ih =>
    cases ts with
    | nil => rfl
    | cons u us =>
      have hpos := forestHeight_pos (hts u List.mem_cons_self).1 us
      have hne : (u :: us).map ptr ≠ [] := by simp
      generalize u :: us = ts at *
      have hsize := forestSize_flatMap ts
      have hheight := forestHeight_flatMap ts
      have hnodes : ∀ v ∈ ts.flatMap branches, v.isNode = true ∧ ∃ p, Linked t.graph p v := by
        intro v hv
        obtain ⟨w, hw, hv⟩ := List.mem_flatMap.mp hv
        obtain ⟨_, p, hp⟩ := hts w hw
        exact ⟨isNode_of_mem_branches hv, linked_branches hp hv⟩
      have hlength := length_le_forestSize fun v hv => (hnodes v hv).1
      have hlayer := visitLayer_spec (q := []) (n := 0) hts (by omega)
      rw [List.append_nil, List.nil_append, Nat.zero_add] at hlayer
      have hrest := ih (k := k + 1) hnodes (by omega) (by omega)
      rw [visitLayers, if_neg hne]
      apply Yields.run_eq
      apply Yields.step hlayer
      apply Yields.step hrest
      refine Yields.pure ⟨?_, rfl⟩
      obtain ⟨n, hn⟩ := Nat.exists_eq_add_of_lt hpos
      rw [hn, hheight, hn, List.range_succ_eq_map, List.flatMap_cons, List.flatMap_map]
      simp only [List.flatMap_assoc, layer_lines]
      simp [Nat.add_assoc, Nat.add_comm 1]

end Visits

section Reading

variable {c d : ColorTree T} {xs ys : List (Line T)} {turn : Line T}

def branchLines (turn : Line T) (c : ColorTree T) : List (Line T) :=
  if c.isNode then turn :: transcript c else []

lemma transcript_node (e : Color) (l : ColorTree T) (a : T) (r : ColorTree T) :
    transcript (.node e l a r) =
      .data a :: .color e ::
        (branchLines .turnLeft l ++ branchLines .turnRight r ++ [.goBack]) := by
  simp [transcript, branchLines]

lemma head_branchLines {l : Line T} (ht : turn ≠ l) (hx : xs.head? ≠ some l) :
    (branchLines turn c ++ xs).head? ≠ some l := by
  rw [branchLines]
  split_ifs
  · simpa using ht
  · simpa using hx

lemma branchLines_inj
    (ih : ∀ {zs ws}, c.isNode = true → d.isNode = true → transcript c ++ zs = transcript d ++ ws →
      c = d ∧ zs = ws)
    (hx : xs.head? ≠ some turn) (hy : ys.head? ≠ some turn)
    (h : branchLines turn c ++ xs = branchLines turn d ++ ys) : c = d ∧ xs = ys := by
  rw [branchLines, branchLines] at h
  split_ifs at h with hc hd hd
  · exact ih hc hd (List.cons.inj h).2
  · exact absurd (congrArg List.head? h).symm hy
  · exact absurd (congrArg List.head? h) hx
  · cases c with
    | leaf =>
      cases d with
      | leaf => exact ⟨rfl, h⟩
      | node => exact absurd rfl hd
    | node => exact absurd rfl hc

/-- The lines are read from the front: a line that turns opens a branch, and `goBack` closes it. -/
lemma transcript_inj (hc : c.isNode = true) (hd : d.isNode = true)
    (h : transcript c ++ xs = transcript d ++ ys) : c = d ∧ xs = ys := by
  induction c generalizing d xs ys with
  | leaf => cases hc
  | node e l a r ihl ihr =>
    cases d with
    | leaf => cases hd
    | node e' l' a' r' =>
      rw [transcript_node, transcript_node] at h
      simp only [List.cons_append, List.append_assoc, List.nil_append, List.cons.injEq,
        Line.data.injEq, Line.color.injEq] at h
      obtain ⟨rfl, rfl, h⟩ := h
      have hleft : l = l' ∧ branchLines .turnRight r ++ .goBack :: xs =
          branchLines .turnRight r' ++ .goBack :: ys := by
        refine branchLines_inj (fun {_ _} => ihl) ?_ ?_ h
        · exact head_branchLines (by simp) (by simp)
        · exact head_branchLines (by simp) (by simp)
      have hright : r = r' ∧ Line.goBack :: xs = .goBack :: ys :=
        branchLines_inj (fun {_ _} => ihr) (by simp) (by simp) hleft.2
      rw [hleft.1, hright.1]
      exact ⟨rfl, (List.cons.inj hright.2).2⟩

lemma eq_of_transcript_eq (h : transcript c = transcript d) : c = d := by
  cases c with
  | leaf =>
    cases d with
    | leaf => rfl
    | node => simp [transcript] at h
  | node =>
    cases d with
    | leaf => simp [transcript] at h
    | node => exact (transcript_inj rfl rfl (congrArg (· ++ []) h)).1

lemma printed_branchLines (ht : ∀ v, turn ≠ .data v) :
    printed (branchLines turn c) = printed (transcript c) := by
  rw [branchLines]
  split_ifs with hc
  · cases turn with
    | data v => exact absurd rfl (ht v)
    | _ => rfl
  · cases c with
    | leaf => rfl
    | node => exact absurd rfl hc

lemma printed_append (xs ys : List (Line T)) : printed (xs ++ ys) = printed xs ++ printed ys :=
  List.filterMap_append

lemma printed_transcript (c : ColorTree T) : printed (transcript c) = c.preorder.map Prod.snd := by
  induction c with
  | leaf => rfl
  | node e l a r ihl ihr =>
    have hdata : ∀ xs, printed (.data a :: .color e :: xs : List (Line T)) = a :: printed xs :=
      fun _ => rfl
    rw [transcript_node, hdata, printed_append, printed_append, printed_branchLines (by simp),
      printed_branchLines (by simp), ihl, ihr]
    simp [preorder, printed]

lemma printed_layers (c : ColorTree T) :
    printed ((List.range c.height).flatMap (layerLines c)) =
      ((List.range c.height).flatMap fun k => c.layer k).map Prod.snd := by
  induction List.range c.height with
  | nil => rfl
  | cons k ks ih =>
    have hlayer : printed (layerLines c k) = (c.layer k).map Prod.snd := by
      change printed ((c.layer k).flatMap nodeLines) = _
      induction c.layer k with
      | nil => rfl
      | cons n ns ih => rw [List.flatMap_cons, printed_append, ih]; rfl
    rw [List.flatMap_cons, printed_append, hlayer, ih, List.flatMap_cons, List.map_append]

end Reading

section Results

variable [LinearOrder κ] {o : KeyOrder T κ} {t : LinkedTree T} {c : ColorTree ℕ}

/-- What the visit layer by layer prints of a tree. -/
def layeredLines (c : ColorTree T) : List (Line T) :=
  if c.size = 0 then [.emptyTree]
  else .nodeCount (UInt32.ofNat c.size) :: (List.range c.height).flatMap (layerLines c)

lemma Holds.linked (h : Holds o t c) : Linked t.graph .sentinel c := h.isSearchTree.linked

lemma Holds.root (h : Holds o t c) : t.graph.root = ptr c := h.isSearchTree.root

lemma recursiveVisit_spec (h : Holds o t c) :
    recursiveVisit t.graph.root t = some (transcript (t.values c), t) := by
  rw [h.root, recursiveVisit]
  have hvisit := visitFrom_spec h.linked h.height_lt
  exact Yields.run_eq (Yields.step rfl (Yields.of_eq hvisit ⟨rfl, rfl⟩))

lemma nonRecursiveVisit_spec (h : Holds o t c) (hsize : c.size < 2 ^ 31) :
    nonRecursiveVisit t = some (layeredLines (t.values c), t) := by
  have hcount : t.nodeCount = 0 ↔ c.size = 0 := by
    rw [h.count, ← UInt32.toNat_inj, UInt32.toNat_ofNat', Nat.mod_eq_of_lt (by omega)]
    rfl
  rw [nonRecursiveVisit, layeredLines, LinkedTree.values, size_map, height_map]
  apply Yields.run_eq
  apply Yields.step rfl
  by_cases hz : c.size = 0
  · rw [if_pos (hcount.mpr hz), if_pos hz]
    exact Yields.pure ⟨rfl, rfl⟩
  · rw [if_neg (mt hcount.mp hz), if_neg hz]
    have hc : c.isNode = true := by
      cases c with
      | leaf => exact absurd rfl hz
      | node => rfl
    have hpush := push_run (t := t) (u := c) (q := []) (n := 0) (by simp [hc])
    have hsingle : [c].filter isNode = [c] := by simp [hc]
    rw [hsingle] at hpush
    have hvisit : visitLayers (t.next + 1) 0 [c].length ([c].map ptr) t = some _ :=
      visitLayers_spec (by simpa [hc] using ⟨_, h.linked⟩) (by simpa [forestSize] using hsize)
        (by simpa [forestHeight] using h.height_lt)
    have hroot : getRoot t.graph = some (ptr c, t.graph) := by rw [getRoot, h.root]
    apply Yields.step (onGraph_run hroot)
    apply Yields.step hpush
    apply Yields.step rfl
    apply Yields.step hvisit
    refine Yields.pure ⟨?_, rfl⟩
    simp [h.count, forestHeight, LinkedTree.values]
    rfl

lemma values_preorder_perm (t : LinkedTree T) (c : ColorTree ℕ) :
    ((t.values c).preorder.map Prod.snd).Perm (elements t c) := by
  rw [LinkedTree.values, preorder_map, List.map_map, elements]
  have hperm := (preorder_perm c).map fun a => t.data (.node a)
  rwa [List.map_map] at hperm

lemma printed_layeredLines (c : ColorTree T) :
    (printed (layeredLines c)).Perm (c.preorder.map Prod.snd) := by
  rw [layeredLines]
  split_ifs with hz
  · cases c with
    | leaf => exact List.Perm.refl _
    | node => exact absurd hz (Nat.succ_ne_zero _)
  · have hlayers := (layers_perm (le_refl c.height)).map Prod.snd
    rwa [← printed_layers] at hlayers

/-- `RecursiveVisit` prints every element once, and the lines that it prints of two trees are the
same only if the trees are, with their colours. -/
theorem recursive_visit_determines [Inhabited T] (o : KeyOrder T κ) (ps qs : List (Operation T)) :
    Yields (runAll o ps) create fun _ t => Yields (runAll o qs) create fun _ t' =>
      ∃ c c' lines lines', IsSearchTree o t c ∧ IsSearchTree o t' c' ∧
        recursiveVisit t.graph.root t = some (lines, t) ∧
        recursiveVisit t'.graph.root t' = some (lines', t') ∧
        (printed lines).Perm (elements t c) ∧ (lines = lines' ↔ t.values c = t'.values c') := by
  apply (runAll_holds ps create_holds).mono
  rintro _ t ⟨c, h⟩
  apply (runAll_holds qs create_holds).mono
  rintro _ t' ⟨c', h'⟩
  refine ⟨c, c', _, _, h.isSearchTree, h'.isSearchTree, recursiveVisit_spec h,
    recursiveVisit_spec h', ?_, eq_of_transcript_eq, congrArg _⟩
  rw [printed_transcript]
  exact values_preorder_perm t c

/-- `NonRecursiveVisit` prints every element once, one layer after the other. The first half of the
layers have all the nodes that they have room for. -/
theorem layered_visit_complete [Inhabited T] (o : KeyOrder T κ) (ps : List (Operation T)) :
    Yields (runAll o ps) create fun _ t => ∃ c, IsSearchTree o t c ∧ (c.size < 2 ^ 31 →
      nonRecursiveVisit t = some (layeredLines (t.values c), t) ∧
        (printed (layeredLines (t.values c))).Perm (elements t c)) ∧
        ∃ n, c.height ≤ 2 * n ∧ ∀ k < n, ((t.values c).layer k).length = 2 ^ k := by
  apply (runAll_holds ps create_holds).mono
  rintro _ t ⟨c, h⟩
  obtain ⟨hblack, hred, n, hn⟩ := h.redBlack
  refine ⟨c, h.isSearchTree, fun hsize => ⟨nonRecursiveVisit_spec h hsize, ?_⟩, n, ?_,
    fun k hk => ?_⟩
  · exact (printed_layeredLines _).trans (values_preorder_perm t c)
  · simpa [hblack, Color.weight] using height_le hred hn
  · rw [LinkedTree.values, layer_map, List.length_map]
    exact length_layer hn hk

end Results

end Xty.RbTree
