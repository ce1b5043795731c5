import Xty.General.RedBlack.Balance

/-! A tree read from its root down, layer by layer or branch by branch. -/

namespace Xty.General.RedBlack

namespace ColorTree

variable {α β : Type}

def map (f : α → β) : ColorTree α → ColorTree β
  | leaf => leaf
  | node c l a r => node c (map f l) (f a) (map f r)

def isNode : ColorTree α → Bool
  | leaf => false
  | node .. => true

def preorder : ColorTree α → List (Color × α)
  | leaf => []
  | node c l a r => (c, a) :: (preorder l ++ preorder r)

def layer : ℕ → ColorTree α → List (Color × α)
  | _, leaf => []
  | 0, node c _ a _ => [(c, a)]
  | n + 1, node _ l _ r => layer n l ++ layer n r

def branches : ColorTree α → List (ColorTree α)
  | leaf => []
  | node _ l _ r => [l, r].filter isNode

def forestHeight (ts : List (ColorTree α)) : ℕ := (ts.map height).foldr max 0

section Layers

variable {t : ColorTree α} {ts : List (ColorTree α)} {n : ℕ}

@[simp] lemma layer_leaf (n : ℕ) : (leaf : ColorTree α).layer n = [] := by cases n <;> rfl

lemma layer_branches (n : ℕ) (t : ColorTree α) :
    t.branches.flatMap (layer n) = t.layer (n + 1) := by
  cases t with
  | leaf => simp [branches]
  | node c l a r => cases l <;> cases r <;> simp [branches, List.filter_cons, isNode, layer]

lemma isNode_of_mem_branches {u : ColorTree α} (h : u ∈ t.branches) : u.isNode = true := by
  cases t with
  | leaf => simp [branches] at h
  | node c l a r => exact (List.mem_filter.mp h).2

@[simp] lemma forestHeight_cons (t : ColorTree α) (ts : List (ColorTree α)) :
    forestHeight (t :: ts) = max t.height (forestHeight ts) := rfl

@[simp] lemma forestHeight_append (ts us : List (ColorTree α)) :
    forestHeight (ts ++ us) = max (forestHeight ts) (forestHeight us) := by
  induction ts with
  | nil => simp [forestHeight]
  | cons t ts ih => simp [ih, max_assoc]

lemma forestHeight_branches (t : ColorTree α) : forestHeight t.branches = t.height - 1 := by
  cases t with
  | leaf => rfl
  | node c l a r =>
    cases l <;> cases r <;> simp [branches, List.filter_cons, isNode, height, forestHeight]

lemma forestHeight_flatMap (ts : List (ColorTree α)) :
    forestHeight (ts.flatMap branches) = forestHeight ts - 1 := by
  induction ts with
  | nil => rfl
  | cons t ts ih =>
    rw [List.flatMap_cons, forestHeight_append, forestHeight_branches, ih, forestHeight_cons]
    omega

lemma forestHeight_pos (h : t.isNode = true) (ts : List (ColorTree α)) :
    0 < forestHeight (t :: ts) := by
  cases t with
  | leaf => cases h
  | node c l a r => simp [height]

def forestSize (ts : List (ColorTree α)) : ℕ := (ts.map size).sum

lemma forestSize_branches (t : ColorTree α) : forestSize t.branches ≤ t.size := by
  cases t with
  | leaf => exact le_rfl
  | node c l a r =>
    cases l <;> cases r <;>
      simp [branches, List.filter_cons, isNode, forestSize, size, Nat.add_assoc]

lemma forestSize_flatMap (ts : List (ColorTree α)) :
    forestSize (ts.flatMap branches) ≤ forestSize ts := by
  induction ts with
  | nil => exact le_rfl
  | cons t ts ih =>
    have ht := forestSize_branches t
    simp only [forestSize, List.flatMap_cons, List.map_append, List.sum_append, List.map_cons,
      List.sum_cons] at ht ih ⊢
    omega

lemma length_le_forestSize (h : ∀ t ∈ ts, t.isNode = true) : ts.length ≤ forestSize ts := by
  induction ts with
  | nil => exact le_rfl
  | cons t ts ih =>
    have hts := ih fun u hu => h u (List.mem_cons_of_mem t hu)
    have ht := h t List.mem_cons_self
    cases t with
    | leaf => cases ht
    | node c l a r =>
      simp only [forestSize, List.map_cons, List.sum_cons, List.length_cons, size] at hts ⊢
      omega

lemma layer_map (f : α → β) (n : ℕ) (t : ColorTree α) :
    (t.map f).layer n = (t.layer n).map fun x => (x.1, f x.2) := by
  induction t generalizing n with
  | leaf => simp [map]
  | node c l a r ihl ihr => cases n <;> simp [map, layer, ihl, ihr]

lemma preorder_map (f : α → β) (t : ColorTree α) :
    (t.map f).preorder = t.preorder.map fun x => (x.1, f x.2) := by
  induction t with
  | leaf => rfl
  | node c l a r ihl ihr => simp [map, preorder, ihl, ihr]

lemma height_map (f : α → β) (t : ColorTree α) : (t.map f).height = t.height := by
  induction t with
  | leaf => rfl
  | node c l a r ihl ihr => simp [map, height, ihl, ihr]

lemma size_map (f : α → β) (t : ColorTree α) : (t.map f).size = t.size := by
  induction t with
  | leaf => rfl
  | node c l a r ihl ihr => simp [map, size, ihl, ihr]

lemma layers_perm (h : t.height ≤ n) :
    ((List.range n).flatMap fun k => t.layer k).Perm t.preorder := by
  induction t generalizing n with
  | leaf => simp [preorder]
  | node c l a r ihl ihr =>
    obtain _ | n := n
    · simp [height] at h
    rw [height, Nat.succ_le_succ_iff, max_le_iff] at h
    rw [List.range_succ_eq_map, List.flatMap_cons, List.flatMap_map, preorder]
    refine List.Perm.cons _ ?_
    exact (List.flatMap_append_perm _ _ _).symm.trans ((ihl h.1).append (ihr h.2))

lemma preorder_perm (t : ColorTree α) : (t.preorder.map Prod.snd).Perm t.inorder := by
  induction t with
  | leaf => exact List.Perm.refl _
  | node c l a r ihl ihr =>
    rw [preorder, inorder, List.map_cons, List.map_append]
    exact ((ihl.append ihr).cons a).trans List.perm_middle.symm

/-- The layers above the black height have all the nodes that they have room for. -/
lemma length_layer (h : BlackHeight t n) {k : ℕ} (hk : k < n) : (t.layer k).length = 2 ^ k := by
  induction t generalizing n k with
  | leaf =>
    rw [h] at hk
    cases hk
  | node c l a r ihl ihr =>
    obtain ⟨m, rfl, hl, hr⟩ := h
    cases k with
    | zero => rfl
    | succ k =>
      have hkm : k < m := by
        have hc : c.weight ≤ 1 := by cases c <;> simp [Color.weight]
        omega
      rw [layer, List.length_append, ihl hl hkm, ihr hr hkm, pow_succ]
      omega

end Layers

end ColorTree

end Xty.General.RedBlack
