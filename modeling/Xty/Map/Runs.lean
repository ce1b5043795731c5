import Xty.Map.Refinement

/-! Sequences of calls on an `xtyMap`, and on the partial function that it stands for. -/

namespace Xty.Map

open Xty.General.Programs Xty.General.RedBlack Xty.RbTree

variable {K V : Type} [LinearOrder K] [Inhabited V] [BEq V]

inductive Operation (K V : Type) where
  | insertKey (k : K)
  | insertPair (k : K) (v : V)
  | read (k : K)
  | write (k : K) (v : V)
  | deleteKey (k : K)
  | deletePair (k : K) (v : V)
  | clear
deriving DecidableEq, Repr

namespace Operation

/-- The call, and the value that the pointer or reference it returns leads to. -/
def run : Operation K V → MapProgram K V (Option V)
  | .insertKey k => do return some (← getValue (← Map.insertKey k))
  | .insertPair k v => do return some (← getValue (← Map.insertPair k v))
  | .read k => do return some (← getValue (← index k))
  | .write k v => do
    setValue (← index k) v
    return none
  | .deleteKey k => do
    Map.deleteKey k
    return none
  | .deletePair k v => do
    Map.deletePair k v
    return none
  | .clear => do
    Map.clear
    return none

def apply (f : Binding K V) : Operation K V → Binding K V
  | .insertKey k => Function.update f k (some ((f k).getD default))
  | .insertPair k v => Function.update f k (some v)
  | .read k => Function.update f k (some ((f k).getD default))
  | .write k v => Function.update f k (some v)
  | .deleteKey k => Function.update f k none
  | .deletePair k v => f.deletePair k v
  | .clear => fun _ => none

def result (f : Binding K V) : Operation K V → Option V
  | .insertKey k => some ((f k).getD default)
  | .insertPair _ v => some v
  | .read k => some ((f k).getD default)
  | _ => none

lemma run_spec {t : LinkedTree (MapNode K V)} {c : ColorTree ℕ} {f : Binding K V}
    (p : Operation K V) (h : Binds t c f) :
    Yields p.run t fun r t' => r = p.result f ∧ ∃ c', Binds t' c' (p.apply f) := by
  cases p with
  | insertKey k =>
    apply (insertKey_spec h k).bind
    rintro q t' ⟨c', h', hq⟩
    exact Yields.step (getValue_run h' hq) (Yields.pure ⟨rfl, c', h'⟩)
  | insertPair k v =>
    apply (insertPair_spec h k v).bind
    rintro q t' ⟨c', h', hq⟩
    exact Yields.step (getValue_run h' hq) (Yields.pure ⟨rfl, c', h'⟩)
  | read k =>
    apply (index_spec h k).bind
    rintro q t' ⟨c', h', hq⟩
    exact Yields.step (getValue_run h' hq) (Yields.pure ⟨rfl, c', h'⟩)
  | write k v =>
    apply (index_spec h k).bind
    rintro q t1 ⟨c1, h1, hq⟩
    apply (setValue_spec h1 hq v).bind
    rintro _ t2 ⟨h2, _⟩
    rw [Function.update_idem] at h2
    exact Yields.pure ⟨rfl, c1, h2⟩
  | deleteKey k => exact (deleteKey_spec h k).bind fun _ t' h' => Yields.pure ⟨rfl, h'⟩
  | deletePair k v => exact (deletePair_spec h k v).bind fun _ t' h' => Yields.pure ⟨rfl, h'⟩
  | clear => exact (clear_spec h).bind fun _ t' h' => Yields.pure ⟨rfl, .leaf, h'⟩

end Operation

def runAll : List (Operation K V) → MapProgram K V (List (Option V))
  | [] => return []
  | p :: ps => do
    let r ← p.run
    return r :: (← runAll ps)

def applyAll (f : Binding K V) (ps : List (Operation K V)) : Binding K V :=
  ps.foldl Operation.apply f

def results (f : Binding K V) : List (Operation K V) → List (Option V)
  | [] => []
  | p :: ps => p.result f :: results (p.apply f) ps

structure Represents (t : LinkedTree (MapNode K V)) (f : Binding K V) : Prop where
  searchKey : ∀ k, Yields (searchKey k) t fun p t' => t' = t ∧
    match f k with
    | none => p = .null
    | some v => p ≠ .null ∧ t.data p = ⟨k, v⟩
  searchPair : ∀ k v, Yields (searchPair k v) t fun p t' => t' = t ∧
    (p ≠ .null ↔ ∃ w, f k = some w ∧ (v == w) = true)
  finite : {k | f k ≠ none}.Finite
  size : Yields size t fun n t' => t' = t ∧ n.toNat = {k | f k ≠ none}.ncard % 2 ^ 32

section

variable {t : LinkedTree (MapNode K V)} {c : ColorTree ℕ} {f : Binding K V}

lemma Binds.represents (h : Binds t c f) : Represents t f := by
  refine ⟨fun k => ?_, searchPair_spec h, ?_, ?_⟩
  · apply (searchKey_spec h k).mono
    rintro p t' ⟨ht, ⟨v, hv, hp⟩ | ⟨hn, hp⟩⟩
    · rw [hv]
      obtain ⟨_, _, _, hd⟩ := id hp
      exact ⟨ht, hp.ne_null, hd⟩
    · rw [hn]
      exact ⟨ht, hp⟩
  · rw [h.domain]
    exact Finset.finite_toSet _
  · refine Yields.of_eq rfl ⟨rfl, ?_⟩
    rw [UInt32.toNat_toUInt64, h.holds.count, UInt32.toNat_ofNat', h.ncard]

lemma runAll_spec (ps : List (Operation K V)) (h : Binds t c f) :
    Yields (runAll ps) t fun rs t' => rs = results f ps ∧ ∃ c', Binds t' c' (applyAll f ps) := by
  induction ps generalizing t c f with
  | nil => exact Yields.pure ⟨rfl, c, h⟩
  | cons p ps ih =>
    apply (p.run_spec h).bind
    rintro r t1 ⟨rfl, c1, h1⟩
    apply (ih h1).bind
    rintro rs t2 ⟨rfl, h2⟩
    exact Yields.pure ⟨rfl, h2⟩

/-- A map behaves as a partial function, up to the width of its counter. -/
theorem runAll_represents [Inhabited K] (ps : List (Operation K V)) :
    Yields (runAll ps) create fun rs t =>
      rs = results (fun _ => none) ps ∧ Represents t (applyAll (fun _ => none) ps) := by
  apply (runAll_spec ps create_binds).mono
  rintro rs t ⟨hr, c, h⟩
  exact ⟨hr, h.represents⟩

end

section Counter

variable (V) in
lemma applyAll_range (n : ℕ) : applyAll (fun _ => none)
    ((List.range n).map (Operation.insertKey (V := V))) =
      fun k => if k < n then some default else none := by
  induction n with
  | zero => rfl
  | succ n ih =>
    funext k
    rw [List.range_succ, List.map_append, applyAll, List.foldl_append]
    rw [applyAll] at ih
    rw [ih, List.map_singleton, List.foldl_cons, List.foldl_nil, Operation.apply,
      Function.update_apply, if_neg (lt_irrefl n), Option.getD_none]
    by_cases hk : k = n
    · rw [if_pos hk, if_pos (by omega)]
    · rw [if_neg hk]
      exact if_congr (by omega) rfl rfl

lemma ncard_range (n : ℕ) :
    {k | (if k < n then some (default : ℕ) else none) ≠ none}.ncard = n := by
  have hset : {k | (if k < n then some (default : ℕ) else none) ≠ none}
      = (Finset.range n : Set ℕ) := by
    ext k
    simp
  rw [hset, Set.ncard_coe_finset, Finset.card_range]

lemma insert_range (n : ℕ) :
    Yields (runAll ((List.range n).map Operation.insertKey))
      (create : LinkedTree (MapNode ℕ ℕ)) fun _ t =>
      (∀ k < n, Yields (searchKey k) t fun p _ => p ≠ .null) ∧
        Yields size t fun m _ => m.toNat = n % 2 ^ 32 := by
  apply (runAll_spec _ create_binds).mono
  rintro _ t ⟨_, c, h⟩
  have hr := h.represents
  rw [applyAll_range] at hr
  refine ⟨fun k hk => (hr.searchKey k).mono ?_, hr.size.mono ?_⟩
  · rintro p t' ⟨_, hp⟩
    rw [if_pos hk] at hp
    exact hp.1
  · rintro m t' ⟨_, hm⟩
    rw [hm, ncard_range]

theorem size_wraps :
    Yields (runAll ((List.range (2 ^ 32)).map Operation.insertKey))
      (create : LinkedTree (MapNode ℕ ℕ)) fun _ t =>
      (∀ k < 2 ^ 32, Yields (searchKey k) t fun p _ => p ≠ .null) ∧
        Yields size t fun m _ => m = 0 := by
  refine (insert_range (2 ^ 32)).mono fun _ t h => ⟨h.1, h.2.mono fun m _ hm => ?_⟩
  rw [Nat.mod_self] at hm
  exact UInt64.toNat_inj.mp hm

end Counter

end Xty.Map
