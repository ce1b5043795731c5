import Xty.Map.Operations
import Xty.RbTree.Elements

/-! `xtyMap` refines a partial function from keys to values. -/

namespace Xty.Map

open Xty.General.Programs Xty.General.RedBlack Xty.RbTree

variable {K V : Type}

abbrev Binding (K V : Type) := K → Option V

def PointsTo (t : LinkedTree (MapNode K V)) (c : ColorTree ℕ) (p : Ptr) (n : MapNode K V) : Prop :=
  ∃ a ∈ c.inorder, p = .node a ∧ t.data p = n

lemma PointsTo.ne_null {t : LinkedTree (MapNode K V)} {c : ColorTree ℕ} {p : Ptr}
    {n : MapNode K V} (h : PointsTo t c p n) : p ≠ .null := by
  obtain ⟨a, _, rfl, _⟩ := h
  simp

variable [LinearOrder K]

structure Binds (t : LinkedTree (MapNode K V)) (c : ColorTree ℕ) (f : Binding K V) : Prop where
  holds : Holds nodeOrder t c
  bound : ∀ k v, f k = some v ↔ ∃ a ∈ c.inorder, t.data (.node a) = ⟨k, v⟩

section Lookup

variable {t : LinkedTree (MapNode K V)} {c : ColorTree ℕ} {f : Binding K V} {a : ℕ}

lemma keyAt_eq : t.keyAt nodeOrder a = (t.data (.node a)).key := rfl

lemma Binds.of_mem (h : Binds t c f) (ha : a ∈ c.inorder) :
    f (t.data (.node a)).key = some (t.data (.node a)).value :=
  (h.bound _ _).mpr ⟨a, ha, rfl⟩

lemma Binds.eq_none (h : Binds t c f) {k : K} :
    f k = none ↔ ∀ a ∈ c.inorder, (t.data (.node a)).key ≠ k := by
  constructor
  · rintro hn a ha rfl
    rw [h.of_mem ha] at hn
    cases hn
  · intro hne
    rw [Option.eq_none_iff_forall_ne_some]
    intro v hv
    obtain ⟨a, ha, hd⟩ := (h.bound k v).mp hv
    exact hne a ha (by rw [hd])

lemma PointsTo.data_run {p : Ptr} {n : MapNode K V} (hb : Binds t c f) (h : PointsTo t c p n) :
    getData p t = some (n, t) := by
  obtain ⟨a, ha, rfl, rfl⟩ := h
  obtain ⟨k, hk⟩ := hb.holds.live ha
  exact getData_run hk

lemma Binds.domain (h : Binds t c f) :
    {k | f k ≠ none} = ((c.inorder.map (t.keyAt nodeOrder)).toFinset : Set K) := by
  ext k
  rw [Set.mem_ofPred_eq, Ne, h.eq_none]
  simp [keyAt_eq]

lemma Binds.ncard (h : Binds t c f) : {k | f k ≠ none}.ncard = c.size := by
  have hn : (c.inorder.map (t.keyAt nodeOrder)).Nodup :=
    List.pairwise_map.mpr (h.holds.sorted.imp fun hlt => hlt.ne)
  rw [h.domain, Set.ncard_coe_finset, List.toFinset_card_of_nodup hn, List.length_map,
    ColorTree.length_inorder]

lemma create_binds [Inhabited K] [Inhabited V] :
    Binds (create : LinkedTree (MapNode K V)) .leaf fun _ => none :=
  ⟨create_holds, fun k v => by simp [ColorTree.inorder]⟩

end Lookup

section Keys

variable {t t' : LinkedTree (MapNode K V)} {c c' : ColorTree ℕ} {f : Binding K V} {k : K} {v : V}

lemma Binds.write {a : ℕ} (h : Binds t c f) (h' : Holds nodeOrder t' c')
    (hmem : ∀ b, b ∈ c'.inorder ↔ b = a ∨ b ∈ c.inorder)
    (hkey : ∀ b ∈ c.inorder, (t.data (.node b)).key = k ↔ b = a)
    (hnew : t'.data (.node a) = ⟨k, v⟩)
    (hold : ∀ b ∈ c.inorder, b ≠ a → t'.data (.node b) = t.data (.node b)) :
    Binds t' c' (Function.update f k (some v)) := by
  refine ⟨h', fun k' w => ?_⟩
  have ha : a ∈ c'.inorder := (hmem a).mpr (Or.inl rfl)
  rw [Function.update_apply]
  constructor
  · intro hw
    split_ifs at hw with he
    · obtain rfl := Option.some.inj hw
      exact ⟨a, ha, by rw [hnew, he]⟩
    · obtain ⟨b, hb, hd⟩ := (h.bound k' w).mp hw
      have hba : b ≠ a := by
        intro hba
        have hk := (hkey b hb).mpr hba
        rw [hd] at hk
        exact he hk
      exact ⟨b, (hmem b).mpr (Or.inr hb), (hold b hb hba).trans hd⟩
  · rintro ⟨b, hb, hd⟩
    by_cases hba : b = a
    · rw [hba, hnew] at hd
      cases hd
      rw [if_pos rfl]
    · have hb := ((hmem b).mp hb).resolve_left hba
      rw [hold b hb hba] at hd
      have hne : k' ≠ k := by
        rintro rfl
        exact hba ((hkey b hb).mp (by rw [hd]))
      rw [if_neg hne]
      exact (h.bound k' w).mpr ⟨b, hb, hd⟩

lemma setValue_holds {a : ℕ} (h : Holds nodeOrder t c) (ha : a ∈ c.inorder) (v : V) :
    Yields (setValue (.node a) v) t fun _ t' => Holds nodeOrder t' c ∧
      t'.data = Function.update t.data (.node a) { t.data (.node a) with value := v } := by
  obtain ⟨k, hk⟩ := h.live ha
  have hkey : ∀ b, (Function.update t.data (.node a) { t.data (.node a) with value := v }
      (.node b)).key = (t.data (.node b)).key := by
    intro b
    by_cases hb : b = a
    · rw [hb, Function.update_self]
    · rw [Function.update_of_ne (by simpa using hb)]
  rw [setValue]
  refine Yields.step (getData_run hk) (Yields.of_eq (setData_run hk _) ⟨?_, rfl⟩)
  exact ⟨h.shows, h.redBlack, sorted_congr h.sorted fun b _ => hkey b, h.allocated, h.count⟩

lemma setValue_spec {p : Ptr} {n : MapNode K V} (h : Binds t c f) (hp : PointsTo t c p n)
    (v : V) : Yields (setValue p v) t fun _ t' => Binds t' c (Function.update f n.key (some v)) ∧
      PointsTo t' c p ⟨n.key, v⟩ := by
  obtain ⟨a, ha, rfl, rfl⟩ := hp
  apply (setValue_holds h.holds ha v).mono
  rintro _ t' ⟨hh, hdata⟩
  have hnew : t'.data (.node a) = ⟨(t.data (.node a)).key, v⟩ := by
    rw [hdata, Function.update_self]
  have hold : ∀ b, b ≠ a → t'.data (.node b) = t.data (.node b) := fun b hb => by
    rw [hdata, Function.update_of_ne (by simpa using hb)]
  refine ⟨?_, a, ha, rfl, hnew⟩
  refine h.write hh (fun b => ?_) (fun b hb => ⟨fun he => ?_, fun he => he ▸ rfl⟩) hnew
    fun b _ => hold b
  · exact ⟨Or.inr, fun hb => hb.elim (fun he => he ▸ ha) id⟩
  · exact h.holds.sorted.eq_of_key hb ha he

lemma getValue_run {p : Ptr} {n : MapNode K V} (h : Binds t c f) (hp : PointsTo t c p n) :
    getValue p t = some (n.value, t) := by
  apply Yields.run_eq
  rw [getValue]
  exact Yields.step (hp.data_run h) (Yields.pure ⟨rfl, rfl⟩)

lemma clear_spec (h : Binds t c f) :
    Yields (clear : MapProgram K V Unit) t fun _ t' => Binds t' .leaf fun _ => none := by
  refine (RbTree.clear_spec h.holds).mono fun _ t' h' => ⟨h'.1, fun k v => ?_⟩
  simp [ColorTree.inorder]

variable [Inhabited V]

lemma searchKey_spec (h : Binds t c f) (k : K) :
    Yields (searchKey k) t fun p t' => t' = t ∧
      ((∃ v, f k = some v ∧ PointsTo t c p ⟨k, v⟩) ∨ (f k = none ∧ p = .null)) := by
  apply (search_spec h.holds (keyNode k)).mono
  rintro p t' ⟨rfl, hp⟩
  obtain ⟨a, ha, rfl, hk⟩ | ⟨rfl, habs⟩ := hp.mem
  · obtain rfl : (t'.data (.node a)).key = k := hk
    exact ⟨rfl, Or.inl ⟨_, h.of_mem ha, a, ha, rfl, rfl⟩⟩
  · exact ⟨rfl, Or.inr ⟨h.eq_none.mpr habs, rfl⟩⟩

lemma insertKey_spec (h : Binds t c f) (k : K) :
    Yields (insertKey k) t fun p t' => ∃ c',
      Binds t' c' (Function.update f k (some ((f k).getD default))) ∧
      PointsTo t' c' p ⟨k, (f k).getD default⟩ := by
  apply (insert_spec h.holds (keyNode k)).mono
  rintro p t' ⟨c', h', ⟨rfl, rfl, a, ha, rfl, hk⟩ | ⟨habs, a, hna, rfl, hmem, hdata⟩, _⟩
  · obtain rfl : (t'.data (.node a)).key = k := hk
    have hf := h.of_mem ha
    rw [hf, Option.getD_some]
    refine ⟨_, ?_, a, ha, rfl, rfl⟩
    rwa [← hf, Function.update_eq_self]
  · have hne : ∀ b ∈ c.inorder, b ≠ a := fun b hb he => hna (he ▸ hb)
    have hnew : t'.data (.node a) = ⟨k, default⟩ := by
      rw [hdata, Function.update_self]
      rfl
    have hnone : f k = none := h.eq_none.mpr habs
    rw [hnone, Option.getD_none]
    refine ⟨c', h.write h' hmem (fun b hb => ?_) hnew fun b _ hb => ?_, a,
      (hmem a).mpr (Or.inl rfl), rfl, hnew⟩
    · exact iff_of_false (habs b hb) (hne b hb)
    · rw [hdata, Function.update_of_ne (by simpa using hb)]

lemma deleteKey_spec (h : Binds t c f) (k : K) :
    Yields (deleteKey k) t fun _ t' => ∃ c', Binds t' c' (Function.update f k none) := by
  apply (delete_spec h.holds (keyNode k)).mono
  rintro _ t' ⟨c', h', ⟨rfl, rfl, habs⟩ | ⟨a, ha, hk, hmem, hdata⟩, _⟩
  · have hnone : f k = none := h.eq_none.mpr habs
    refine ⟨c', ?_⟩
    rwa [← hnone, Function.update_eq_self]
  · refine ⟨c', h', ?_⟩
    intro k' w
    rw [Function.update_apply, hdata]
    constructor
    · intro hw
      split_ifs at hw with he
      obtain ⟨b, hb, hd⟩ := (h.bound k' w).mp hw
      refine ⟨b, (hmem b).mpr ⟨?_, hb⟩, hd⟩
      rintro rfl
      apply he
      rw [keyAt_eq, hd] at hk
      exact hk
    · rintro ⟨b, hb, hd⟩
      obtain ⟨hne, hb⟩ := (hmem b).mp hb
      have hk' : k' ≠ k := by
        rintro rfl
        refine hne (h.holds.sorted.eq_of_key hb ha ?_)
        rw [hk, keyAt_eq, hd]
        rfl
      rw [if_neg hk']
      exact (h.bound k' w).mpr ⟨b, hb, hd⟩

end Keys

section Pairs

variable {t : LinkedTree (MapNode K V)} {c : ColorTree ℕ} {f : Binding K V} [Inhabited V]

lemma insertPair_spec (h : Binds t c f) (k : K) (v : V) :
    Yields (insertPair k v) t fun p t' => ∃ c',
      Binds t' c' (Function.update f k (some v)) ∧ PointsTo t' c' p ⟨k, v⟩ := by
  rw [insertPair, insertNode]
  apply (insertKey_spec h k).bind
  rintro p t1 ⟨c1, h1, hp⟩
  rw [if_pos hp.ne_null]
  apply (setValue_spec h1 hp v).bind
  rintro _ t2 ⟨h2, hp2⟩
  rw [Function.update_idem] at h2
  exact Yields.pure ⟨c1, h2, hp2⟩

lemma index_spec (h : Binds t c f) (k : K) :
    Yields (index k) t fun p t' => ∃ c',
      Binds t' c' (Function.update f k (some ((f k).getD default))) ∧
      PointsTo t' c' p ⟨k, (f k).getD default⟩ := by
  rw [index]
  apply (searchKey_spec h k).bind
  rintro p t' ⟨rfl, ⟨v, hv, hp⟩ | ⟨hn, rfl⟩⟩
  · rw [if_pos hp.ne_null, hv, Option.getD_some]
    refine Yields.pure ⟨c, ?_, hp⟩
    rwa [← hv, Function.update_eq_self]
  · rw [if_neg fun hne => hne rfl]
    exact insertKey_spec h k

variable [BEq V]

lemma searchPair_spec (h : Binds t c f) (k : K) (v : V) :
    Yields (searchPair k v) t fun p t' => t' = t ∧
      (p ≠ .null ↔ ∃ w, f k = some w ∧ (v == w) = true) := by
  rw [searchPair, searchNode]
  apply (searchKey_spec h k).bind
  rintro p t' ⟨rfl, ⟨w, hw, hp⟩ | ⟨hn, rfl⟩⟩
  · rw [if_pos hp.ne_null]
    apply Yields.step (getValue_run h hp)
    by_cases hvw : (v == w) = true
    · rw [if_pos hvw]
      exact Yields.pure ⟨rfl, iff_of_true hp.ne_null ⟨w, hw, hvw⟩⟩
    · rw [if_neg hvw]
      refine Yields.pure ⟨rfl, iff_of_false (fun hne => hne rfl) ?_⟩
      rintro ⟨u, hu, hvu⟩
      rw [hw] at hu
      exact hvw (Option.some.inj hu ▸ hvu)
  · rw [if_neg fun hne => hne rfl]
    refine Yields.pure ⟨rfl, iff_of_false (fun hne => hne rfl) ?_⟩
    rintro ⟨u, hu, _⟩
    rw [hn] at hu
    cases hu

def Binding.deletePair (f : Binding K V) (k : K) (v : V) : Binding K V :=
  if (f k).any (v == ·) then Function.update f k none else f

lemma deletePair_spec (h : Binds t c f) (k : K) (v : V) :
    Yields (deletePair k v) t fun _ t' => ∃ c', Binds t' c' (f.deletePair k v) := by
  have hany : (f k).any (v == ·) = true ↔ ∃ w, f k = some w ∧ (v == w) = true :=
    Option.any_eq_true ..
  rw [deletePair, deleteNode]
  apply (searchPair_spec h k v).bind
  rintro p t' ⟨rfl, hp⟩
  rw [Binding.deletePair]
  by_cases hn : p ≠ .null
  · rw [if_pos hn, if_pos (hany.mpr (hp.mp hn))]
    exact deleteKey_spec h k
  · rw [if_neg hn, if_neg fun ha => hn (hp.mpr (hany.mp ha))]
    exact Yields.pure ⟨c, h⟩

end Pairs

end Xty.Map
