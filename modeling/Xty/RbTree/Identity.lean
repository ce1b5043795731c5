import Xty.RbTree.Runs

/-! Which node is which: a call about one value leaves every other node in the tree, with its
datum and at its address. -/

namespace Xty.RbTree

open Xty.General.Programs Xty.General.RedBlack Xty.General.Heap ColorTree

variable {T κ : Type} [LinearOrder κ] {o : KeyOrder T κ}

def Member (o : KeyOrder T κ) (t : LinkedTree T) (a : ℕ) : Prop :=
  ∃ c, IsSearchTree o t c ∧ a ∈ c.inorder

/-- Between two states, only nodes with the key `k` have come, gone or changed. -/
structure Undisturbed (o : KeyOrder T κ) (k : κ) (t t' : LinkedTree T) : Prop where
  kept : ∀ a, Member o t a → t.keyAt o a ≠ k →
    Member o t' a ∧ t'.data (.node a) = t.data (.node a)
  old : ∀ a, Member o t' a → t'.keyAt o a ≠ k → Member o t a ∧ t'.data (.node a) = t.data (.node a)
  search : ∀ v, o.key v ≠ k → ∃ q, search o v t = some (q, t) ∧ search o v t' = some (q, t')

structure InsertsOnly (o : KeyOrder T κ) (v : T) (t : LinkedTree T) (q : Ptr) (t' : LinkedTree T) :
    Prop where
  present : ∀ a, search o v t = some (.node a, t) → q = .node a ∧ t' = t
  absent : search o v t = some (.null, t) → ∃ a, q = .node a ∧ ¬ Member o t a ∧ t'.data q = v ∧
    ∀ b, Member o t' b ↔ b = a ∨ Member o t b
  others : Undisturbed o (o.key v) t t'

structure DeletesOnly (o : KeyOrder T κ) (v : T) (t t' : LinkedTree T) : Prop where
  present : ∀ a, search o v t = some (.node a, t) → Member o t a ∧
    (∀ b, Member o t' b ↔ b ≠ a ∧ Member o t b) ∧ t'.data = t.data
  absent : search o v t = some (.null, t) → t' = t
  others : Undisturbed o (o.key v) t t'

section

variable {t t' : LinkedTree T} {c c' : ColorTree ℕ} {k : κ} {v : T} {a : ℕ}

lemma Holds.member_iff (h : Holds o t c) : Member o t a ↔ a ∈ c.inorder := by
  constructor
  · rintro ⟨c', hc', ha⟩
    rwa [h.isSearchTree.unique hc']
  · exact fun ha => ⟨c, h.isSearchTree, ha⟩

lemma Holds.search_node (h : Holds o t c) (ha : a ∈ c.inorder) (hk : t.keyAt o a = o.key v) :
    search o v t = some (.node a, t) := by
  apply Yields.run_eq
  apply (search_spec h v).mono
  rintro q _ ⟨rfl, hq⟩
  obtain ⟨b, hb, rfl, hkb⟩ | ⟨_, habs⟩ := hq.mem
  · rw [h.sorted.eq_of_key ha hb (hk.trans hkb.symm)]
    exact ⟨rfl, rfl⟩
  · exact absurd hk (habs a ha)

lemma Holds.search_null (h : Holds o t c) (habs : ∀ a ∈ c.inorder, t.keyAt o a ≠ o.key v) :
    search o v t = some (.null, t) := by
  apply Yields.run_eq
  apply (search_spec h v).mono
  rintro q _ ⟨rfl, hq⟩
  obtain ⟨b, hb, rfl, hkb⟩ | ⟨rfl, _⟩ := hq.mem
  · exact absurd hkb (habs b hb)
  · exact ⟨rfl, rfl⟩

lemma Holds.search_cases (h : Holds o t c) (v : T) :
    (∃ a ∈ c.inorder, t.keyAt o a = o.key v ∧ search o v t = some (.node a, t)) ∨
      (∀ a ∈ c.inorder, t.keyAt o a ≠ o.key v) ∧ search o v t = some (.null, t) := by
  by_cases hv : ∃ a ∈ c.inorder, t.keyAt o a = o.key v
  · obtain ⟨a, ha, hk⟩ := hv
    exact Or.inl ⟨a, ha, hk, h.search_node ha hk⟩
  · simp only [not_exists, not_and] at hv
    exact Or.inr ⟨hv, h.search_null hv⟩

structure Touches (o : KeyOrder T κ) (k : κ) (t : LinkedTree T) (c : ColorTree ℕ)
    (t' : LinkedTree T) (c' : ColorTree ℕ) : Prop where
  holds : Holds o t' c'
  kept : ∀ a ∈ c.inorder, t.keyAt o a ≠ k → a ∈ c'.inorder ∧ t'.data (.node a) = t.data (.node a)
  old : ∀ a ∈ c'.inorder, t'.keyAt o a ≠ k → a ∈ c.inorder ∧ t'.data (.node a) = t.data (.node a)

lemma Touches.refl (h : Holds o t c) : Touches o k t c t c :=
  ⟨h, fun _ ha _ => ⟨ha, rfl⟩, fun _ ha _ => ⟨ha, rfl⟩⟩

lemma Touches.trans {t'' : LinkedTree T} {c'' : ColorTree ℕ} (h : Touches o k t c t' c')
    (h' : Touches o k t' c' t'' c'') : Touches o k t c t'' c'' := by
  refine ⟨h'.holds, ?_, ?_⟩
  · intro a ha hk
    obtain ⟨ha', hd⟩ := h.kept a ha hk
    have hk' : t'.keyAt o a ≠ k := by rwa [LinkedTree.keyAt, hd]
    obtain ⟨ha'', hd'⟩ := h'.kept a ha' hk'
    exact ⟨ha'', hd'.trans hd⟩
  · intro a ha hk
    obtain ⟨ha', hd'⟩ := h'.old a ha hk
    have hk' : t'.keyAt o a ≠ k := by rwa [LinkedTree.keyAt, ← hd']
    obtain ⟨ha'', hd⟩ := h.old a ha' hk'
    exact ⟨ha'', hd'.trans hd⟩

lemma Touches.undisturbed (h : Holds o t c) (ht : Touches o k t c t' c') :
    Undisturbed o k t t' := by
  refine ⟨?_, ?_, ?_⟩
  · intro a ha hk
    rw [ht.holds.member_iff]
    exact ht.kept a (h.member_iff.mp ha) hk
  · intro a ha hk
    rw [h.member_iff]
    exact ht.old a (ht.holds.member_iff.mp ha) hk
  · intro v hv
    obtain ⟨a, ha, hka, hs⟩ | ⟨habs, hs⟩ := h.search_cases v
    · obtain ⟨ha', hd⟩ := ht.kept a ha (hka ▸ hv)
      have hka' : t'.keyAt o a = o.key v := by rwa [LinkedTree.keyAt, hd]
      exact ⟨_, hs, ht.holds.search_node ha' hka'⟩
    · refine ⟨_, hs, ht.holds.search_null fun a ha hka => ?_⟩
      obtain ⟨ha', hd⟩ := ht.old a ha (hka ▸ hv)
      exact habs a ha' (by rwa [LinkedTree.keyAt, ← hd])

lemma insert_touches (h : Holds o t c) (v : T) :
    Yields (insert o v) t fun q t' => ∃ c', Inserted o v t c q t' c' ∧
      Touches o (o.key v) t c t' c' := by
  apply (insert_spec h v).mono
  rintro q t' ⟨c', h', hins, _⟩
  refine ⟨c', hins, ?_⟩
  obtain ⟨rfl, rfl, _⟩ | ⟨habs, a, hna, rfl, hmem, hdata⟩ := hins
  · exact Touches.refl h'
  have hold : ∀ b ∈ c.inorder, t'.data (.node b) = t.data (.node b) := by
    intro b hb
    have hba : b ≠ a := by
      rintro rfl
      exact hna hb
    rw [hdata, Function.update_of_ne (by simpa using hba)]
  refine ⟨h', fun b hb _ => ⟨(hmem b).mpr (Or.inr hb), hold b hb⟩, fun b hb hk => ?_⟩
  obtain rfl | hb := (hmem b).mp hb
  · rw [LinkedTree.keyAt, hdata, Function.update_self] at hk
    exact absurd rfl hk
  · exact ⟨hb, hold b hb⟩

lemma delete_touches (h : Holds o t c) (v : T) :
    Yields (delete o v) t fun _ t' => ∃ c', Deleted o v t c t' c' ∧
      Touches o (o.key v) t c t' c' := by
  apply (delete_spec h v).mono
  rintro _ t' ⟨c', h', hdel, _⟩
  refine ⟨c', hdel, ?_⟩
  obtain ⟨rfl, rfl, _⟩ | ⟨a, ha, hk, hmem, hdata⟩ := hdel
  · exact Touches.refl h'
  refine ⟨h', fun b hb hkb => ⟨(hmem b).mpr ⟨?_, hb⟩, by rw [hdata]⟩,
    fun b hb _ => ⟨((hmem b).mp hb).2, by rw [hdata]⟩⟩
  rintro rfl
  exact hkb hk

lemma insert_only (h : Holds o t c) (v : T) : Yields (insert o v) t (InsertsOnly o v t) := by
  apply (insert_touches h v).mono
  rintro q t' ⟨c', hins, ht⟩
  refine ⟨?_, ?_, ht.undisturbed h⟩
  · intro a hs
    obtain ⟨rfl, _, b, hb, rfl, hk⟩ | ⟨habs, _⟩ := hins
    · rw [h.search_node hb hk] at hs
      cases hs
      exact ⟨rfl, rfl⟩
    · rw [h.search_null habs] at hs
      cases hs
  · intro hs
    obtain ⟨_, _, b, hb, _, hk⟩ | ⟨_, a, hna, rfl, hmem, hdata⟩ := hins
    · rw [h.search_node hb hk] at hs
      cases hs
    · refine ⟨a, rfl, fun hm => hna (h.member_iff.mp hm), by rw [hdata, Function.update_self], ?_⟩
      intro b
      rw [ht.holds.member_iff, h.member_iff]
      exact hmem b

lemma delete_only (h : Holds o t c) (v : T) :
    Yields (delete o v) t fun _ t' => DeletesOnly o v t t' := by
  apply (delete_touches h v).mono
  rintro _ t' ⟨c', hdel, ht⟩
  refine ⟨?_, ?_, ht.undisturbed h⟩
  · intro a hs
    obtain ⟨_, _, habs⟩ | ⟨b, hb, hk, hmem, hdata⟩ := hdel
    · rw [h.search_null habs] at hs
      cases hs
    · rw [h.search_node hb hk] at hs
      cases hs
      refine ⟨h.member_iff.mpr hb, fun d => ?_, hdata⟩
      rw [ht.holds.member_iff, h.member_iff]
      exact hmem d
  · intro hs
    obtain ⟨rfl, _⟩ | ⟨b, hb, hk, _⟩ := hdel
    · rfl
    · rw [h.search_node hb hk] at hs
      cases hs

end

end Xty.RbTree
