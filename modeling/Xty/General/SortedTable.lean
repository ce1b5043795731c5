import Mathlib.Tactic

/-! Association tables that keep their entries in the order of the keys. -/

namespace Xty.General.SortedTable

variable {K V : Type} [LinearOrder K]

def InOrder (l : List (K × V)) : Prop := l.Pairwise fun a b => a.1 < b.1

def put (k : K) (v : V) : List (K × V) → List (K × V)
  | [] => [(k, v)]
  | e :: l =>
    if k < e.1 then (k, v) :: e :: l
    else if k = e.1 then (k, v) :: l
    else e :: put k v l

section Lists

variable {l l' : List (K × V)} {k : K} {v : V}

lemma mem_put (hl : InOrder l) {e : K × V} :
    e ∈ put k v l ↔ e = (k, v) ∨ (e ∈ l ∧ e.1 ≠ k) := by
  induction l with
  | nil => simp [put]
  | cons d l ih =>
    obtain ⟨hd, hl⟩ := List.pairwise_cons.mp hl
    rw [put]
    split_ifs with hlt heq
    · have hne : ∀ b ∈ d :: l, b.1 ≠ k := by
        intro b hb
        rcases List.mem_cons.mp hb with rfl | hb
        · exact hlt.ne'
        · exact (hlt.trans (hd b hb)).ne'
      rw [List.mem_cons]
      exact or_congr_right ⟨fun h => ⟨h, hne e h⟩, And.left⟩
    · have hne : ∀ b ∈ l, b.1 ≠ k := fun b hb => (heq ▸ hd b hb).ne'
      rw [List.mem_cons, List.mem_cons]
      refine or_congr_right ⟨fun h => ⟨Or.inr h, hne e h⟩, ?_⟩
      rintro ⟨rfl | h, hk⟩
      · exact absurd heq.symm hk
      · exact h
    · rw [List.mem_cons, ih hl, List.mem_cons]
      constructor
      · rintro (rfl | rfl | ⟨h, hk⟩)
        · exact Or.inr ⟨Or.inl rfl, Ne.symm heq⟩
        · exact Or.inl rfl
        · exact Or.inr ⟨Or.inr h, hk⟩
      · rintro (rfl | ⟨rfl | h, hk⟩)
        · exact Or.inr (Or.inl rfl)
        · exact Or.inl rfl
        · exact Or.inr (Or.inr ⟨h, hk⟩)

lemma InOrder.put (hl : InOrder l) (k : K) (v : V) : InOrder (put k v l) := by
  induction l with
  | nil => exact List.pairwise_singleton _ _
  | cons d l ih =>
    obtain ⟨hd, hl'⟩ := List.pairwise_cons.mp hl
    rw [SortedTable.put]
    split_ifs with hlt heq
    · refine List.pairwise_cons.mpr ⟨fun b hb => ?_, hl⟩
      rcases List.mem_cons.mp hb with rfl | hb
      · exact hlt
      · exact hlt.trans (hd b hb)
    · exact List.pairwise_cons.mpr ⟨fun b hb => heq ▸ hd b hb, hl'⟩
    · refine List.pairwise_cons.mpr ⟨fun b hb => ?_, ih hl'⟩
      rcases (mem_put hl').mp hb with rfl | ⟨hb, _⟩
      · exact lt_of_le_of_ne (not_lt.mp hlt) (Ne.symm heq)
      · exact hd b hb

lemma InOrder.ext (hl : InOrder l) (hl' : InOrder l') (h : ∀ e, e ∈ l ↔ e ∈ l') : l = l' := by
  have hirr : ∀ {m : List (K × V)}, InOrder m → m.Nodup := fun hm => hm.imp fun hab he =>
    hab.ne (congrArg Prod.fst he)
  have hp := (List.perm_ext_iff_of_nodup (hirr hl) (hirr hl')).mpr h
  exact hp.eq_of_pairwise (fun a b _ _ hab hba => absurd hab hba.asymm) hl hl'

lemma InOrder.nodup_keys (hl : InOrder l) : (l.map Prod.fst).Nodup :=
  List.pairwise_map.mpr (hl.imp fun h => h.ne)

lemma InOrder.value_unique (hl : InOrder l) {v w : V} (hv : (k, v) ∈ l) (hw : (k, w) ∈ l) :
    v = w :=
  congrArg Prod.snd (List.inj_on_of_nodup_map hl.nodup_keys hv hw rfl)

end Lists

/-- The entries carry the proof that they are in order, so every key has one value. -/
structure Table (K V : Type) [LinearOrder K] where
  entries : List (K × V)
  inOrder : InOrder entries

namespace Table

def empty : Table K V := ⟨[], List.Pairwise.nil⟩

def lookup (T : Table K V) (k : K) : Option V := (T.entries.find? (·.1 = k)).map Prod.snd

def insert (T : Table K V) (k : K) (v : V) : Table K V := ⟨put k v T.entries, T.inOrder.put k v⟩

def erase (T : Table K V) (k : K) : Table K V :=
  ⟨T.entries.filter (·.1 ≠ k), T.inOrder.filter _⟩

variable {T : Table K V} {k : K} {v : V}

lemma lookup_eq_some : T.lookup k = some v ↔ (k, v) ∈ T.entries := by
  rw [lookup, Option.map_eq_some_iff]
  constructor
  · rintro ⟨⟨k', _⟩, hf, rfl⟩
    have hk : k' = k := by simpa using List.find?_some hf
    exact hk ▸ List.mem_of_find?_eq_some hf
  · intro hm
    have hs : (T.entries.find? (·.1 = k)).isSome := List.find?_isSome.mpr ⟨_, hm, by simp⟩
    obtain ⟨⟨k', w⟩, hf⟩ := Option.isSome_iff_exists.mp hs
    obtain rfl : k' = k := by simpa using List.find?_some hf
    exact ⟨_, hf, T.inOrder.value_unique (List.mem_of_find?_eq_some hf) hm⟩

@[simp] lemma lookup_empty : (empty : Table K V).lookup k = none := rfl

lemma lookup_insert (T : Table K V) (k : K) (v : V) :
    (T.insert k v).lookup = Function.update T.lookup k (some v) := by
  funext k'
  ext w
  rw [lookup_eq_some, insert, mem_put T.inOrder, Function.update_apply]
  split_ifs with hk
  · simp [hk, eq_comm]
  · simp [hk, lookup_eq_some]

lemma lookup_erase (T : Table K V) (k : K) :
    (T.erase k).lookup = Function.update T.lookup k none := by
  funext k'
  ext w
  rw [lookup_eq_some, erase, List.mem_filter, Function.update_apply]
  split_ifs with hk
  · simp [hk]
  · simp [hk, lookup_eq_some]

def keys (T : Table K V) : List K := T.entries.map Prod.fst

lemma keys_nodup (T : Table K V) : T.keys.Nodup := T.inOrder.nodup_keys

lemma mem_keys : k ∈ T.keys ↔ T.lookup k ≠ none := by
  rw [keys, List.mem_map, Option.ne_none_iff_exists']
  constructor
  · rintro ⟨⟨_, w⟩, he, rfl⟩
    exact ⟨w, lookup_eq_some.mpr he⟩
  · rintro ⟨w, hw⟩
    exact ⟨_, lookup_eq_some.mp hw, rfl⟩

lemma length_keys (T : Table K V) : T.keys.length = T.entries.length := List.length_map _

end Table

end Xty.General.SortedTable
