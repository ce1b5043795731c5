import Xty.Map.Runs
import Xty.RbTree.Identity

/-! Pointers and references into an `xtyMap` outlive the calls about other keys. -/

namespace Xty.Map

open Xty.General.Programs Xty.General.RedBlack Xty.RbTree

variable {K V : Type}

namespace Operation

def key? : Operation K V → Option K
  | .insertKey k => some k
  | .insertPair k _ => some k
  | .read k => some k
  | .write k _ => some k
  | .deleteKey k => some k
  | .deletePair k _ => some k
  | .clear => none

def Removes (k : K) : Operation K V → Prop
  | .deleteKey j => j = k
  | .deletePair j _ => j = k
  | .clear => True
  | _ => False

end Operation

lemma getValue_live {t : LinkedTree (MapNode K V)} {q : Ptr} {l : Links}
    (h : t.graph.links q = some l) :
    getValue q t = some ((t.data q).value, t) := by
  apply Yields.run_eq
  rw [getValue]
  exact Yields.step (getData_run h) (Yields.pure ⟨rfl, rfl⟩)

variable [LinearOrder K]

/-- A call that looks for the key, or makes a node for it, and returns a pointer to it. -/
structure Obtains (k : K) (t : LinkedTree (MapNode K V)) (c : ColorTree ℕ) (q : Ptr)
    (t' : LinkedTree (MapNode K V)) (c' : ColorTree ℕ) : Prop where
  touches : Touches nodeOrder k t c t' c'
  pointer : ∃ a ∈ c'.inorder, q = .node a ∧ t'.keyAt nodeOrder a = k
  own : ∀ a ∈ c.inorder, t.keyAt nodeOrder a = k → a ∈ c'.inorder ∧ t'.keyAt nodeOrder a = k

section

variable {t t' : LinkedTree (MapNode K V)} {c c' : ColorTree ℕ} {k : K} {q : Ptr}

lemma setValue_obtains (h : Obtains k t c q t' c') (v : V) :
    Yields (setValue q v) t' fun _ t'' => Obtains k t c q t'' c' := by
  obtain ⟨ht, ⟨a, ha, rfl, hk⟩, hown⟩ := h
  apply (setValue_holds ht.holds ha v).mono
  rintro _ t'' ⟨h'', hdata⟩
  have hkey : ∀ b, t''.keyAt nodeOrder b = t'.keyAt nodeOrder b := by
    intro b
    rw [keyAt_eq, keyAt_eq, hdata]
    by_cases hb : b = a
    · rw [hb, Function.update_self]
    · rw [Function.update_of_ne (by simpa using hb)]
  have hset : Touches nodeOrder k t' c' t'' c' := by
    have hd : ∀ b, t'.keyAt nodeOrder b ≠ k → t''.data (.node b) = t'.data (.node b) := by
      intro b hb
      have hba : b ≠ a := by
        rintro rfl
        exact hb hk
      rw [hdata, Function.update_of_ne (by simpa using hba)]
    exact ⟨h'', fun b hb hkb => ⟨hb, hd b hkb⟩, fun b hb hkb => ⟨hb, hd b (hkey b ▸ hkb)⟩⟩
  exact ⟨ht.trans hset, ⟨a, ha, rfl, (hkey a).trans hk⟩,
    fun b hb hkb => ⟨(hown b hb hkb).1, (hkey b).trans (hown b hb hkb).2⟩⟩

lemma Obtains.value_yields (h : Obtains k t c q t' c') :
    Yields (getValue q) t' fun _ t'' => t'' = t' := by
  obtain ⟨a, ha, rfl, _⟩ := h.pointer
  obtain ⟨l, hl⟩ := h.touches.holds.live ha
  exact Yields.of_eq (getValue_live hl) rfl

/-- Of the nodes with other keys a call changes nothing, and unless it removes it, the node with its
own key keeps that key. -/
structure Frames (p : Operation K V) (t : LinkedTree (MapNode K V)) (c : ColorTree ℕ)
    (t' : LinkedTree (MapNode K V)) (c' : ColorTree ℕ) : Prop where
  holds : Holds nodeOrder t' c'
  touches : ∀ k, p.key? = some k → Touches nodeOrder k t c t' c'
  keeps : ∀ a ∈ c.inorder, ¬ p.Removes (t.keyAt nodeOrder a) →
    a ∈ c'.inorder ∧ t'.keyAt nodeOrder a = t.keyAt nodeOrder a

lemma Touches.keeps (h : Touches nodeOrder k t c t' c') {a : ℕ} (ha : a ∈ c.inorder)
    (hk : t.keyAt nodeOrder a ≠ k) :
    a ∈ c'.inorder ∧ t'.keyAt nodeOrder a = t.keyAt nodeOrder a := by
  obtain ⟨ha', hd⟩ := h.kept a ha hk
  exact ⟨ha', by rw [keyAt_eq, keyAt_eq, hd]⟩

lemma Obtains.frames {p : Operation K V} (hp : p.key? = some k) (h : Obtains k t c q t' c') :
    Frames p t c t' c' := by
  refine ⟨h.touches.holds, fun j hj => ?_, fun a ha _ => ?_⟩
  · obtain rfl : k = j := Option.some.inj (hp.symm.trans hj)
    exact h.touches
  · by_cases hk : t.keyAt nodeOrder a = k
    · rw [hk]
      exact h.own a ha hk
    · exact Touches.keeps h.touches ha hk

lemma frames_of_removes {p : Operation K V} (hp : p.key? = some k) (hr : p.Removes k)
    (h : Touches nodeOrder k t c t' c') : Frames p t c t' c' := by
  refine ⟨h.holds, fun j hj => ?_, fun a ha hn => ?_⟩
  · obtain rfl : k = j := Option.some.inj (hp.symm.trans hj)
    exact h
  · refine Touches.keeps h ha fun hk => hn ?_
    rw [hk]
    exact hr

variable [Inhabited V]

def Designates (k : K) (q : Ptr) (t : LinkedTree (MapNode K V)) : Prop :=
  ∃ a, q = .node a ∧ searchKey k t = some (q, t) ∧ Member nodeOrder t a ∧ (t.data q).key = k

lemma designates_of_mem (h : Holds nodeOrder t c) {a : ℕ} (ha : a ∈ c.inorder)
    (hk : t.keyAt nodeOrder a = k) : Designates k (.node a) t :=
  ⟨a, rfl, h.search_node ha hk, h.member_iff.mpr ha, hk⟩

lemma Obtains.designates (h : Obtains k t c q t' c') : Designates k q t' := by
  obtain ⟨a, ha, rfl, hk⟩ := h.pointer
  exact designates_of_mem h.touches.holds ha hk

lemma insertKey_obtains (h : Holds nodeOrder t c) (k : K) :
    Yields (insertKey k) t fun q t' => ∃ c', Obtains k t c q t' c' := by
  apply (insert_touches h (keyNode k)).mono
  rintro q t' ⟨c', hins, ht⟩
  obtain ⟨rfl, rfl, a, ha, rfl, hk⟩ | ⟨habs, a, hna, rfl, hmem, hdata⟩ := hins
  · exact ⟨c', ht, ⟨a, ha, rfl, hk⟩, fun b hb hkb => ⟨hb, hkb⟩⟩
  · refine ⟨c', ht, ⟨a, (hmem a).mpr (Or.inl rfl), rfl, ?_⟩, fun b hb hkb => absurd hkb (habs b hb)⟩
    rw [keyAt_eq, hdata, Function.update_self]
    rfl

lemma insertPair_obtains (h : Holds nodeOrder t c) (k : K) (v : V) :
    Yields (insertPair k v) t fun q t' => ∃ c', Obtains k t c q t' c' := by
  rw [insertPair, insertNode]
  apply (insertKey_obtains h k).bind
  rintro q t1 ⟨c1, h1⟩
  obtain ⟨a, _, rfl, _⟩ := id h1.pointer
  rw [if_pos (by simp)]
  apply (setValue_obtains h1 v).bind
  intro _ t2 h2
  exact Yields.pure ⟨c1, h2⟩

lemma index_obtains (h : Holds nodeOrder t c) (k : K) :
    Yields (index k) t fun q t' => ∃ c', Obtains k t c q t' c' := by
  rw [index]
  obtain ⟨a, ha, hk, hs⟩ | ⟨_, hs⟩ := h.search_cases (keyNode k)
  · apply Yields.step hs
    rw [if_pos (by simp)]
    exact Yields.pure ⟨c, Touches.refl h, ⟨a, ha, rfl, hk⟩, fun b hb hkb => ⟨hb, hkb⟩⟩
  · apply Yields.step hs
    rw [if_neg fun hne => hne rfl]
    exact insertKey_obtains h k

lemma deleteKey_touches (h : Holds nodeOrder t c) (k : K) :
    Yields (deleteKey k) t fun _ t' => ∃ c', Touches nodeOrder k t c t' c' :=
  (delete_touches h (keyNode k)).mono fun _ _ ⟨c', _, ht⟩ => ⟨c', ht⟩

variable [BEq V]

lemma deletePair_touches (h : Holds nodeOrder t c) (k : K) (v : V) :
    Yields (deletePair k v) t fun _ t' => ∃ c', Touches nodeOrder k t c t' c' := by
  have hsearch : Yields (searchNode ⟨k, v⟩) t fun _ t' => t' = t := by
    rw [searchNode]
    obtain ⟨a, ha, _, hs⟩ | ⟨_, hs⟩ := h.search_cases (keyNode k)
    · obtain ⟨l, hl⟩ := h.live ha
      apply Yields.step hs
      rw [if_pos (by simp)]
      apply Yields.step (getValue_live hl)
      split_ifs <;> exact Yields.pure rfl
    · apply Yields.step hs
      rw [if_neg fun hne => hne rfl]
      exact Yields.pure rfl
  rw [deletePair, deleteNode]
  apply hsearch.bind
  rintro q _ rfl
  split_ifs
  · exact deleteKey_touches h k
  · exact Yields.pure ⟨c, Touches.refl h⟩

lemma Operation.run_frames (p : Operation K V) (h : Holds nodeOrder t c) :
    Yields p.run t fun _ t' => ∃ c', Frames p t c t' c' := by
  have obtained : ∀ {m : MapProgram K V Ptr} {k}, p.key? = some k →
      Yields m t (fun q t' => ∃ c', Obtains k t c q t' c') →
      Yields (do return some (← getValue (← m))) t fun _ t' => ∃ c', Frames p t c t' c' := by
    intro m k hk hm
    apply hm.bind
    rintro q t' ⟨c', h'⟩
    apply h'.value_yields.bind
    rintro v _ rfl
    exact Yields.pure ⟨c', h'.frames hk⟩
  cases p with
  | insertKey k => exact obtained rfl (insertKey_obtains h k)
  | insertPair k v => exact obtained rfl (insertPair_obtains h k v)
  | read k => exact obtained rfl (index_obtains h k)
  | write k v =>
    apply (index_obtains h k).bind
    rintro q t1 ⟨c1, h1⟩
    apply (setValue_obtains h1 v).bind
    intro _ t2 h2
    exact Yields.pure ⟨c1, h2.frames rfl⟩
  | deleteKey k =>
    apply (deleteKey_touches h k).bind
    rintro _ t' ⟨c', h'⟩
    exact Yields.pure ⟨c', frames_of_removes rfl rfl h'⟩
  | deletePair k v =>
    apply (deletePair_touches h k v).bind
    rintro _ t' ⟨c', h'⟩
    exact Yields.pure ⟨c', frames_of_removes rfl rfl h'⟩
  | clear =>
    apply (RbTree.clear_spec h).bind
    rintro _ t' ⟨h', _⟩
    refine Yields.pure ⟨.leaf, h', fun k hk => ?_, fun a _ hn => absurd trivial hn⟩
    cases hk

lemma runAll_keeps (ps : List (Operation K V)) {a : ℕ} (h : Holds nodeOrder t c)
    (ha : a ∈ c.inorder) (hk : t.keyAt nodeOrder a = k) (hps : ∀ p ∈ ps, ¬ p.Removes k) :
    Yields (runAll ps) t fun _ t' => ∃ c', Holds nodeOrder t' c' ∧ a ∈ c'.inorder ∧
      t'.keyAt nodeOrder a = k := by
  induction ps generalizing t c with
  | nil => exact Yields.pure ⟨c, h, ha, hk⟩
  | cons p ps ih =>
    apply (p.run_frames h).bind
    rintro r t1 ⟨c1, h1⟩
    obtain ⟨ha1, hk1⟩ := h1.keeps a ha (by rw [hk]; exact hps p (by simp))
    apply (ih h1.holds ha1 (hk1.trans hk) fun q hq => hps q (List.mem_cons_of_mem _ hq)).bind
    intro rs t2 h2
    exact Yields.pure h2

/-- A call about one value touches no node but that of this value. Pointers, references and
iterators to the others stay valid, and so does one to a key that no later call removes. -/
theorem nodes_keep_identity {T κ : Type} [LinearOrder κ] [Inhabited T] [Inhabited K]
    (o : KeyOrder T κ) (ps : List (RbTree.Operation T)) (qs : List (Operation K V)) :
    (Yields (RbTree.runAll o ps) create fun _ t => ∀ v,
      Yields (RbTree.insert o v) t (InsertsOnly o v t) ∧
        Yields (RbTree.delete o v) t fun _ t' => DeletesOnly o v t t') ∧
      Yields (runAll qs) create fun _ t =>
        (∀ k, Yields (index k) t (Designates k) ∧ Yields (insertKey k) t (Designates k) ∧
          ∀ v, Yields (insertPair k v) t (Designates k)) ∧
        (∀ p k, p.key? = some k →
          Yields (Operation.run p) t fun _ t' => Undisturbed nodeOrder k t t') ∧
        ∀ k q, searchKey k t = some (q, t) → q ≠ .null → Designates k q t ∧
          ∀ rs : List (Operation K V), (∀ p ∈ rs, ¬ p.Removes k) →
            Yields (runAll rs) t fun _ t' => Designates k q t' := by
  constructor
  · apply (runAll_holds ps create_holds).mono
    rintro _ t ⟨c, h⟩ v
    exact ⟨insert_only h v, delete_only h v⟩
  · apply (runAll_spec qs create_binds).mono
    rintro _ t ⟨_, c, hb⟩
    have h := hb.holds
    have hd : ∀ {k} {m : MapProgram K V Ptr}, Yields m t (fun q t' => ∃ c', Obtains k t c q t' c') →
        Yields m t (Designates k) := by
      intro k m hm
      exact hm.mono fun q t' ⟨c', h'⟩ => h'.designates
    refine ⟨?_, ?_, ?_⟩
    · intro k
      exact ⟨hd (index_obtains h k), hd (insertKey_obtains h k),
        fun v => hd (insertPair_obtains h k v)⟩
    · intro p k hk
      exact (p.run_frames h).mono fun _ t' ⟨c', h'⟩ => (h'.touches k hk).undisturbed h
    · intro k q hq hne
      obtain ⟨a, ha, hk, hs⟩ | ⟨_, hs⟩ := h.search_cases (keyNode k)
      · obtain ⟨rfl, _⟩ := Prod.mk.inj (Option.some.inj (hs.symm.trans hq))
        refine ⟨designates_of_mem h ha hk, fun rs hrs => (runAll_keeps rs h ha hk hrs).mono ?_⟩
        rintro _ t' ⟨c', h', ha', hk'⟩
        exact designates_of_mem h' ha' hk'
      · obtain ⟨rfl, _⟩ := Prod.mk.inj (Option.some.inj (hs.symm.trans hq))
        exact absurd rfl hne

end

end Xty.Map
