import Xty.General.RedBlack.Traversal
import Xty.RbTree.Tree

/-! The elements that a tree holds, and what the operations of `xtyRbTree` do to them. -/

namespace Xty.RbTree

open Xty.General.Programs Xty.General.RedBlack Xty.General.Heap ColorTree

variable {T κ : Type} [LinearOrder κ] {o : KeyOrder T κ}

structure Holds (o : KeyOrder T κ) (t : LinkedTree T) (c : ColorTree ℕ) : Prop where
  shows : ∃ p, Shows t.graph c [] p 0
  redBlack : IsRedBlack c
  sorted : Sorted (t.keyAt o) c
  allocated : ∀ a ∈ c.inorder, a < t.next
  count : t.nodeCount = UInt32.ofNat c.size

def elements (t : LinkedTree T) (c : ColorTree ℕ) : List T :=
  c.inorder.map fun a => t.data (.node a)

section Bounds

variable {t : LinkedTree T} {c : ColorTree ℕ}

lemma Holds.size_le (h : Holds o t c) : c.size ≤ t.next := by
  obtain ⟨p, hs⟩ := h.shows
  rw [← length_inorder]
  have hsub : c.inorder ⊆ List.range t.next := fun a ha => List.mem_range.mpr (h.allocated a ha)
  have hle := (hs.nodup.subperm hsub).length_le
  rwa [List.length_range] at hle

lemma Holds.height_lt (h : Holds o t c) : c.height < t.next + 1 :=
  Nat.lt_succ_of_le ((height_le_size c).trans h.size_le)

lemma Shows.exists_iff {g : Graph} {p q : Ptr} (h : Shows g c [] p 0) :
    (∃ k, g.links q = some k) ↔ q = .sentinel ∨ ∃ a ∈ c.inorder, q = .node a := by
  have hkeys : (cell Ptr.sentinel (sentinelLinks p) + (treeCells (contextPtr []) c
      + contextCells (ptr c) [] + 0)).map Prod.fst
        = Ptr.sentinel ::ₘ ↑(c.inorder.map Ptr.node) := by
    rw [contextCells, add_zero, add_zero, Multiset.map_add, keys_treeCells, cell,
      Multiset.map_singleton, Multiset.singleton_add]
  have hmem : (∃ k, g.links q = some k) ↔ q ∈ (cell Ptr.sentinel (sentinelLinks p)
      + (treeCells (contextPtr []) c + contextCells (ptr c) [] + 0)).map Prod.fst := by
    simp only [h.describes.holds, Multiset.mem_map, Prod.exists, exists_and_right, exists_eq_right]
  rw [hmem, hkeys, Multiset.mem_cons, Multiset.mem_coe, List.mem_map]
  simp only [eq_comm]

lemma Holds.live (h : Holds o t c) {a : ℕ} (ha : a ∈ c.inorder) :
    ∃ k, t.graph.links (.node a) = some k := by
  obtain ⟨p, hs⟩ := h.shows
  exact hs.exists_iff.mpr (Or.inr ⟨a, ha, rfl⟩)

end Bounds

section Steps

variable {t : LinkedTree T} {c : ColorTree ℕ}

lemma search_spec (h : Holds o t c) (v : T) :
    Yields (search o v) t fun q t' => t' = t ∧ Found o t v c q := by
  obtain ⟨p, hs⟩ := h.shows
  rw [search]
  refine Yields.step rfl (Yields.step (onGraph_run hs.root_run) ?_)
  exact searchFrom_spec hs h.sorted around_nil h.height_lt

end Steps

section Attachment

variable {g : Graph} {t : LinkedTree T} {D E : Context ℕ} {f : Frame ℕ} {p : Ptr} {F R : LinkCells}
  {a : ℕ} {k : Links}

lemma setChild_spec (h : Shows g .leaf (f :: E) p F) (new : Ptr) :
    Yields (setChild f.side (.node f.value) new) g fun _ g' =>
      Describes g'.links (cell .sentinel (sentinelLinks p) + (contextCells new (f :: E) + F)) ∧
        g'.root = g.root := by
  have hd := h.describes.congr (N := cell (.node f.value)
    (Links.make f.side (contextPtr E) .sentinel (ptr f.sibling) f.color)
      + (cell .sentinel (sentinelLinks p) + (treeCells (.node f.value) f.sibling
        + (contextCells (.node f.value) E + F)))) (by
    simp only [treeCells, contextCells, ptr]
    ac_rfl)
  refine Yields.of_eq (writeLinks_run h.up.node_run) ⟨?_, rfl⟩
  rw [ptr, Links.make_setChild]
  apply (hd.write rfl _).congr
  rw [contextCells]
  ac_rfl

lemma initLinks_spec (h : Describes g.links (cell (.node a) k + R)) (pp : Ptr) :
    Yields (initLinks (.node a) pp) g fun _ g' =>
      Describes g'.links (cell (.node a) ⟨pp, .sentinel, .sentinel, .red⟩ + R) ∧
        g'.root = g.root := by
  have h1 := h.write rfl { k with parent := pp }
  have h2 := h1.write rfl ({ k with parent := pp }.setChild .left .sentinel)
  have h3 := h2.write rfl (({ k with parent := pp }.setChild .left .sentinel).setChild .right
    .sentinel)
  rw [initLinks]
  apply Yields.step (writeLinks_run (h.read rfl))
  apply Yields.step (writeLinks_run (h1.read rfl))
  apply Yields.step (writeLinks_run (h2.read rfl))
  exact Yields.of_eq (writeLinks_run (h3.read rfl)) ⟨h3.write rfl _, rfl⟩

lemma attach_spec (h : Shows t.graph .leaf D p (cell (.node a) k + F))
    (ha : Around (t.keyAt o) (t.keyAt o a) D) :
    Yields (attach o (.node a) (contextPtr D)) t fun _ t' => ∃ g, t' = { t with graph := g } ∧
      Describes g.links (cell .sentinel (sentinelLinks p)
        + (contextCells (.node a) D + (cell (.node a) k + F))) ∧
      g.root = ptr (plug (node .red .leaf a .leaf) D) := by
  cases D with
  | nil =>
    have hrun : attach o (.node a) (contextPtr []) t
        = some ((), { t with graph := { t.graph with root := .node a } }) := rfl
    refine Yields.of_eq hrun ⟨_, rfl, h.describes.congr ?_, rfl⟩
    simp only [treeCells, contextCells, zero_add]
  | cons f E =>
    have hroot : ptr (plug .leaf (f :: E)) = ptr (plug (node .red .leaf a .leaf) (f :: E)) :=
      ptr_plug_congr (f :: E) fun hn => by cases hn
    have hkey : o.less (t.data (.node a)) (t.data (.node f.value)) = true ↔ f.side = .left := by
      rw [o.less_iff]
      rcases f with ⟨_ | _, d, b, u⟩
      · exact iff_of_true (ha.2 b (by simp [after, Frame.after])) rfl
      · exact iff_of_false (ha.1 b (by simp [before, Frame.before])).not_gt (by simp)
    rw [contextPtr, attach, if_neg (by simp)]
    apply Yields.step (getData_run h.read_free)
    apply Yields.step (getData_run h.up.node_run)
    by_cases hl : o.less (t.data (.node a)) (t.data (.node f.value)) = true
    · have hside := hkey.mp hl
      rw [if_pos hl, ← hside]
      apply (onGraph_yields (setChild_spec h (.node a))).mono
      rintro _ t' ⟨g, ⟨hg, hr⟩, rfl⟩
      exact ⟨g, rfl, hg, hr.trans (h.root.trans hroot)⟩
    · have hside : Side.right = f.side := by
        cases hf : f.side with
        | left => exact absurd (hkey.mpr hf) hl
        | right => rfl
      rw [if_neg hl, hside]
      apply (onGraph_yields (setChild_spec h (.node a))).mono
      rintro _ t' ⟨g, ⟨hg, hr⟩, rfl⟩
      exact ⟨g, rfl, hg, hr.trans (h.root.trans hroot)⟩

end Attachment

section Insertion

variable {t : LinkedTree T} {c : ColorTree ℕ}

def Inserted (o : KeyOrder T κ) (v : T) (t : LinkedTree T) (c : ColorTree ℕ) (q : Ptr)
    (t' : LinkedTree T)
    (c' : ColorTree ℕ) : Prop :=
  (t' = t ∧ c' = c ∧ ∃ a ∈ c.inorder, q = .node a ∧ t.keyAt o a = o.key v) ∨
    ((∀ a ∈ c.inorder, t.keyAt o a ≠ o.key v) ∧ ∃ a, a ∉ c.inorder ∧ q = .node a ∧
      (∀ b, b ∈ c'.inorder ↔ b = a ∨ b ∈ c.inorder) ∧ t'.data = Function.update t.data q v)

lemma keyAt_congr {t' : LinkedTree T} {v : T} {n a : ℕ}
    (h : t'.data = Function.update t.data (.node n) v)
    (ha : a ≠ n) : t'.keyAt o a = t.keyAt o a := by
  rw [LinkedTree.keyAt, LinkedTree.keyAt, h, Function.update_of_ne (by simpa using ha)]

lemma Shows.unallocated {g : Graph} {p : Ptr} {a : ℕ} (h : Shows g c [] p 0)
    (ha : a ∉ c.inorder) : g.links (.node a) = none := by
  rw [Option.eq_none_iff_forall_ne_some]
  intro k hk
  obtain he | ⟨b, hb, he⟩ := h.exists_iff.mp ⟨k, hk⟩
  · cases he
  · cases he
    exact ha hb

lemma Shows.allocate {g : Graph} {p : Ptr} {a : ℕ} (h : Shows g c [] p 0)
    (ha : a ∉ c.inorder) (k : Links) :
    Shows (g.write (.node a) k) c [] p (cell (.node a) k + 0) := by
  refine ⟨(h.describes.allocate (h.unallocated ha) k).congr ?_, h.root⟩
  ac_rfl

lemma sorted_congr {t' : LinkedTree T} {x : ColorTree ℕ} (hs : Sorted (t.keyAt o) x)
    (h : ∀ a ∈ x.inorder, t'.keyAt o a = t.keyAt o a) : Sorted (t'.keyAt o) x := by
  refine hs.imp_of_mem fun ha hb hlt => ?_
  rwa [h _ ha, h _ hb]

lemma Checked.insertNew_spec (h : Holds o t c) (v : T)
    (habs : ∀ a ∈ c.inorder, t.keyAt o a ≠ o.key v) :
    Yields (insertNew o v) t fun q t' => ∃ c', Holds o t' c' ∧ Inserted o v t c q t' c' ∧
      t'.graph.links .sentinel = t.graph.links .sentinel := by
  obtain ⟨p, hs⟩ := h.shows
  have hn : t.next ∉ c.inorder := fun hm => (h.allocated _ hm).false
  let t1 : LinkedTree T := { t with
    graph := t.graph.write (.node t.next) ⟨.null, .null, .null, .red⟩
    data := Function.update t.data (.node t.next) v
    next := t.next + 1 }
  have hkey : ∀ a ∈ c.inorder, t1.keyAt o a = t.keyAt o a := fun a ha =>
    keyAt_congr rfl fun he => hn (he ▸ ha)
  have hnew : t1.data (.node t.next) = v := Function.update_self _ _ _
  have hs1 : Shows t1.graph c [] p (cell (.node t.next) ⟨.null, .null, .null, .red⟩ + 0) :=
    hs.allocate hn _
  have hsort : Sorted (t1.keyAt o) c := sorted_congr h.sorted hkey
  rw [insertNew]
  apply Yields.step (show allocate v t = some (.node t.next, t1) from rfl)
  refine Yields.step rfl (Yields.step (onGraph_run hs1.root_run) ?_)
  -- the place of the node
  refine (placeFrom_spec (C := []) hs1 hs1.read_free hsort around_nil ?_ ?_).bind ?_
  · intro a ha
    rw [hkey a ha, hnew]
    exact habs a ha
  · exact h.height_lt.trans (Nat.lt_succ_self _)
  rintro pp _ ⟨rfl, D, hD, rfl, hard⟩
  obtain rfl : c = plug .leaf D := hD
  have hlen : D.length < t.next + 2 :=
    lt_of_le_of_lt ((length_le_size _ D).trans h.size_le) (by omega)
  apply (attach_spec (hs1.refocus rfl) hard).bind
  rintro _ _ ⟨g2, rfl, h2, hroot2⟩
  have h2' : Describes g2.links (cell (.node t.next) ⟨.null, .null, .null, .red⟩
      + (cell .sentinel (sentinelLinks p) + contextCells (.node t.next) D)) :=
    h2.congr (by rw [add_zero]; ac_rfl)
  apply (onGraph_yields (initLinks_spec h2' (contextPtr D))).bind
  rintro _ _ ⟨g3, ⟨h3, hroot3⟩, rfl⟩
  have hs3 : Shows g3 (node .red .leaf t.next .leaf) D p 0 := by
    refine ⟨h3.congr ?_, hroot3.trans hroot2⟩
    simp only [treeCells, ptr, add_zero]
    ac_rfl
  apply Yields.step rfl
  apply (onGraph_yields (insertFixUp_spec hs3 (insert_init h.redBlack t.next) hlen)).bind
  rintro _ _ ⟨g4, ⟨c', hs4, hb, hin⟩, rfl⟩
  have hmem : ∀ b, b ∈ c'.inorder ↔ b = t.next ∨ b ∈ (plug .leaf D).inorder := by
    intro b
    rw [hin, perm_place.mem_iff, List.mem_cons]
  refine Yields.step rfl (Yields.pure ⟨c', ⟨⟨p, hs4⟩, hb, ?_, ?_, ?_⟩, Or.inr ?_,
    hs4.sentinel_run.trans hs.sentinel_run.symm⟩)
  · rw [Sorted, hin]
    exact hsort.place hard .red
  · intro a ha
    rcases (hmem a).mp ha with rfl | ha
    · exact Nat.lt_succ_self _
    · exact (h.allocated a ha).trans (Nat.lt_succ_self _)
  · have hsize : c'.size = (plug .leaf D).size + 1 := by
      rw [← length_inorder, ← length_inorder, hin, perm_place.length_eq, List.length_cons]
    rw [hsize, UInt32.ofNat_add, ← h.count]
    rfl
  · exact ⟨habs, t.next, hn, rfl, hmem, rfl⟩

lemma Checked.insert_spec (h : Holds o t c) (v : T) :
    Yields (insert o v) t fun q t' => ∃ c', Holds o t' c' ∧ Inserted o v t c q t' c' ∧
      t'.graph.links .sentinel = t.graph.links .sentinel := by
  rw [insert]
  apply (search_spec h v).bind
  rintro q _ ⟨rfl, hq⟩
  obtain ⟨a, ha, rfl, hk⟩ | ⟨rfl, habs⟩ := hq.mem
  · rw [if_pos (by simp)]
    exact Yields.pure ⟨c, h, Or.inl ⟨rfl, rfl, a, ha, rfl, hk⟩, rfl⟩
  · rw [if_neg fun hne => hne rfl]
    exact insertNew_spec h v habs

lemma insert_spec (h : Holds o t c) (v : T) :
    Yields (insert o v) t fun q t' => ∃ c', Holds o t' c' ∧ Inserted o v t c q t' c' ∧
      t'.graph.links .sentinel = t.graph.links .sentinel :=
  (Checked.insert_spec h v).erase (Checked.erases_insert v)

end Insertion

section Deletion

variable {t : LinkedTree T} {c : ColorTree ℕ}

def Deleted (o : KeyOrder T κ) (v : T) (t : LinkedTree T) (c : ColorTree ℕ) (t' : LinkedTree T)
    (c' : ColorTree ℕ) : Prop :=
  (t' = t ∧ c' = c ∧ ∀ a ∈ c.inorder, t.keyAt o a ≠ o.key v) ∨
    ∃ a ∈ c.inorder, t.keyAt o a = o.key v ∧ (∀ b, b ∈ c'.inorder ↔ b ≠ a ∧ b ∈ c.inorder) ∧
      t'.data = t.data

lemma Checked.delete_spec (h : Holds o t c) (v : T) :
    Yields (delete o v) t fun _ t' => ∃ c', Holds o t' c' ∧ Deleted o v t c t' c' ∧
      ∀ a ∈ c.inorder, t.keyAt o a = o.key v → ∃ q,
        t'.graph.links .sentinel = some (sentinelLinks q) ∧ Marks (c.subtree a).vacated c' q := by
  obtain ⟨p, hs⟩ := h.shows
  rw [delete]
  apply (search_spec h v).bind
  rintro q t ⟨rfl, ⟨d, l, a, r, D, rfl, rfl, hk⟩ | ⟨rfl, habs⟩⟩
  · rw [if_neg (by simp)]
    apply Yields.step rfl
    have hsize := h.size_le
    apply (onGraph_yields (remove_spec (hs.refocus rfl) h.redBlack (by omega))).bind
    rintro _ _ ⟨g, ⟨c', q, hs', hb, hin, hq⟩, rfl⟩
    have hperm := perm_removed (c := d) (a := a) hin
    have hn := hperm.nodup_iff.mp hs.nodup
    have hmem : ∀ b, b ∈ c'.inorder ↔ b ≠ a ∧ b ∈ (plug (node d l a r) D).inorder := by
      intro b
      rw [hperm.mem_iff, List.mem_cons]
      constructor
      · intro hb
        exact ⟨fun he => (List.nodup_cons.mp hn).1 (he ▸ hb), Or.inr hb⟩
      · rintro ⟨hne, hb⟩
        exact hb.resolve_left hne
    refine Yields.of_eq rfl ⟨c', ⟨⟨q, hs'⟩, hb, h.sorted.removed hin, ?_, ?_⟩, Or.inr ?_, ?_⟩
    · exact fun b hb => h.allocated b ((hmem b).mp hb).2
    · have hcount := h.count
      have hlen := hperm.length_eq
      rw [length_inorder, List.length_cons, length_inorder] at hlen
      rw [hlen] at hcount
      change t.nodeCount + -1 = _
      rw [hcount, UInt32.ofNat_add, UInt32.add_assoc, show UInt32.ofNat 1 + -1 = 0 from rfl,
        UInt32.add_zero]
    · exact ⟨a, hperm.mem_iff.mpr (List.mem_cons_self ..), hk, hmem, rfl⟩
    · intro b hb hkb
      obtain rfl : b = a := h.sorted.eq_of_key hb (hperm.mem_iff.mpr (List.mem_cons_self ..))
        (hkb.trans hk.symm)
      have hsub : (plug (node d l b r) D).subtree b = node d l b r := by
        rw [subtree_plug (by simp [inorder]) D hs.nodup, subtree, if_pos rfl]
      rw [hsub]
      exact ⟨q, hs'.sentinel_run, hq⟩
  · rw [if_pos rfl]
    exact Yields.pure ⟨c, h, Or.inl ⟨rfl, rfl, habs⟩, fun a ha hk => absurd hk (habs a ha)⟩

lemma delete_spec (h : Holds o t c) (v : T) :
    Yields (delete o v) t fun _ t' => ∃ c', Holds o t' c' ∧ Deleted o v t c t' c' ∧
      ∀ a ∈ c.inorder, t.keyAt o a = o.key v → ∃ q,
        t'.graph.links .sentinel = some (sentinelLinks q) ∧ Marks (c.subtree a).vacated c' q :=
  (Checked.delete_spec h v).erase (Checked.erases_delete v)

end Deletion

section Clearing

variable {t : LinkedTree T} {c : ColorTree ℕ}

lemma resetSentinel_spec {g : Graph} {k : Links} (h : Describes g.links (cell .sentinel k))
    (hk : k.color = .black) :
    Yields resetSentinel g fun _ g' => Shows g' .leaf [] .sentinel 0 := by
  have h0 : Describes g.links (cell .sentinel k + 0) := h
  have h1 := h0.write rfl { k with parent := .sentinel }
  have h2 := h1.write rfl ({ k with parent := .sentinel }.setChild .left .sentinel)
  have h3 := h2.write rfl (({ k with parent := .sentinel }.setChild .left .sentinel).setChild
    .right .sentinel)
  rw [resetSentinel]
  apply Yields.step (writeLinks_run (h0.read rfl))
  apply Yields.step (writeLinks_run (h1.read rfl))
  apply Yields.step (writeLinks_run (h2.read rfl))
  refine Yields.of_eq rfl ⟨h3.congr ?_, rfl⟩
  obtain ⟨_, _, _, _⟩ := k
  obtain rfl := hk
  rfl

lemma clear_spec (h : Holds o t c) :
    Yields (clear : TreeProgram T Unit) t fun _ t' => Holds o t' .leaf ∧
      t'.graph.links .sentinel = some (sentinelLinks .sentinel) := by
  obtain ⟨p, hs⟩ := h.shows
  have hd : Describes t.graph.links (treeCells .sentinel c + cell .sentinel (sentinelLinks p)) := by
    apply hs.describes.congr
    rw [contextCells, contextPtr, add_zero, add_zero, add_comm]
  rw [clear]
  refine Yields.step rfl (Yields.step (onGraph_run hs.root_run) ?_)
  apply (onGraph_yields (clearAux_spec hd h.height_lt)).bind
  rintro _ _ ⟨g1, h1, rfl⟩
  apply (onGraph_yields (resetSentinel_spec h1 rfl)).bind
  rintro _ _ ⟨g2, h2, rfl⟩
  refine Yields.of_eq rfl ⟨⟨⟨_, h2⟩, ⟨rfl, trivial, 0, rfl⟩, List.Pairwise.nil, ?_, rfl⟩,
    h2.sentinel_run⟩
  exact fun a ha => absurd ha List.not_mem_nil

lemma create_holds [Inhabited T] : Holds o (create : LinkedTree T) .leaf := by
  refine ⟨⟨.sentinel, ?_, rfl⟩, ⟨rfl, trivial, 0, rfl⟩, List.Pairwise.nil, ?_, rfl⟩
  · have h : Describes (fun _ => none : Ptr → Option Links) 0 :=
      ⟨Multiset.nodup_zero, fun a v => by simp⟩
    exact h.allocate rfl _
  · exact fun a ha => absurd ha List.not_mem_nil

end Clearing

end Xty.RbTree
