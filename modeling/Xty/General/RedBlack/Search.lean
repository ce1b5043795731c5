import Xty.General.RedBlack.Tree

/-! Trees sorted by a key, and the contexts that a search for a key passes through. -/

namespace Xty.General.RedBlack

open ColorTree

variable {α κ : Type} [LinearOrder κ] {f : α → κ} {k : κ} {c : Color} {l r : ColorTree α} {a : α}
  {C : Context α}

def Sorted (f : α → κ) (t : ColorTree α) : Prop := t.inorder.Pairwise fun a b => f a < f b

def Around (f : α → κ) (k : κ) (C : Context α) : Prop :=
  (∀ a ∈ before C, f a < k) ∧ ∀ a ∈ after C, k < f a

lemma around_nil : Around f k ([] : Context α) := ⟨by simp [before], by simp [after]⟩

lemma Sorted.children (h : Sorted f (plug (node c l a r) C)) :
    (∀ b ∈ l.inorder, f b < f a) ∧ ∀ b ∈ r.inorder, f a < f b := by
  rw [Sorted, inorder_plug, List.pairwise_append, List.pairwise_append] at h
  obtain ⟨⟨_, h, _⟩, _⟩ := h
  rw [inorder, List.pairwise_append, List.pairwise_cons] at h
  exact ⟨fun b hb => h.2.2 b hb a (by simp), h.2.1.1⟩

lemma Around.left (h : Around f k C) (hs : Sorted f (plug (node c l a r) C)) (hk : k < f a) :
    Around f k (⟨.left, c, a, r⟩ :: C) := by
  refine ⟨by simpa [before, Frame.before] using h.1, ?_⟩
  intro b hb
  simp only [after, Frame.after, List.mem_append, List.mem_cons] at hb
  rcases hb with (rfl | hb) | hb
  · exact hk
  · exact hk.trans (hs.children.2 b hb)
  · exact h.2 b hb

lemma Around.right (h : Around f k C) (hs : Sorted f (plug (node c l a r) C)) (hk : f a < k) :
    Around f k (⟨.right, c, a, l⟩ :: C) := by
  refine ⟨?_, by simpa [after, Frame.after] using h.2⟩
  intro b hb
  simp only [before, Frame.before, List.mem_append, List.mem_singleton] at hb
  rcases hb with hb | hb | rfl
  · exact h.1 b hb
  · exact (hs.children.1 b hb).trans hk
  · exact hk

lemma perm_place : (plug (node c leaf a leaf) C).inorder.Perm (a :: (plug leaf C).inorder) := by
  rw [inorder_plug, inorder_plug]
  simp only [inorder, List.nil_append, List.append_nil, List.append_assoc, List.cons_append]
  exact List.perm_middle

lemma perm_removed {t : ColorTree α}
    (ht : t.inorder = before C ++ (l.inorder ++ r.inorder) ++ after C) :
    (plug (node c l a r) C).inorder.Perm (a :: t.inorder) := by
  rw [inorder_plug, ht, inorder]
  simp only [List.append_assoc, List.cons_append]
  rw [← List.append_assoc, ← List.append_assoc (before C)]
  exact List.perm_middle

lemma Sorted.removed {t : ColorTree α} (hs : Sorted f (plug (node c l a r) C))
    (ht : t.inorder = before C ++ (l.inorder ++ r.inorder) ++ after C) : Sorted f t := by
  rw [Sorted, inorder_plug, inorder] at hs
  rw [Sorted, ht]
  refine hs.sublist ?_
  apply List.Sublist.append_right
  apply List.Sublist.append_left
  apply List.Sublist.append_left
  exact List.sublist_cons_self _ _

lemma Around.absent (h : Around f k C) : ∀ a ∈ (plug .leaf C).inorder, f a ≠ k := by
  intro a ha
  rw [inorder_plug, inorder, List.append_nil, List.mem_append] at ha
  rcases ha with ha | ha
  · exact (h.1 a ha).ne
  · exact (h.2 a ha).ne'

lemma Sorted.place (hs : Sorted f (plug .leaf C)) (h : Around f (f a) C) (c : Color) :
    Sorted f (plug (.node c .leaf a .leaf) C) := by
  rw [Sorted, inorder_plug, inorder, List.append_nil, List.pairwise_append] at hs
  rw [Sorted, inorder_plug, inorder, inorder, List.nil_append, List.append_assoc,
    List.pairwise_append, List.singleton_append, List.pairwise_cons]
  refine ⟨hs.1, ⟨h.2, hs.2.1⟩, ?_⟩
  intro b hb d hd
  rcases List.mem_cons.mp hd with rfl | hd
  · exact h.1 b hb
  · exact hs.2.2 b hb d hd

lemma Sorted.eq_of_key {t : ColorTree α} (hs : Sorted f t) {a b : α} (ha : a ∈ t.inorder)
    (hb : b ∈ t.inorder) (he : f a = f b) : a = b := by
  have hn : (t.inorder.map f).Nodup := List.pairwise_map.mpr (hs.imp fun h => h.ne)
  exact List.inj_on_of_nodup_map hn ha hb he

end Xty.General.RedBlack
