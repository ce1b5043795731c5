import Xty.General.RedBlack.Tree

/-! A tree read towards one of its two sides, and what is left to read at a position in it. -/

namespace Xty.General.RedBlack

open ColorTree

variable {α : Type} {s : Side}

def ColorTree.walk (s : Side) (t : ColorTree α) : List α :=
  match s with
  | .left => t.inorder.reverse
  | .right => t.inorder

/-- What a walk towards `s` meets behind the hole. -/
def ahead (s : Side) : Context α → List α
  | [] => []
  | f :: C => if f.side = s then ahead s C else f.value :: (f.sibling.walk s ++ ahead s C)

@[simp] lemma walk_leaf : (leaf : ColorTree α).walk s = [] := by cases s <;> rfl

lemma walk_link (c : Color) (t : ColorTree α) (a : α) (u : ColorTree α) :
    (link s.other c t a u).walk s = t.walk s ++ a :: u.walk s := by
  cases s <;> simp [walk, link, inorder, Side.other]

lemma walk_other (t : ColorTree α) : (t.walk s.other).reverse = t.walk s := by
  cases s <;> simp [walk, Side.other]

lemma mem_walk {t : ColorTree α} {a : α} : a ∈ t.walk s ↔ a ∈ t.inorder := by
  cases s <;> simp [walk]

lemma length_walk (t : ColorTree α) : (t.walk s).length = t.size := by
  rw [← length_inorder]
  cases s <;> simp [walk]

lemma nodup_walk {t : ColorTree α} : (t.walk s).Nodup ↔ t.inorder.Nodup := by
  cases s <;> simp [walk]

lemma ahead_near {f : Frame α} {C : Context α} (h : f.side = s) : ahead s (f :: C) = ahead s C :=
  if_pos h

lemma ahead_far {f : Frame α} {C : Context α} (h : f.side = s.other) :
    ahead s (f :: C) = f.value :: (f.sibling.walk s ++ ahead s C) :=
  if_neg (by rw [h]; cases s <;> simp [Side.other])

lemma walk_fill_near {f : Frame α} (h : f.side = s) (t : ColorTree α) :
    (f.fill t).walk s = f.sibling.walk s ++ f.value :: t.walk s := by
  rw [Frame.fill, h, ← link_other, walk_link]

lemma walk_fill_far {f : Frame α} (h : f.side = s.other) (t : ColorTree α) :
    (f.fill t).walk s = t.walk s ++ f.value :: f.sibling.walk s := by
  rw [Frame.fill, h, walk_link]

lemma walk_plug (t : ColorTree α) (C : Context α) :
    (plug t C).walk s = (ahead s.other C).reverse ++ t.walk s ++ ahead s C := by
  induction C generalizing t with
  | nil => simp [plug, ahead]
  | cons f C ih =>
    rw [plug, ih]
    by_cases h : f.side = s
    · have hf : f.side = s.other.other := by rw [h, Side.other_other]
      rw [walk_fill_near h, ahead_near h, ahead_far hf, List.reverse_cons, List.reverse_append,
        walk_other]
      simp only [List.append_assoc, List.cons_append, List.nil_append]
    · have hf : f.side = s.other := Side.eq_other_of_ne h
      rw [walk_fill_far hf, ahead_far hf, ahead_near hf]
      simp only [List.append_assoc, List.cons_append]

lemma ahead_eq_nil {C : Context α} (h : ∀ f ∈ C, f.side = s) : ahead s C = [] := by
  induction C with
  | nil => rfl
  | cons f C ih =>
    rw [ahead_near (h f (by simp))]
    exact ih fun g hg => h g (List.mem_cons_of_mem _ hg)

lemma exists_plug_of_mem {t : ColorTree α} {a : α} (h : a ∈ t.inorder) :
    ∃ c l r C, t = plug (node c l a r) C := by
  induction t with
  | leaf => cases h
  | node c l b r ihl ihr =>
    rw [inorder, List.mem_append, List.mem_cons] at h
    rcases h with h | rfl | h
    · obtain ⟨d, l', r', C, rfl⟩ := ihl h
      exact ⟨d, l', r', C ++ [⟨.left, c, b, r⟩], by rw [plug_append]; rfl⟩
    · exact ⟨c, l, r, [], rfl⟩
    · obtain ⟨d, l', r', C, rfl⟩ := ihr h
      exact ⟨d, l', r', C ++ [⟨.right, c, b, l⟩], by rw [plug_append]; rfl⟩

/-- The subtree below a value of a tree without repetitions. -/
def ColorTree.subtree [DecidableEq α] (a : α) : ColorTree α → ColorTree α
  | leaf => leaf
  | node c l b r =>
    if b = a then node c l b r else if a ∈ l.inorder then subtree a l else subtree a r

lemma subtree_fill [DecidableEq α] {a : α} {f : Frame α} {t : ColorTree α} (ha : a ∈ t.inorder)
    (hn : (f.fill t).inorder.Nodup) : (f.fill t).subtree a = t.subtree a := by
  rcases f with ⟨_ | _, c, b, u⟩
  · rw [Frame.fill, link, inorder, List.nodup_middle, List.nodup_cons] at hn
    have hb : b ≠ a := fun he => hn.1 (by simp [he, ha])
    rw [Frame.fill, link, subtree, if_neg hb, if_pos ha]
  · rw [Frame.fill, link, inorder, List.nodup_middle, List.nodup_cons] at hn
    have hb : b ≠ a := fun he => hn.1 (by simp [he, ha])
    have hu : a ∉ u.inorder := fun hau => (List.nodup_append.mp hn.2).2.2 a hau a ha rfl
    rw [Frame.fill, link, subtree, if_neg hb, if_neg hu]

lemma subtree_plug [DecidableEq α] {a : α} {t : ColorTree α} (ha : a ∈ t.inorder) (C : Context α)
    (hn : (plug t C).inorder.Nodup) : (plug t C).subtree a = t.subtree a := by
  induction C generalizing t with
  | nil => rfl
  | cons f C ih =>
    rw [plug] at hn ⊢
    have hf : a ∈ (f.fill t).inorder := by
      rw [Frame.inorder_fill]
      simp [ha]
    have hfn : (f.fill t).inorder.Nodup := by
      rw [inorder_plug, List.append_assoc] at hn
      exact (List.nodup_append.mp (List.nodup_append.mp hn).2.1).1
    rw [ih hf hn, subtree_fill ha hfn]

lemma walk_plug_node (c : Color) (l : ColorTree α) (a : α) (r : ColorTree α) (C : Context α) :
    (plug (node c l a r) C).walk s
      = (ahead s.other C).reverse ++ ((node c l a r).child s.other).walk s
        ++ a :: (((node c l a r).child s).walk s ++ ahead s C) := by
  have hn : node c l a r
      = link s.other c ((node c l a r).child s.other) a ((node c l a r).child s) := by
    cases s <;> rfl
  rw [walk_plug, hn, walk_link, ← hn]
  simp only [List.append_assoc, List.cons_append]

end Xty.General.RedBlack
