import Mathlib.Data.List.Flatten
import Mathlib.Tactic

/-! Frames written to a stream that may take any number of the bytes it is given. -/

namespace Xty.General.Frames

variable {α : Type}

/-- The frame that was offered, and how many of its elements the stream took. -/
structure Attempt (α : Type) where
  frame : List α
  taken : ℕ
deriving DecidableEq, Repr

namespace Attempt

def accepted (w : Attempt α) : List α := w.frame.take w.taken

def Whole (w : Attempt α) : Prop := w.taken = 0 ∨ w.frame.length ≤ w.taken

lemma accepted_ne_nil {w : Attempt α} (h : ¬ w.Whole) : w.accepted ≠ [] := by
  obtain ⟨hpos, hlt⟩ := not_or.mp h
  rw [accepted, Ne, List.take_eq_nil_iff, not_or]
  exact ⟨hpos, List.ne_nil_of_length_pos (by omega)⟩

instance (w : Attempt α) : Decidable w.Whole := inferInstanceAs (Decidable (_ ∨ _))

end Attempt

def written (ws : List (Attempt α)) : List α := ws.flatMap Attempt.accepted

def offered (ws : List (Attempt α)) : List (List α) := ws.map Attempt.frame

/-- At all times the stream is a row of whole frames, in their order, with at most a part of the
next one behind it, and it goes on with the rest of that one. -/
def InFrames (ws : List (Attempt α)) : Prop :=
  ∀ us, us <+: ws → ∃ (fs : List (List α)) (f : List α),
    (fs.Sublist (offered us) ∧ f = [] ∨ (fs ++ [f]).Sublist (offered us)) ∧
    fs.flatten <+: written us ∧ written us <+: fs.flatten ++ f ∧
    (written ws <+: fs.flatten ++ f ∨ fs.flatten ++ f <+: written ws)

def Untorn (ws : List (Attempt α)) : Prop := ws.Pairwise fun v w => w.accepted ≠ [] → v.Whole

section Frames

variable {ws us vs : List (Attempt α)} {w : Attempt α}

lemma written_append (us vs : List (Attempt α)) : written (us ++ vs) = written us ++ written vs :=
  List.flatMap_append

lemma written_prefix (h : us <+: ws) : written us <+: written ws := by
  obtain ⟨vs, rfl⟩ := h
  exact ⟨written vs, (written_append us vs).symm⟩

lemma written_whole (h : ∀ w ∈ ws, w.Whole) :
    ∃ fs : List (List α), fs.Sublist (offered ws) ∧ written ws = fs.flatten := by
  induction ws with
  | nil => exact ⟨[], List.Sublist.slnil, rfl⟩
  | cons w ws ih =>
    obtain ⟨fs, hsub, hs⟩ := ih fun v hv => h v (List.mem_cons_of_mem _ hv)
    have hcons : written (w :: ws) = w.accepted ++ written ws := rfl
    rcases h w List.mem_cons_self with hw | hw
    · refine ⟨fs, hsub.cons _, ?_⟩
      rw [hcons, hs, Attempt.accepted, hw, List.take_zero, List.nil_append]
    · refine ⟨w.frame :: fs, hsub.cons_cons _, ?_⟩
      rw [hcons, hs, Attempt.accepted, List.take_of_length_le hw, List.flatten_cons]

lemma parts_offered {fs : List (List α)} {f : List α}
    (h : fs.Sublist (offered ws) ∧ f = [] ∨ (fs ++ [f]).Sublist (offered ws)) :
    fs.Sublist (offered ws) ∧ f ∈ [] :: offered ws := by
  rcases h with ⟨hsub, rfl⟩ | hsub
  · exact ⟨hsub, List.mem_cons_self⟩
  · have hf : f ∈ offered ws := hsub.subset (List.mem_append_right _ List.mem_cons_self)
    exact ⟨(List.sublist_append_left _ _).trans hsub, List.mem_cons_of_mem _ hf⟩

lemma untorn_append_singleton :
    Untorn (ws ++ [w]) ↔ Untorn ws ∧ (w.accepted ≠ [] → ∀ v ∈ ws, v.Whole) := by
  simp only [Untorn, List.pairwise_append, List.pairwise_singleton, List.mem_singleton, true_and,
    forall_eq]
  exact and_congr_right fun _ => ⟨fun h hw v hv => h v hv hw, fun h v hv hw => h hw v hv⟩

lemma Untorn.around (h : Untorn (us ++ w :: vs)) (hw : ¬ w.Whole) :
    (∀ v ∈ us, v.Whole) ∧ ∀ v ∈ vs, v.accepted = [] := by
  obtain ⟨_, hafter, hbefore⟩ := List.pairwise_append.mp h
  have hne := Attempt.accepted_ne_nil hw
  refine ⟨fun v hv => hbefore v hv w List.mem_cons_self hne, fun v hv => ?_⟩
  by_contra hne
  exact hw ((List.pairwise_cons.mp hafter).1 v hv hne)

lemma Untorn.inFrames (h : Untorn ws) : InFrames ws := by
  intro us hus
  by_cases hall : ∀ w ∈ us, w.Whole
  · obtain ⟨fs, hsub, hs⟩ := written_whole hall
    refine ⟨fs, [], Or.inl ⟨hsub, rfl⟩, ?_, ?_, Or.inr ?_⟩
    · exact hs ▸ List.prefix_rfl
    · exact (hs.trans (List.append_nil _).symm) ▸ List.prefix_rfl
    · rw [List.append_nil, ← hs]
      exact written_prefix hus
  · push Not at hall
    obtain ⟨w, hmem, hw⟩ := hall
    obtain ⟨xs, ys, rfl⟩ := List.append_of_mem hmem
    obtain ⟨zs, rfl⟩ := hus
    rw [List.append_assoc, List.cons_append] at h ⊢
    obtain ⟨hbefore, hafter⟩ := h.around hw
    obtain ⟨fs, hsub, hs⟩ := written_whole hbefore
    have hwritten : ∀ vs : List (Attempt α), (∀ v ∈ vs, v.accepted = []) →
        written (xs ++ w :: vs) = fs.flatten ++ w.frame.take w.taken := by
      intro vs hvs
      have hnone : written vs = [] := List.flatMap_eq_nil_iff.mpr hvs
      rw [written_append, hs, ← List.singleton_append, written_append, hnone, List.append_nil]
      simp [written, Attempt.accepted]
    have hys : ∀ v ∈ ys, v.accepted = [] := fun v hv => hafter v (List.mem_append_left _ hv)
    have hpart : fs.flatten ++ w.frame.take w.taken <+: fs.flatten ++ w.frame :=
      (List.prefix_append_right_inj _).mpr (List.take_prefix _ _)
    refine ⟨fs, w.frame, Or.inr ?_, ?_, ?_, Or.inl ?_⟩
    · rw [offered, List.map_append]
      exact hsub.append (List.singleton_sublist.mpr List.mem_cons_self)
    · rw [hwritten ys hys]
      exact List.prefix_append _ _
    · rw [hwritten ys hys]
      exact hpart
    · rw [hwritten _ hafter]
      exact hpart

end Frames

section Marks

/-- Every element of a frame stands for itself: the number of its frame and its place there. -/
def Attempt.mark (i : ℕ) (w : Attempt α) : Attempt (ℕ × ℕ) :=
  ⟨(List.range w.frame.length).map (i, ·), w.taken⟩

def mark (ws : List (Attempt α)) : List (Attempt (ℕ × ℕ)) := ws.mapIdx Attempt.mark

variable {ws : List (Attempt α)} {u v w : Attempt α}

lemma mem_written {x : α} : x ∈ written ws ↔ ∃ w ∈ ws, x ∈ w.accepted := List.mem_flatMap

lemma frames_disjoint (h : (offered ws).flatten.Nodup) :
    ws.Pairwise fun v w => v.frame.Disjoint w.frame :=
  List.pairwise_map.mp (List.nodup_flatten.mp h).2

lemma eq_of_mem_frame (h : (offered ws).flatten.Nodup) (hv : v ∈ ws) (hw : w ∈ ws) {x : α}
    (hxv : x ∈ v.frame) (hxw : x ∈ w.frame) : v = w := by
  by_contra hne
  have hsymm : Std.Symm fun v w : Attempt α => v.frame.Disjoint w.frame :=
    ⟨fun _ _ => List.Disjoint.symm⟩
  exact (frames_disjoint h).forall hv hw hne hxv hxw

lemma accepted_subset (w : Attempt α) : w.accepted ⊆ w.frame := List.take_subset _ _

lemma last_not_mem (hd : (offered ws).flatten.Nodup) (hv : v ∈ ws) (hp : ¬ v.Whole) :
    ∃ z ∈ v.frame, z ∉ written ws := by
  obtain ⟨_, hlt⟩ := not_or.mp hp
  have hlt := not_le.mp hlt
  refine ⟨v.frame[v.taken], List.getElem_mem _, fun hz => ?_⟩
  obtain ⟨u, hu, hzu⟩ := mem_written.mp hz
  obtain rfl := eq_of_mem_frame hd hu hv (accepted_subset u hzu) (List.getElem_mem _)
  obtain ⟨i, hi, hiz⟩ := List.mem_take_iff_getElem.mp hzu
  have hnd : u.frame.Nodup := (List.nodup_flatten.mp hd).1 _ (List.mem_map_of_mem hu)
  have hit := (hnd.getElem_inj_iff).mp hiz
  omega

lemma InFrames.split (h : InFrames ws) : ∃ (fs : List (List α)) (f part : List α),
    fs.Sublist (offered ws) ∧ f ∈ [] :: offered ws ∧ written ws = fs.flatten ++ part ∧
      part ⊆ f := by
  obtain ⟨fs, f, hnext, ⟨part, hpart⟩, ⟨rest, hrest⟩, _⟩ := h ws List.prefix_rfl
  obtain ⟨hsub, hf⟩ := parts_offered hnext
  rw [← hpart, List.append_assoc, List.append_cancel_left_eq] at hrest
  exact ⟨fs, f, part, hsub, hf, hpart.symm, hrest ▸ List.subset_append_left _ _⟩

lemma frame_mem (hd : (offered ws).flatten.Nodup) {fs : List (List α)} (hsub : fs ⊆ offered ws)
    (hv : v ∈ ws) {x : α} (hx : x ∈ v.frame) (hm : x ∈ fs.flatten) : v.frame ∈ fs := by
  obtain ⟨l, hl, hxl⟩ := List.mem_flatten.mp hm
  obtain ⟨u, hu, rfl⟩ := List.mem_map.mp (hsub hl)
  obtain rfl := eq_of_mem_frame hd hu hv hxl hx
  exact hl

lemma InFrames.untorn (hd : (offered ws).flatten.Nodup) (h : InFrames ws) : Untorn ws := by
  rw [Untorn, List.pairwise_iff_forall_sublist]
  intro v w hvw hw
  by_contra hv
  have hvm : v ∈ ws := hvw.subset List.mem_cons_self
  obtain ⟨x, hx⟩ := List.exists_mem_of_ne_nil _ (Attempt.accepted_ne_nil hv)
  obtain ⟨y, hy⟩ := List.exists_mem_of_ne_nil _ hw
  have hxy : [x, y].Sublist (written ws) :=
    ((List.singleton_sublist.mpr hx).append (List.singleton_sublist.mpr hy)).trans <| by
      simpa [written] using hvw.flatMap Attempt.accepted
  obtain ⟨fs, f, part, hsub, hf, hsplit, hpart⟩ := h.split
  -- the torn frame is not one of the whole ones, so it is the one that the stream ends in
  have hxfs : x ∉ fs.flatten := by
    intro hm
    obtain ⟨z, hz, hzs⟩ := last_not_mem hd hvm hv
    have hfs := frame_mem hd hsub.subset hvm (accepted_subset v hx) hm
    exact hzs (hsplit ▸ List.mem_append_left _ (List.mem_flatten.mpr ⟨_, hfs, hz⟩))
  have hxp : x ∈ part := by
    have hxs : x ∈ fs.flatten ++ part := hsplit ▸ hxy.subset List.mem_cons_self
    exact (List.mem_append.mp hxs).resolve_left hxfs
  have hyp : y ∉ part := by
    intro hm
    rcases List.mem_cons.mp hf with rfl | hf
    · cases hpart hm
    · obtain ⟨u, hu, rfl⟩ := List.mem_map.mp hf
      obtain rfl := eq_of_mem_frame hd hu hvm (hpart hxp) (accepted_subset v hx)
      have hdis : u.frame.Disjoint w.frame :=
        List.pairwise_iff_forall_sublist.mp (frames_disjoint hd) hvw
      exact hdis (hpart hm) (accepted_subset w hy)
  rw [hsplit, List.sublist_append_iff] at hxy
  obtain ⟨l, l', heq, hl, hl'⟩ := hxy
  cases l with
  | nil =>
    obtain rfl : [x, y] = l' := heq
    exact hyp (hl'.subset (List.mem_cons_of_mem _ List.mem_cons_self))
  | cons a l =>
    obtain ⟨rfl, _⟩ := List.cons.inj heq
    exact hxfs (hl.subset List.mem_cons_self)

lemma mem_mark {i : ℕ} {p : ℕ × ℕ} (h : p ∈ (w.mark i).frame) : p.1 = i := by
  obtain ⟨j, _, rfl⟩ := List.mem_map.mp h
  rfl

lemma mark_distinct (ws : List (Attempt α)) : (offered (mark ws)).flatten.Nodup := by
  rw [List.nodup_flatten]
  constructor
  · intro l hl
    obtain ⟨_, hw, rfl⟩ := List.mem_map.mp hl
    obtain ⟨i, hi, rfl⟩ := List.mem_mapIdx.mp hw
    exact List.nodup_range.map (Prod.mk_right_injective i)
  · rw [offered, List.pairwise_map, List.pairwise_iff_getElem]
    intro i j hi hj hij p hpi hpj
    simp only [mark, List.getElem_mapIdx] at hpi hpj
    exact hij.ne ((mem_mark hpi).symm.trans (mem_mark hpj))

lemma mark_accepted {i : ℕ} : (w.mark i).accepted = [] ↔ w.accepted = [] := by
  simp [Attempt.accepted, Attempt.mark, List.take_eq_nil_iff]

lemma mark_whole {i : ℕ} : (w.mark i).Whole ↔ w.Whole := by
  simp [Attempt.Whole, Attempt.mark]

lemma untorn_mark : Untorn (mark ws) ↔ Untorn ws := by
  simp only [Untorn, mark, List.pairwise_iff_getElem, List.getElem_mapIdx, List.length_mapIdx,
    Ne, mark_accepted, mark_whole]

lemma inFrames_mark : InFrames (mark ws) ↔ Untorn ws :=
  ⟨fun h => untorn_mark.mp (h.untorn (mark_distinct ws)),
    fun h => (untorn_mark.mpr h).inFrames⟩

end Marks

end Xty.General.Frames
