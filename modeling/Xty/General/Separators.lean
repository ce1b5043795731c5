import Mathlib.Data.List.TakeWhile
import Mathlib.Tactic

/-! Lists whose parts a separator keeps apart. -/

namespace Xty.General.Separators

section Separated

variable {α : Type} {a : α}

lemma intercalate_append_singleton {parts : List (List α)} (hne : parts ≠ []) (last : List α) :
    [a].intercalate (parts ++ [last]) = [a].intercalate parts ++ a :: last := by
  induction parts with
  | nil => exact absurd rfl hne
  | cons part parts ih =>
    cases parts with
    | nil => simp
    | cons part' parts =>
      have hih := ih (List.cons_ne_nil _ _)
      rw [List.cons_append, List.cons_append, List.intercalate_cons_cons, ← List.cons_append, hih,
        List.intercalate_cons_cons, List.append_assoc, List.append_assoc, List.append_assoc]

variable [BEq α] [LawfulBEq α] {s x x' y y' : List α}

lemma append_separator_inj (hx : a ∉ x) (hx' : a ∉ x') :
    x ++ a :: y = x' ++ a :: y' ↔ x = x' ∧ y = y' := by
  constructor
  · intro h
    have hsplit := congrArg (List.splitOn a) h
    rw [List.splitOn_append_cons_self_of_not_mem hx, List.splitOn_append_cons_self_of_not_mem hx']
      at hsplit
    obtain rfl := (List.cons.inj hsplit).1
    exact ⟨rfl, (List.cons.inj (List.append_cancel_left h)).2⟩
  · rintro ⟨rfl, rfl⟩
    rfl

lemma mem_splitOn {part : List α} (h : part ∈ s.splitOn a) : a ∉ part ∧ part ⊆ s := by
  induction s generalizing part with
  | nil =>
    obtain rfl : part = [] := by simpa using h
    simp
  | cons c s ih =>
    rw [List.splitOn_cons_eq_if_modifyHead] at h
    split_ifs at h with hc
    · rcases List.mem_cons.mp h with rfl | h
      · simp
      · exact ⟨(ih h).1, List.subset_cons_of_subset c (ih h).2⟩
    · obtain ⟨first, others, hparts⟩ := List.exists_cons_of_ne_nil (List.splitOn_ne_nil a s)
      rw [hparts] at h ih
      rcases List.mem_cons.mp h with rfl | h
      · obtain ⟨hn, hsub⟩ := ih List.mem_cons_self
        refine ⟨?_, List.cons_subset_cons c hsub⟩
        rw [List.mem_cons, not_or]
        exact ⟨fun he => hc (by simp [he]), hn⟩
      · obtain ⟨hn, hsub⟩ := ih (List.mem_cons_of_mem _ h)
        exact ⟨hn, List.subset_cons_of_subset c hsub⟩

/-- Without its last part the row is shorter than the list, unless that is empty. -/
lemma intercalate_dropLast_eq_iff :
    [a].intercalate (s.splitOn a).dropLast = s ↔ s = [] := by
  constructor
  · intro h
    by_cases hinit : (s.splitOn a).dropLast = []
    · rw [hinit] at h
      exact h.symm
    · have hs : [a].intercalate (s.splitOn a) = s := List.intercalate_splitOn a
      rw [← List.dropLast_append_getLast (List.splitOn_ne_nil a s),
        intercalate_append_singleton hinit, h] at hs
      exact absurd hs (by simp)
  · rintro rfl
    rfl

end Separated

section Tokens

variable {α : Type} {p : α → Bool} {s w rest blank : List α}

/-- The longest parts that `p` holds nowhere in. -/
def tokens (p : α → Bool) (s : List α) : List (List α) := (s.splitOnP p).filter fun w => !w.isEmpty

def Token (p : α → Bool) (w : List α) : Prop := w ≠ [] ∧ ∀ c ∈ w, p c = false

@[simp]
lemma tokens_nil : tokens p [] = [] := by
  simp [tokens]

lemma tokens_cons (c : α) (hc : p c) : tokens p (c :: s) = tokens p s := by
  rw [tokens, ← List.nil_append (c :: s), List.splitOnP_append_cons_of_forall_mem (by simp) c hc]
  rfl

lemma tokens_blank (hb : ∀ c ∈ blank, p c) : tokens p (blank ++ s) = tokens p s := by
  induction blank with
  | nil => rfl
  | cons c blank ih =>
    obtain ⟨hc, hb⟩ := List.forall_mem_cons.mp hb
    rw [List.cons_append, tokens_cons c hc, ih hb]

lemma tokens_token (hw : Token p w) (hrest : ∀ c ∈ rest.head?, p c) :
    tokens p (w ++ rest) = w :: tokens p rest := by
  cases rest with
  | nil =>
    rw [List.append_nil, tokens, List.splitOnP_eq_singleton hw.2, tokens_nil]
    simp [hw.1]
  | cons c rest =>
    have hc : p c := hrest c rfl
    rw [tokens_cons c hc, tokens, List.splitOnP_append_cons_of_forall_mem hw.2 c hc]
    simp [hw.1, tokens]

lemma exists_split (p : α → Bool) (s : List α) :
    ∃ blank rest, s = blank ++ rest ∧ (∀ c ∈ blank, p c) ∧ ∀ c ∈ rest.head?, p c = false := by
  refine ⟨s.takeWhile p, s.dropWhile p, (List.takeWhile_append_dropWhile).symm,
    fun c hc => List.mem_takeWhile_imp hc, fun c hc => ?_⟩
  have hnot := List.head?_dropWhile_not p s
  rw [hc] at hnot
  simpa using hnot

lemma first_token (p : α → Bool) (s : List α) :
    (∀ c ∈ s, p c) ∨ ∃ blank w rest, s = blank ++ (w ++ rest) ∧ (∀ c ∈ blank, p c) ∧ Token p w ∧
      ∀ c ∈ rest.head?, p c := by
  obtain ⟨blank, s', rfl, hblank, hs'⟩ := exists_split p s
  obtain ⟨w, rest, rfl, hw, hrest⟩ := exists_split (fun c => !p c) s'
  have hhead : ∀ c ∈ rest.head?, p c := fun c hc => by simpa using hrest c hc
  by_cases hne : w = []
  · subst hne
    cases rest with
    | nil => exact Or.inl (by simpa using hblank)
    | cons c rest => exact absurd (hs' c rfl) (by simp [hhead c rfl])
  · exact Or.inr ⟨blank, w, rest, rfl, hblank, ⟨hne, fun c hc => by simpa using hw c hc⟩, hhead⟩

lemma tokens_eq_nil_iff : tokens p s = [] ↔ ∀ c ∈ s, p c := by
  constructor
  · intro h
    rcases first_token p s with hs | ⟨blank, w, rest, rfl, hblank, hw, hrest⟩
    · exact hs
    · rw [tokens_blank hblank, tokens_token hw hrest] at h
      cases h
  · intro hs
    rw [← List.append_nil s, tokens_blank hs, tokens_nil]

lemma tokens_eq_cons {ws : List (List α)} (h : tokens p s = w :: ws) :
    ∃ blank rest, s = blank ++ (w ++ rest) ∧ (∀ c ∈ blank, p c) ∧ Token p w ∧
      (∀ c ∈ rest.head?, p c) ∧ tokens p rest = ws := by
  rcases first_token p s with hs | ⟨blank, w', rest, rfl, hblank, hw, hrest⟩
  · rw [tokens_eq_nil_iff.mpr hs] at h
    cases h
  · rw [tokens_blank hblank, tokens_token hw hrest] at h
    obtain ⟨rfl, rfl⟩ := List.cons.inj h
    exact ⟨blank, rest, rfl, hblank, hw, hrest, rfl⟩

end Tokens

end Xty.General.Separators
