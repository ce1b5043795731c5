import Xty.Arrays.Operations

/-! Every array behaves as a list of its own. -/

namespace Xty.Arrays

open Xty.General.Programs Xty.General.Objects Xty.General.Cursor

variable {ι T : Type}

section Loops

variable {S : Storage T} {b c : ℕ} {vs : List T} {i n : ℕ}

lemma copyElements_spec {k : ℕ} (hb : Holds S b vs) (hc : Holds S c (vs.take i)) (hne : b ≠ c)
    (hroom : S.room[c]? = some k) (hk : vs.length ≤ k) (hi : i + n = vs.length) :
    Yields (copyElements b c i n) S fun _ S' => Holds S' c vs ∧ OnlyIn {c} S S' := by
  induction n generalizing i S with
  | zero =>
    refine Yields.pure ⟨?_, OnlyIn.refl _ _⟩
    rwa [← List.take_of_length_le hi.ge]
  | succ n ih =>
    have hlt : i < vs.length := by omega
    have hlen : (vs.take i).length = i := List.length_take_of_le hlt.le
    rw [copyElements]
    apply Yields.step (hb.load (List.getElem?_eq_getElem hlt))
    have hstep := hc.construct hroom (by omega) vs[i]
    rw [hlen, List.take_append_getElem hlt] at hstep
    apply hstep.bind
    rintro _ S1 ⟨h1, ho1⟩
    refine (ih (ho1.holds hne hb) h1 (ho1.room c k hroom) (by omega)).mono ?_
    rintro _ S2 ⟨h2, ho2⟩
    exact ⟨h2, ho1.trans ho2⟩

lemma destructElements_spec (hb : ∀ j, (S.slots ⟨b, j⟩).isSome ↔ i ≤ j ∧ j < i + n) :
    Yields (destructElements b i n) S fun _ S' => Holds S' b ([] : List T) ∧ OnlyIn {b} S S' := by
  induction n generalizing i S with
  | zero =>
    refine Yields.pure ⟨holds_nil.mpr fun j => ?_, OnlyIn.refl _ _⟩
    rw [← Option.not_isSome_iff_eq_none, hb]
    omega
  | succ n ih =>
    rw [destructElements]
    apply (destruct_spec ((hb i).mpr (by omega))).bind
    rintro _ S1 ⟨h1, ho1⟩
    refine (ih fun j => ?_).mono fun _ S2 ⟨h2, ho2⟩ => ⟨h2, ho1.trans ho2⟩
    rw [h1 j]
    split_ifs with hj
    · simp [hj]
    · rw [hb j]
      omega

lemma Holds.destructElements (h : Holds S b vs) :
    Yields (destructElements b 0 vs.length) S
      fun _ S' => Holds S' b ([] : List T) ∧ OnlyIn {b} S S' :=
  destructElements_spec fun j => by
    rw [h.occupied_iff]
    omega

end Loops

/-- The array has this storage for itself, and these are the elements in it. -/
structure Stores (P : Platform) (S : Storage T) (a : ArrayObject) (vs : List T) : Prop where
  count : a.nodeCount = vs.length
  fits : a.nodeCount ≤ a.nodeCapacity
  positive : 0 < a.nodeCapacity
  bounded : 2 * (a.nodeCapacity * P.elementSize) < addressSpace
  room : S.room[a.dataStorage]? = some a.nodeCapacity
  elements : Holds S a.dataStorage vs

def Refuses (P : Platform) (S : Storage T) (alloc n : ℕ) : Prop :=
  P.grants alloc S.room.length (wrap (n * P.elementSize)) = false

def Refers (S : Storage T) : Reference T → T → Prop
  | .outside w, v => w = v
  | .element a, v => (S.slots a).map Object.value = some v

section Members

variable {P : Platform} {S S' : Storage T} {a : ArrayObject} {vs : List T} {v : T}
  {r : Reference T} {B : Set ℕ}

lemma Stores.inside (h : Stores P S a vs) : a.dataStorage < S.room.length :=
  (List.getElem?_eq_some_iff.mp h.room).1

lemma Stores.keep (h : Stores P S a vs) (ho : OnlyIn B S S') (ha : a.dataStorage ∉ B) :
    Stores P S' a vs :=
  ⟨h.count, h.fits, h.positive, h.bounded, ho.room _ _ h.room, ho.holds ha h.elements⟩

lemma Stores.capacity_lt (h : Stores P S a vs) : 2 * a.nodeCapacity < addressSpace :=
  lt_of_le_of_lt (Nat.mul_le_mul_left 2 (Nat.le_mul_of_pos_right _ P.positive)) h.bounded

lemma allocate_spec {alloc n : ℕ} (hS : Ledger S) (hn : n * P.elementSize < addressSpace) :
    Yields (allocate P alloc (wrap (n * P.elementSize))) S fun r S' =>
      r = none ∧ Refuses P S alloc n ∨
      r = some S.room.length ∧ 2 * (n * P.elementSize) < addressSpace ∧
        S'.room[S.room.length]? = some n ∧ Holds S' S.room.length [] ∧ OnlyIn ∅ S S' := by
  have hwrap : wrap (n * P.elementSize) = n * P.elementSize := Nat.mod_eq_of_lt hn
  by_cases hg : P.grants alloc S.room.length (wrap (n * P.elementSize)) = true
  · refine Yields.of_eq (if_pos hg) (Or.inr ⟨rfl, ?_, ?_, hS.holds_fresh, onlyIn_newBlock _ _⟩)
    · rw [hwrap] at hg
      exact P.bounded _ _ _ hg
    · rw [hwrap, Nat.mul_div_cancel _ P.positive]
      exact List.getElem?_concat_length
  · exact Yields.of_eq (if_neg hg) (Or.inl ⟨rfl, Bool.eq_false_of_not_eq_true hg⟩)

lemma create_spec (hS : Ledger S) (alloc : Option ℕ) :
    Yields (ArrayObject.create P alloc) S fun r S' =>
      r = none ∧ (∀ n, alloc = some n → Refuses P S n defaultArraySize) ∨ ∃ a, r = some a ∧
        a.dataStorage = S.room.length ∧ Stores P S' a [] ∧ OnlyIn {a.dataStorage} S S' := by
  cases alloc with
  | none => exact Yields.pure (Or.inl ⟨rfl, fun _ hn => by cases hn⟩)
  | some alloc =>
    rw [ArrayObject.create]
    apply (allocate_spec hS P.fits).bind
    rintro r S1 (⟨rfl, hno⟩ | ⟨rfl, hb, hroom, hvs, ho⟩)
    · exact Yields.pure (Or.inl ⟨rfl, fun n hn => Option.some.inj hn ▸ hno⟩)
    · refine Yields.pure (Or.inr ⟨_, rfl, rfl, ?_, ho.mono (Set.empty_subset _)⟩)
      exact ⟨rfl, Nat.zero_le _, Nat.succ_pos 3, hb, hroom, hvs⟩

lemma copyConstruct_spec (h : Stores P S a vs) (hS : Ledger S) :
    Yields (a.copyConstruct P) S fun r S' => r = none ∧ Refuses P S a.alloc a.nodeCapacity ∨
      ∃ a', r = some a' ∧ a'.dataStorage = S.room.length ∧ Stores P S' a' vs ∧
        OnlyIn {a'.dataStorage} S S' := by
  have hb := h.bounded
  rw [ArrayObject.copyConstruct]
  apply (allocate_spec hS (by omega)).bind
  rintro r S1 (⟨rfl, hno⟩ | ⟨rfl, _, hroom, hvs, ho⟩)
  · exact Yields.pure (Or.inl ⟨rfl, hno⟩)
  rw [h.count]
  have hfits := h.fits
  rw [h.count] at hfits
  have h1 := h.keep ho (Set.notMem_empty _)
  apply (copyElements_spec h1.elements hvs h.inside.ne hroom hfits (Nat.zero_add _)).bind
  rintro _ S2 ⟨h2, ho2⟩
  refine Yields.pure (Or.inr ⟨_, rfl, rfl, ?_, (ho.mono (Set.empty_subset _)).trans ho2⟩)
  exact ⟨rfl, hfits, h.positive, hb, ho2.room _ _ hroom, h2⟩

lemma Refers.deref_run (hr : Refers S r v) : deref r S = some (v, S) := by
  cases r with
  | outside w =>
    obtain rfl := hr
    rfl
  | element a =>
    obtain ⟨o, ho, rfl⟩ := Option.map_eq_some_iff.mp hr
    rw [deref, load, ho]
    rfl

lemma Refers.keep (hr : Refers S r v) (hS : Ledger S) (ho : OnlyIn {S.room.length} S S') :
    Refers S' r v := by
  cases r with
  | outside w => exact hr
  | element a =>
    have ha : a.block ≠ S.room.length := by
      obtain ⟨b, i⟩ := a
      rintro rfl
      rw [Refers, hS.fresh] at hr
      cases hr
    rw [Refers, ho.others a ha]
    exact hr

/-- The elements of one array have moved from the block `b` to the block `b'`. -/
structure Moves (S S' : Storage T) (b b' : ℕ) : Prop where
  only : OnlyIn {b, b'} S S'
  place : b' = b ∨ b' = S.room.length ∧ Holds S' b ([] : List T)

lemma grow_spec (h : Stores P S a vs) (hS : Ledger S) (hr : Refers S r v)
    (hfull : a.nodeCapacity ≤ a.nodeCount) :
    Yields (a.grow P r) S fun res S' =>
      res = none ∧ Refuses P S a.alloc (wrap (a.nodeCapacity * 2)) ∨ ∃ a', res = some a' ∧
      Stores P S' a' (vs ++ [v]) ∧ Moves S S' a.dataStorage a'.dataStorage := by
  have hcap := h.capacity_lt
  have hb := h.bounded
  have hfits := h.fits
  have hpos := h.positive
  have hne := h.inside.ne
  have hwrap : wrap (a.nodeCapacity * 2) = a.nodeCapacity * 2 := Nat.mod_eq_of_lt (by omega)
  have hcount : wrap (a.nodeCount + 1) = a.nodeCount + 1 := Nat.mod_eq_of_lt (by omega)
  have hsize : a.nodeCapacity * 2 * P.elementSize < addressSpace := by
    rwa [mul_comm _ 2, mul_assoc]
  rw [ArrayObject.grow, hwrap]
  apply (allocate_spec hS hsize).bind
  rintro res S1 (⟨rfl, hno⟩ | ⟨rfl, hb1, hroom, hvs, ho⟩)
  · exact Yields.pure (Or.inl ⟨rfl, hno⟩)
  have h1 := h.keep ho (Set.notMem_empty _)
  rw [hcount, h.count]
  -- the copies of the old elements
  apply (copyElements_spec h1.elements hvs hne hroom (by rw [← h.count]; omega)
    (Nat.zero_add _)).bind
  rintro _ S2 ⟨h2, ho2⟩
  have ho12 := (ho.mono (Set.empty_subset {S.room.length})).trans ho2
  -- the pushed value, which may be one of the old elements
  apply Yields.step (hr.keep hS ho12).deref_run
  apply (h2.construct (ho2.room _ _ hroom) (by rw [← h.count]; omega) v).bind
  rintro _ S3 ⟨h3, ho3⟩
  -- the end of the old elements
  have hold : Holds S3 a.dataStorage vs := ho3.holds hne (ho12.holds hne h.elements)
  apply (Holds.destructElements hold).bind
  rintro _ S4 ⟨h4, ho4⟩
  have hnew := ho4.holds (b := S.room.length) hne.symm h3
  refine Yields.pure (Or.inr ⟨_, rfl, ?_, ?_, Or.inr ⟨rfl, h4⟩⟩)
  · refine ⟨by simp, ?_, by simpa using h.positive, hb1, ?_, hnew⟩
    · rw [← h.count]
      change a.nodeCount + 1 ≤ a.nodeCapacity * 2
      omega
    · exact ho4.room _ _ (ho3.room _ _ (ho2.room _ _ hroom))
  · exact ((ho12.trans ho3).mono (by simp)).trans (ho4.mono (by simp))

lemma pushBack_spec (h : Stores P S a vs) (hS : Ledger S) (hr : Refers S r v) :
    Yields (a.pushBack P r) S fun res S' =>
      res = none ∧ a.nodeCapacity ≤ a.nodeCount ∧
        Refuses P S a.alloc (wrap (a.nodeCapacity * 2)) ∨ ∃ a', res = some a' ∧
      Stores P S' a' (vs ++ [v]) ∧ Moves S S' a.dataStorage a'.dataStorage := by
  rw [ArrayObject.pushBack]
  by_cases hlt : a.nodeCount < a.nodeCapacity
  · have hcap := h.capacity_lt
    have hcount : wrap (a.nodeCount + 1) = a.nodeCount + 1 := Nat.mod_eq_of_lt (by omega)
    rw [if_pos hlt, hcount, h.count]
    rw [h.count] at hlt
    apply Yields.step hr.deref_run
    apply (h.elements.construct h.room hlt v).bind
    rintro _ S1 ⟨h1, ho1⟩
    refine Yields.pure (Or.inr ⟨_, rfl, ?_, ho1.mono (by simp), Or.inl rfl⟩)
    exact ⟨by simp, hlt, h.positive, h.bounded, ho1.room _ _ h.room, h1⟩
  · rw [if_neg hlt]
    apply (grow_spec h hS hr (not_lt.mp hlt)).mono
    exact fun _ _ => Or.imp_left fun hno => ⟨hno.1, not_lt.mp hlt, hno.2⟩

lemma popBack_spec (h : Stores P S a (vs ++ [v])) :
    Yields a.popBack S fun a' S' => a'.dataStorage = a.dataStorage ∧ Stores P S' a' vs ∧
      OnlyIn {a.dataStorage} S S' := by
  have hcap := h.capacity_lt
  have hfits := h.fits
  have hcount := h.count
  rw [List.length_append, List.length_singleton] at hcount
  have hlast : wrap (a.nodeCount + (addressSpace - 1)) = vs.length := by
    rw [wrap, hcount, show vs.length + 1 + (addressSpace - 1) = vs.length + addressSpace by
      have : 0 < addressSpace := by decide
      omega, Nat.add_mod_right]
    exact Nat.mod_eq_of_lt (by omega)
  rw [ArrayObject.popBack, hlast]
  apply h.elements.destruct_last.bind
  rintro _ S1 ⟨h1, ho1⟩
  refine Yields.pure ⟨rfl, ⟨rfl, ?_, h.positive, h.bounded, ho1.room _ _ h.room, h1⟩, ho1⟩
  change vs.length ≤ a.nodeCapacity
  omega

lemma clear_spec (h : Stores P S a vs) :
    Yields a.clear S fun a' S' => a'.dataStorage = a.dataStorage ∧ Stores P S' a' [] ∧
      OnlyIn {a.dataStorage} S S' := by
  rw [ArrayObject.clear, h.count]
  apply (Holds.destructElements h.elements).bind
  rintro _ S1 ⟨h1, ho1⟩
  exact Yields.pure ⟨rfl, ⟨rfl, Nat.zero_le _, h.positive, h.bounded, ho1.room _ _ h.room, h1⟩, ho1⟩

lemma destroy_spec (h : Stores P S a vs) :
    Yields a.destroy S fun _ S' => Holds S' a.dataStorage ([] : List T) ∧
      OnlyIn {a.dataStorage} S S' := by
  rw [ArrayObject.destroy, h.count]
  exact Holds.destructElements h.elements

lemma subscript_eq (h : Stores P S a vs) (pos : ℕ) :
    a.subscript pos = if pos < vs.length then some ⟨a.dataStorage, pos⟩ else none := by
  rw [ArrayObject.subscript, h.count]
  split_ifs <;> first | rfl | omega

end Members

section Accounts

variable {P : Platform}

lemma preserves_allocate (alloc bytes : ℕ) :
    Preserves Ledger (allocate P alloc bytes : StorageProgram T (Option ℕ)) := by
  intro S r h hr
  rw [allocate] at hr
  split_ifs at hr
  · cases hr
    exact preserves_newBlock _ S _ h rfl
  · cases hr
    exact h

lemma preserves_copyElements (b c i n : ℕ) :
    Preserves Ledger (copyElements b c i n : StorageProgram T Unit) := by
  induction n generalizing i with
  | zero => exact Preserves.pure _
  | succ n ih =>
    exact (preserves_load _).bind fun v => (preserves_construct _ v).bind fun _ => ih _

lemma preserves_destructElements (b i n : ℕ) :
    Preserves Ledger (destructElements b i n : StorageProgram T Unit) := by
  induction n generalizing i with
  | zero => exact Preserves.pure _
  | succ n ih => exact (preserves_destruct _).bind fun _ => ih _

lemma preserves_deref (r : Reference T) : Preserves Ledger (deref r) := by
  cases r with
  | outside v => exact Preserves.pure v
  | element a => exact preserves_load a

variable (P)

lemma preserves_create (alloc : Option ℕ) :
    Preserves Ledger (ArrayObject.create P alloc : StorageProgram T (Option ArrayObject)) := by
  cases alloc with
  | none => exact Preserves.pure _
  | some alloc =>
    refine (preserves_allocate _ _).bind fun r => ?_
    cases r with
    | none => exact Preserves.pure _
    | some b => exact Preserves.pure _

lemma preserves_copyConstruct (a : ArrayObject) :
    Preserves Ledger (a.copyConstruct P : StorageProgram T (Option ArrayObject)) := by
  refine (preserves_allocate _ _).bind fun r => ?_
  cases r with
  | none => exact Preserves.pure _
  | some b => exact (preserves_copyElements _ _ _ _).bind fun _ => Preserves.pure _

lemma preserves_assign (a b : ArrayObject) :
    Preserves Ledger (a.assign P b : StorageProgram T (Option ArrayObject)) :=
  (Preserves.pure _).ite (preserves_copyConstruct P b)

lemma preserves_pushBack (a : ArrayObject) (r : Reference T) :
    Preserves Ledger (a.pushBack P r) := by
  refine Preserves.ite ?_ ((preserves_allocate _ _).bind fun b => ?_)
  · exact (preserves_deref r).bind fun v => (preserves_construct _ v).bind fun _ =>
      Preserves.pure _
  · cases b with
    | none => exact Preserves.pure _
    | some b =>
      refine (preserves_copyElements _ _ _ _).bind fun _ => (preserves_deref r).bind fun v => ?_
      exact (preserves_construct _ v).bind fun _ =>
        (preserves_destructElements _ _ _).bind fun _ => Preserves.pure _

lemma preserves_popBack (a : ArrayObject) :
    Preserves Ledger (a.popBack : StorageProgram T ArrayObject) :=
  (preserves_destruct _).bind fun _ => Preserves.pure _

lemma preserves_clear (a : ArrayObject) :
    Preserves Ledger (a.clear : StorageProgram T ArrayObject) :=
  (preserves_destructElements _ _ _).bind fun _ => Preserves.pure _

lemma preserves_destroy (a : ArrayObject) :
    Preserves Ledger (a.destroy : StorageProgram T Unit) := preserves_destructElements _ _ _

end Accounts

section States

def ArrayState.Owns (s : ArrayState ι T) (x : ι) (b : ℕ) : Prop :=
  ∃ a, s.arrays x = some a ∧ a.dataStorage = b

def Shows (P : Platform) (s : ArrayState ι T) (x : ι) : Option (List T) → Prop
  | none => s.arrays x = none
  | some vs => ∃ a, s.arrays x = some a ∧ Stores P s.storage a vs

structure Represents (P : Platform) (s : ArrayState ι T) (l : Lists ι T) : Prop where
  shows : ∀ x, Shows P s x (l x)
  apart : ∀ x y b, s.Owns x b → s.Owns y b → x = y
  ledger : Ledger s.storage

structure Touches (x : ι) (s s' : ArrayState ι T) : Prop where
  arrays : ∀ y, y ≠ x → s'.arrays y = s.arrays y
  room : ∀ b n : ℕ, s.storage.room[b]? = some n → s'.storage.room[b]? = some n
  place : ∀ b, s'.Owns x b → s.Owns x b ∨ s.storage.room.length ≤ b
  others : ∀ a : Address, ¬ s.Owns x a.block → ¬ s'.Owns x a.block →
    s'.storage.slots a = s.storage.slots a

/-- There are elements where the array `x` has been, and it is no longer there. -/
def Leaves (x : ι) (s s' : ArrayState ι T) : Prop :=
  ∃ a, (s'.storage.slots a).isSome ∧ s.Owns x a.block ∧ ¬ s'.Owns x a.block

variable {P : Platform} {s s' : ArrayState ι T} {l : Lists ι T} {x y : ι} {vs : List T}
  {a : ArrayObject}

lemma Represents.stores (h : Represents P s l) (hx : l x = some vs) :
    ∃ a, s.arrays x = some a ∧ Stores P s.storage a vs := by
  have hs := h.shows x
  rwa [hx] at hs

lemma Represents.vacant (h : Represents P s l) (hx : l x = none) : s.arrays x = none := by
  have hs := h.shows x
  rwa [hx] at hs

lemma ArrayState.owns_iff (ha : s.arrays x = some a) {b : ℕ} :
    s.Owns x b ↔ a.dataStorage = b := by
  simp [ArrayState.Owns, ha]

lemma ArrayState.not_owns (hx : s.arrays x = none) (b : ℕ) : ¬ s.Owns x b := by
  simp [ArrayState.Owns, hx]

lemma Touches.owns (ht : Touches x s s') (hy : y ≠ x) {b : ℕ} : s'.Owns y b ↔ s.Owns y b := by
  rw [ArrayState.Owns, ArrayState.Owns, ht.arrays y hy]

structure Relocates (s : ArrayState ι T) (x : ι) (S' : Storage T) (b : ℕ) : Prop where
  only : OnlyIn {c | s.Owns x c ∨ c = b} s.storage S'
  place : s.Owns x b ∨ s.storage.room.length ≤ b

/-- What a statement about the array `x` has come to, as compared with lists. -/
structure Answers (P : Platform) (s s' : ArrayState ι T) (x : ι) (l' : Lists ι T) (left : Prop) :
    Prop where
  represents : Represents P s' l'
  touches : Touches x s s'
  leaves : Leaves x s s' ↔ left

lemma Represents.stays (h : Represents P s l) (x : ι) : Answers P s s x l False := by
  refine ⟨h, ⟨fun _ _ => rfl, fun _ _ hb => hb, fun _ hb => Or.inl hb, fun _ _ _ => rfl⟩, ?_⟩
  exact iff_of_false (fun ⟨_, _, hb, hb'⟩ => hb' hb) id

lemma fetch_run {x : ι} {a : ArrayObject} (h : s.arrays x = some a) :
    fetch x s = some (a, s) := by
  rw [fetch, h]
  rfl

lemma vacant_run {x : ι} (h : s.arrays x = none) : vacant x s = some ((), s) := by
  rw [vacant, h]
  rfl

lemma relocates_new {x : ι} {S' : Storage T} {b : ℕ} (hb : b = s.storage.room.length)
    (ho : OnlyIn {b} s.storage S') : Relocates s x S' b :=
  ⟨ho.mono fun _ hc => Or.inr hc, Or.inr hb.ge⟩

lemma relocates_same {x : ι} {a : ArrayObject} {S' : Storage T} {b : ℕ}
    (ha : s.arrays x = some a) (hb : b = a.dataStorage)
    (ho : OnlyIn {a.dataStorage} s.storage S') : Relocates s x S' b :=
  ⟨ho.mono fun _ hc => Or.inr (hc.trans hb.symm), Or.inl ⟨a, ha, hb.symm⟩⟩

lemma refer_run {pushed : Pushed ι T} {v? : Option T} (h : Represents P s l)
    (hv : pushed.onLists l = some v?) :
    Yields (refer pushed) s fun r s' => s' = s ∧ (r = none ∧ v? = none ∨
      ∃ r' v, r = some r' ∧ v? = some v ∧ Refers s.storage r' v) := by
  cases pushed with
  | value v =>
    cases hv
    exact Yields.pure ⟨rfl, Or.inr ⟨_, v, rfl, rfl, rfl⟩⟩
  | element y pos =>
    obtain ⟨ws, hy, rfl⟩ := Option.map_eq_some_iff.mp hv
    obtain ⟨b, hb, hst⟩ := h.stores hy
    refine Yields.step (fetch_run hb) (Yields.pure ⟨rfl, ?_⟩)
    rw [subscript_eq hst]
    split_ifs with hlt
    · refine Or.inr ⟨_, ws[pos], rfl, List.getElem?_eq_getElem hlt, ?_⟩
      exact (hst.elements pos).trans (List.getElem?_eq_getElem hlt)
    · exact Or.inl ⟨rfl, List.getElem?_eq_none (not_lt.mp hlt)⟩

lemma onStorage_run {α : Type} {m : StorageProgram T α} {r : α} {S' : Storage T}
    (h : m s.storage = some (r, S')) :
    (onStorage m : ArraysProgram ι T α) s = some (r, { s with storage := S' }) := by
  rw [onStorage, h]
  rfl

lemma Represents.inside (h : Represents P s l) {b : ℕ} (hb : s.Owns y b) :
    b < s.storage.room.length := by
  obtain ⟨a, ha, rfl⟩ := hb
  have hs := h.shows y
  cases hy : l y with
  | none =>
    rw [hy, Shows, ha] at hs
    cases hs
  | some vs =>
    rw [hy] at hs
    obtain ⟨a', ha', hst⟩ := hs
    obtain rfl := Option.some.inj (ha.symm.trans ha')
    exact hst.inside

lemma Represents.not_taken (h : Represents P s l) (ht : Touches x s s') (hy : y ≠ x) {b : ℕ}
    (hb : s.Owns y b) : ¬ s'.Owns x b := by
  intro hb'
  rcases ht.place b hb' with hb' | hb'
  · exact hy (h.apart y x b hb hb')
  · exact absurd (h.inside hb) (not_lt.mpr hb')

lemma Represents.shows_other (h : Represents P s l) (ht : Touches x s s') (hy : y ≠ x) :
    Shows P s' y (l y) := by
  have hs := h.shows y
  cases hly : l y with
  | none =>
    rw [hly] at hs
    exact (ht.arrays y hy).trans hs
  | some vs =>
    rw [hly] at hs
    obtain ⟨a, ha, hst⟩ := hs
    have hown : s.Owns y a.dataStorage := ⟨a, ha, rfl⟩
    refine ⟨a, (ht.arrays y hy).trans ha, hst.count, hst.fits, hst.positive, hst.bounded,
      ht.room _ _ hst.room, fun i => ?_⟩
    rw [ht.others ⟨a.dataStorage, i⟩ (fun hb => hy (h.apart y x _ hown hb))
      (h.not_taken ht hy hown)]
    exact hst.elements i

variable [DecidableEq ι]

lemma Represents.touch {v : Option (List T)} (h : Represents P s l) (ht : Touches x s s')
    (hx : Shows P s' x v) (hl : Ledger s'.storage) : Represents P s' (Function.update l x v) := by
  refine ⟨fun y => ?_, fun y z b hy hz => ?_, hl⟩
  · by_cases hy : y = x
    · subst hy
      rwa [Function.update_self]
    · rw [Function.update_of_ne hy]
      exact h.shows_other ht hy
  · by_cases hyx : y = x <;> by_cases hzx : z = x
    · rw [hyx, hzx]
    · subst hyx
      exact absurd hy (h.not_taken ht hzx ((ht.owns hzx).mp hz))
    · subst hzx
      exact absurd hz (h.not_taken ht hyx ((ht.owns hyx).mp hy))
    · exact h.apart y z b ((ht.owns hyx).mp hy) ((ht.owns hzx).mp hz)

lemma Relocates.touches {S' : Storage T} (h : Relocates s x S' a.dataStorage) :
    Touches x s ⟨S', Function.update s.arrays x (some a)⟩ := by
  have howns : ∀ b, (⟨S', Function.update s.arrays x (some a)⟩ : ArrayState ι T).Owns x b ↔
      a.dataStorage = b := fun b => ArrayState.owns_iff (Function.update_self _ _ _)
  refine ⟨fun y hy => Function.update_of_ne hy _ _, h.only.room, fun b hb => ?_, fun c hc hc' => ?_⟩
  · rw [← (howns b).mp hb]
    exact h.place
  · refine h.only.others c ?_
    rintro (hb | hb)
    · exact hc hb
    · exact hc' ((howns _).mpr hb.symm)

lemma finish_spec {α : Type} {m : StorageProgram T α} (f : α → Option ArrayObject)
    {refused left : Prop}
    (h : Represents P s l) (hk : Preserves Ledger m)
    (hm : Yields m s.storage fun r S' => f r = none ∧ refused ∨ ∃ a, f r = some a ∧
      Stores P S' a vs ∧ Relocates s x S' a.dataStorage ∧
        ((∃ c, (S'.slots c).isSome ∧ s.Owns x c.block ∧ a.dataStorage ≠ c.block) ↔ left)) :
    Yields (do finish x (f (← onStorage m))) s fun o s' => o.ends = true ∧ refused ∨
      o.ends = false ∧ o = .done ∧ ∃ x',
        Answers P s s' x' (Function.update l x (some vs)) left := by
  obtain ⟨r, S', hrun, hpost, hl⟩ := hm.preserve hk h.ledger
  apply Yields.step (onStorage_run hrun)
  obtain ⟨hr, hno⟩ | ⟨a, ha, hst, hr, hleft⟩ := hpost
  · rw [hr]
    exact Yields.pure (Or.inl ⟨rfl, hno⟩)
  rw [ha]
  refine Yields.of_eq rfl (Or.inr ⟨rfl, rfl, x, ?_, hr.touches, ?_⟩)
  · exact h.touch hr.touches ⟨a, Function.update_self _ _ _, hst⟩ hl
  · rw [← hleft, Leaves]
    refine exists_congr fun c => and_congr_right fun _ => and_congr_right fun _ => ?_
    exact (ArrayState.owns_iff (Function.update_self _ _ _)).not

lemma keep_spec {α : Type} {m : StorageProgram T α} (f : α → ArrayObject)
    (h : Represents P s l) (ha : s.arrays x = some a) (hk : Preserves Ledger m)
    (hm : Yields m s.storage fun r S' => (f r).dataStorage = a.dataStorage ∧
      Stores P S' (f r) vs ∧ OnlyIn {a.dataStorage} s.storage S') :
    Yields (do finish x (some (f (← onStorage m)))) s fun o s' => o.ends = true ∧ False ∨
      o.ends = false ∧ o = .done ∧ ∃ x',
        Answers P s s' x' (Function.update l x (some vs)) False := by
  refine finish_spec (fun r => some (f r)) h hk (hm.mono ?_)
  rintro r S' ⟨hb, hst, honly⟩
  refine Or.inr ⟨f r, rfl, hst, relocates_same ha hb honly, iff_of_false ?_ id⟩
  rintro ⟨c, _, how, hne⟩
  exact hne (hb.trans ((ArrayState.owns_iff ha).mp how))

end States

section Statements

variable [DecidableEq ι] {P : Platform} {s : ArrayState ι T} {l l' : Lists ι T} {o : Outcome T}

/-- The statement gives an array other elements and drops the ones that it has. -/
def Action.Abandons (l : Lists ι T) : Action ι T → Prop
  | .assign x y => x ≠ y ∧ l x ≠ some []
  | _ => False

def Action.Refused (P : Platform) (s : ArrayState ι T) : Action ι T → Prop
  | .create _ alloc => ∀ n, alloc = some n → Refuses P s.storage n defaultArraySize
  | .copyConstruct _ y => ∃ b, s.arrays y = some b ∧ Refuses P s.storage b.alloc b.nodeCapacity
  | .assign _ y => ∃ b, s.arrays y = some b ∧ Refuses P s.storage b.alloc b.nodeCapacity
  | .pushBack x _ => ∃ a, s.arrays x = some a ∧ a.nodeCapacity ≤ a.nodeCount ∧
      Refuses P s.storage a.alloc (wrap (a.nodeCapacity * 2))
  | _ => False

/-- The statement ends the process, or it does what it does to lists. -/
def Agrees (P : Platform) (p : Action ι T) (s : ArrayState ι T) (l : Lists ι T) (o : Outcome T)
    (l' : Lists ι T) : Prop :=
  Yields (p.run P) s fun o' s' => o'.ends = true ∧ p.Refused P s ∨ o'.ends = false ∧ o' = o ∧
    ∃ x, Answers P s s' x l' (p.Abandons l)

lemma create_agrees {x : ι} {alloc : Option ℕ} (h : Represents P s l)
    (ho : (Action.create x alloc).onLists l = some (o, l')) :
    Agrees P (.create x alloc) s l o l' := by
  rw [Action.onLists] at ho
  split_ifs at ho with hx
  cases ho
  have hv := h.vacant (Option.isNone_iff_eq_none.mp hx)
  apply Yields.step (vacant_run hv)
  apply finish_spec id h (preserves_create P alloc)
  apply (create_spec h.ledger alloc).mono
  rintro r S' (⟨rfl, hno⟩ | ⟨a, rfl, hb, hst, honly⟩)
  · exact Or.inl ⟨rfl, hno⟩
  · refine Or.inr ⟨a, rfl, hst, relocates_new hb honly, ?_⟩
    exact iff_of_false (fun ⟨c, _, hc, _⟩ => ArrayState.not_owns hv _ hc) id

lemma copyConstruct_agrees {x y : ι} (h : Represents P s l)
    (ho : (Action.copyConstruct x y).onLists l = some (o, l')) :
    Agrees P (.copyConstruct x y) s l o l' := by
  obtain ⟨ws, hy, ho⟩ := Option.bind_eq_some_iff.mp ho
  split_ifs at ho with hx
  cases ho
  have hv := h.vacant (Option.isNone_iff_eq_none.mp hx)
  obtain ⟨b, hb, hst⟩ := h.stores hy
  refine Yields.step (vacant_run hv) (Yields.step (fetch_run hb) ?_)
  apply finish_spec id h (preserves_copyConstruct P b)
  apply (copyConstruct_spec hst h.ledger).mono
  rintro r S' (⟨rfl, hno⟩ | ⟨a, rfl, hnew, hst', honly⟩)
  · exact Or.inl ⟨rfl, b, hb, hno⟩
  · refine Or.inr ⟨a, rfl, hst', relocates_new hnew (hnew ▸ honly), ?_⟩
    exact iff_of_false (fun ⟨c, _, hc, _⟩ => ArrayState.not_owns hv _ hc) id

lemma assign_agrees {x y : ι} (h : Represents P s l)
    (ho : (Action.assign x y).onLists l = some (o, l')) :
    Agrees P (.assign x y) s l o l' := by
  obtain ⟨vs, hx, ho⟩ := Option.bind_eq_some_iff.mp ho
  obtain ⟨ws, hy, ho⟩ := Option.bind_eq_some_iff.mp ho
  cases ho
  obtain ⟨a, ha, hst⟩ := h.stores hx
  obtain ⟨b, hb, hstb⟩ := h.stores hy
  refine Yields.step (fetch_run ha) (Yields.step (fetch_run hb) ?_)
  apply finish_spec id h (preserves_assign P a b)
  rw [ArrayObject.assign]
  by_cases hxy : x = y
  · -- the test finds the same members
    subst hxy
    obtain rfl := Option.some.inj (ha.symm.trans hb)
    rw [if_pos rfl]
    refine Yields.pure (Or.inr ⟨a, rfl, hstb, relocates_same ha rfl (OnlyIn.refl _ _), ?_⟩)
    refine iff_of_false (fun ⟨c, _, hc, hne⟩ => ?_) fun hab => hab.1 rfl
    exact hne ((ArrayState.owns_iff ha).mp hc)
  · -- no two arrays have the same storage
    have hne : a ≠ b := by
      rintro rfl
      exact hxy (h.apart x y _ ⟨a, ha, rfl⟩ ⟨a, hb, rfl⟩)
    rw [if_neg hne]
    apply (copyConstruct_spec hstb h.ledger).mono
    rintro r S' (⟨rfl, hno⟩ | ⟨a', rfl, hnew, hst', honly⟩)
    · exact Or.inl ⟨rfl, b, hb, hno⟩
    refine Or.inr ⟨a', rfl, hst', relocates_new hnew (hnew ▸ honly), ?_⟩
    have hold : Holds S' a.dataStorage vs :=
      honly.holds (fun hmem => hst.inside.ne (hmem.trans hnew)) hst.elements
    have hleft : (∃ c, (S'.slots c).isSome ∧ s.Owns x c.block ∧ a'.dataStorage ≠ c.block) ↔
        vs ≠ [] := by
      constructor
      · rintro ⟨⟨c, i⟩, hc, how, _⟩ rfl
        obtain rfl := (ArrayState.owns_iff ha).mp how
        exact absurd (hold.occupied_iff.mp hc) (Nat.not_lt_zero i)
      · intro hvs
        refine ⟨⟨a.dataStorage, 0⟩, hold.occupied_iff.mpr (List.length_pos_iff.mpr hvs),
          ⟨a, ha, rfl⟩, ?_⟩
        rw [hnew]
        exact hst.inside.ne'
    rw [hleft, Action.Abandons, hx]
    simp [hxy]

lemma pushBack_agrees {x : ι} {pushed : Pushed ι T} (h : Represents P s l)
    (ho : (Action.pushBack x pushed).onLists l = some (o, l')) :
    Agrees P (.pushBack x pushed) s l o l' := by
  obtain ⟨vs, hx, ho⟩ := Option.bind_eq_some_iff.mp ho
  obtain ⟨v?, hv, ho⟩ := Option.bind_eq_some_iff.mp ho
  obtain ⟨a, ha, hst⟩ := h.stores hx
  apply Yields.step (fetch_run ha)
  apply (refer_run h hv).bind
  rintro r _ ⟨rfl, ⟨rfl, rfl⟩ | ⟨r', v, rfl, rfl, hr⟩⟩
  · cases ho
    exact Yields.pure (Or.inr ⟨rfl, rfl, x, h.stays x⟩)
  cases ho
  apply finish_spec id h (preserves_pushBack P a r')
  apply (pushBack_spec hst h.ledger hr).mono
  rintro res S' (⟨rfl, hno⟩ | ⟨a', rfl, hst', hmv⟩)
  · exact Or.inl ⟨rfl, a, ha, hno⟩
  refine Or.inr ⟨a', rfl, hst', ⟨hmv.only.mono ?_, ?_⟩, iff_of_false ?_ id⟩
  · rintro c (rfl | hc)
    · exact Or.inl ⟨a, ha, rfl⟩
    · exact Or.inr hc
  · rcases hmv.place with hp | ⟨hp, _⟩
    · exact Or.inl ⟨a, ha, hp.symm⟩
    · exact Or.inr hp.ge
  · rintro ⟨⟨c, i⟩, hc, how, hne⟩
    obtain rfl := (ArrayState.owns_iff ha).mp how
    rcases hmv.place with hp | ⟨_, hp⟩
    · exact hne hp
    · exact absurd (hp.occupied_iff.mp hc) (Nat.not_lt_zero i)

lemma popBack_agrees {x : ι} (h : Represents P s l)
    (ho : (Action.popBack x : Action ι T).onLists l = some (o, l')) :
    Agrees P (.popBack x) s l o l' := by
  obtain ⟨vs, hx, ho⟩ := Option.bind_eq_some_iff.mp ho
  split_ifs at ho with hvs
  cases ho
  obtain ⟨a, ha, hst⟩ := h.stores hx
  have hne : vs ≠ [] := fun he => hvs (by rw [he]; rfl)
  rw [← List.dropLast_append_getLast hne] at hst
  apply Yields.step (fetch_run ha)
  exact keep_spec id h ha (preserves_popBack a) (popBack_spec hst)

lemma clear_agrees {x : ι} (h : Represents P s l)
    (ho : (Action.clear x : Action ι T).onLists l = some (o, l')) :
    Agrees P (.clear x) s l o l' := by
  obtain ⟨vs, hx, ho⟩ := Option.bind_eq_some_iff.mp ho
  cases ho
  obtain ⟨a, ha, hst⟩ := h.stores hx
  apply Yields.step (fetch_run ha)
  exact keep_spec id h ha (preserves_clear a) (clear_spec hst)

lemma read_agrees {x : ι} {pos : ℕ} (h : Represents P s l)
    (ho : (Action.read x pos).onLists l = some (o, l')) :
    Agrees P (.read x pos) s l o l' := by
  obtain ⟨vs, hx, ho⟩ := Option.bind_eq_some_iff.mp ho
  obtain ⟨a, ha, hst⟩ := h.stores hx
  apply Yields.step (fetch_run ha)
  rw [subscript_eq hst]
  by_cases hlt : pos < vs.length
  · rw [List.getElem?_eq_getElem hlt] at ho
    cases ho
    rw [if_pos hlt]
    have hload := hst.elements.load (List.getElem?_eq_getElem hlt)
    exact Yields.step (onStorage_run hload) (Yields.pure (Or.inr ⟨rfl, rfl, x, h.stays x⟩))
  · rw [List.getElem?_eq_none (not_lt.mp hlt)] at ho
    cases ho
    rw [if_neg hlt]
    exact Yields.pure (Or.inr ⟨rfl, rfl, x, h.stays x⟩)

lemma write_agrees {x : ι} {pos : ℕ} {v : T} (h : Represents P s l)
    (ho : (Action.write x pos v).onLists l = some (o, l')) :
    Agrees P (.write x pos v) s l o l' := by
  obtain ⟨vs, hx, ho⟩ := Option.bind_eq_some_iff.mp ho
  obtain ⟨a, ha, hst⟩ := h.stores hx
  apply Yields.step (fetch_run ha)
  rw [subscript_eq hst]
  split_ifs at ho with hlt
  · cases ho
    rw [if_pos hlt]
    obtain ⟨_, S', hrun, ⟨hvs, honly⟩, hl⟩ :=
      (hst.elements.store hlt v).preserve (preserves_store _ v) h.ledger
    have hsame : ({ s with storage := S' } : ArrayState ι T) =
        ⟨S', Function.update s.arrays x (some a)⟩ := by
      rw [← ha, Function.update_eq_self]
    refine Yields.step (onStorage_run hrun) (Yields.pure (Or.inr ⟨rfl, rfl, x, ?_⟩))
    rw [hsame]
    have ht := (relocates_same ha rfl honly).touches
    refine ⟨h.touch ht ⟨a, Function.update_self _ _ _, ?_⟩ hl, ht, iff_of_false ?_ id⟩
    · refine ⟨?_, hst.fits, hst.positive, hst.bounded, honly.room _ _ hst.room, hvs⟩
      rw [List.length_set]
      exact hst.count
    · rintro ⟨c, _, how, hne⟩
      exact hne ((ArrayState.owns_iff (Function.update_self _ _ _)).mpr
        ((ArrayState.owns_iff ha).mp how))
  · cases ho
    rw [if_neg hlt]
    exact Yields.pure (Or.inr ⟨rfl, rfl, x, h.stays x⟩)

lemma destroy_agrees {x : ι} (h : Represents P s l)
    (ho : (Action.destroy x : Action ι T).onLists l = some (o, l')) :
    Agrees P (.destroy x) s l o l' := by
  obtain ⟨vs, hx, ho⟩ := Option.bind_eq_some_iff.mp ho
  cases ho
  obtain ⟨a, ha, hst⟩ := h.stores hx
  obtain ⟨_, S', hrun, ⟨hvs, honly⟩, hl⟩ :=
    (destroy_spec hst).preserve (preserves_destroy a) h.ledger
  refine Yields.step (fetch_run ha) (Yields.step (onStorage_run hrun) ?_)
  refine Yields.step rfl (Yields.pure (Or.inr ⟨rfl, rfl, x, ?_⟩))
  have hnone : (⟨S', Function.update s.arrays x none⟩ : ArrayState ι T).arrays x = none :=
    Function.update_self _ _ _
  have ht : Touches x s ⟨S', Function.update s.arrays x none⟩ := by
    refine ⟨fun y hy => Function.update_of_ne hy _ _, honly.room,
      fun b hb => absurd hb (ArrayState.not_owns hnone b), fun c hc _ => honly.others c ?_⟩
    exact fun hb => hc ⟨a, ha, hb.symm⟩
  refine ⟨h.touch ht hnone hl, ht, iff_of_false ?_ id⟩
  rintro ⟨⟨c, i⟩, hc, how, _⟩
  obtain rfl := (ArrayState.owns_iff ha).mp how
  exact absurd (hvs.occupied_iff.mp hc) (Nat.not_lt_zero i)

lemma action_agrees (p : Action ι T) (h : Represents P s l) (ho : p.onLists l = some (o, l')) :
    Agrees P p s l o l' := by
  cases p with
  | create x alloc => exact create_agrees h ho
  | copyConstruct x y => exact copyConstruct_agrees h ho
  | assign x y => exact assign_agrees h ho
  | pushBack x pushed => exact pushBack_agrees h ho
  | popBack x => exact popBack_agrees h ho
  | clear x => exact clear_agrees h ho
  | read x pos => exact read_agrees h ho
  | write x pos v => exact write_agrees h ho
  | destroy x => exact destroy_agrees h ho

end Statements

end Xty.Arrays
