import Xty.Message.DeSerialize

/-! Decoding arbitrary bytes at an arbitrary address. The bounds tests are sound exactly as long
as no address they compute passes the end of the address space. -/

namespace Xty.Message

open Xty.General.LittleEndian Xty.General.Cursor

section Fields

variable {R : Region} {a : ℕ} {α : Type} {Q : α → Prop}

def lengthAt (R : Region) (a : ℕ) : ℕ := decode (R.slice a sizeofSizeT)

def StringsDoNotWrap (R : Region) : ℕ → ℕ → Prop
  | 0, _ => True
  | n + 1, a =>
    a + sizeofSizeT < addressSpace ∧ (a + sizeofSizeT ≤ R.stop →
      a + sizeofSizeT + lengthAt R a < addressSpace ∧
      (a + sizeofSizeT + lengthAt R a ≤ R.stop →
        StringsDoNotWrap R n (a + sizeofSizeT + lengthAt R a)))

def IsSlice (R : Region) (s : Bytes) : Prop :=
  ∃ b, R.base ≤ b ∧ b + s.length ≤ R.stop ∧ s = R.slice b s.length

lemma lengthAt_lt (ha : R.base ≤ a) (hs : a + sizeofSizeT ≤ R.stop) :
    lengthAt R a < addressSpace := by
  have h := decode_lt (R.slice a sizeofSizeT)
  rw [Region.slice_length ha hs] at h
  exact h

lemma isSlice_slice {n : ℕ} (ha : R.base ≤ a) (hn : a + n ≤ R.stop) :
    IsSlice R (R.slice a n) := by
  have hl := Region.slice_length ha hn
  exact ⟨a, ha, by rw [hl]; exact hn, by rw [hl]⟩

lemma confined_string {f : Bytes → MsgReader α} (ha : R.base ≤ a) (hs : a ≤ R.stop) :
    Confined .outOfBufferRange Q (deSerializeString >>= f) R a ↔
      a + sizeofSizeT < addressSpace ∧ (a + sizeofSizeT ≤ R.stop →
        a + sizeofSizeT + lengthAt R a < addressSpace ∧
        (a + sizeofSizeT + lengthAt R a ≤ R.stop →
          Confined .outOfBufferRange Q (f (R.slice (a + sizeofSizeT) (lengthAt R a))) R
            (a + sizeofSizeT + lengthAt R a))) := by
  rw [deSerializeString, bind_assoc, confined_read ha hs (by decide)]
  refine and_congr_right fun _ => forall_congr' fun hin => ?_
  exact confined_read (by omega) hin (lengthAt_lt ha hin)

lemma confined_strings (n : ℕ) {f : List Bytes → MsgReader α} (ha : R.base ≤ a)
    (hs : a ≤ R.stop)
    (hf : ∀ ss b, R.base ≤ b → b ≤ R.stop → ss.length = n → (∀ s ∈ ss, IsSlice R s) →
      Confined .outOfBufferRange Q (f ss) R b) :
    Confined .outOfBufferRange Q (deSerializeStrings n >>= f) R a ↔
      StringsDoNotWrap R n a := by
  induction n generalizing a f with
  | zero => simpa [deSerializeStrings, StringsDoNotWrap] using hf [] a ha hs rfl (by simp)
  | succ n ih =>
    rw [deSerializeStrings, bind_assoc, confined_string ha hs, StringsDoNotWrap]
    refine and_congr_right fun _ => forall_congr' fun hin => and_congr_right fun _ =>
      forall_congr' fun hfit => ?_
    simp only [bind_assoc, pure_bind]
    apply ih (by omega) hfit
    intro ss b hb hbs hl hss
    have hslice := isSlice_slice (R := R) (by omega : R.base ≤ a + sizeofSizeT) hfit
    apply hf _ b hb hbs (by simp [hl])
    intro s hmem
    rcases List.mem_cons.mp hmem with rfl | hmem
    · exact hslice
    · exact hss s hmem

lemma confined_head {f : Msg → MsgReader α} (hn : sizeofMsgType ≤ R.bytes.length) :
    Confined .outOfBufferRange Q (deSerializeHead >>= f) R R.base ↔
      R.base + 12 < addressSpace ∧ (R.base + 12 ≤ R.stop →
        Confined .outOfBufferRange Q
          (f ⟨UInt32.ofNat (decode (R.slice R.base sizeofMsgType)),
            UInt64.ofNat (lengthAt R (R.base + sizeofMsgType))⟩) R (R.base + 12)) := by
  have hs := R.stop_lt
  have hstop : R.base + sizeofMsgType ≤ R.stop := by
    rw [Region.stop]
    omega
  have h := confined_read (e := ExceptionCode.outOfBufferRange) (Q := Q) (R := R) (a := R.base)
    (n := sizeofMsgType) (f := fun bs => (do
      let l ← checkedRead ExceptionCode.outOfBufferRange sizeofSizeT
      f ⟨UInt32.ofNat (decode bs), UInt64.ofNat (decode l)⟩)) le_rfl (by omega) (by decide)
  have hc : deSerializeHead >>= f = (do
      let bs ← checkedRead ExceptionCode.outOfBufferRange sizeofMsgType
      let l ← checkedRead ExceptionCode.outOfBufferRange sizeofSizeT
      f ⟨UInt32.ofNat (decode bs), UInt64.ofNat (decode l)⟩) := by
    simp only [deSerializeHead, deSerializeMsgType, deSerializeSizeT, map_eq_pure_bind, bind_assoc,
      pure_bind]
  rw [hc, h, confined_read (by omega) hstop (by decide)]
  have he : R.base + sizeofMsgType + sizeofSizeT = R.base + 12 := rfl
  rw [he]
  constructor
  · exact fun hh => hh.2 hstop
  · exact fun hh => ⟨by omega, fun _ => hh⟩

end Fields

def HasType (R : Region) (t : MsgType) : Prop :=
  sizeofMsgType ≤ R.bytes.length ∧ decode (R.bytes.take sizeofMsgType) = t.code.toNat

instance (R : Region) (t : MsgType) : Decidable (HasType R t) :=
  inferInstanceAs (Decidable (_ ∧ _))

/-- No address that the bounds tests of a message of type `t` compute wraps around. -/
def DoesNotWrap (R : Region) (t : MsgType) : Prop :=
  R.base + 12 < addressSpace ∧
    (R.base + 12 ≤ R.stop → StringsDoNotWrap R t.stringCount (R.base + 12))

def StaysInside (R : Region) : Prop :=
  match DeSerializeEntity.deSerialize R with
  | .ok (m, b) => R.base ≤ b ∧ b ≤ R.stop ∧ ∀ s ∈ m.strings, IsSlice R s
  | .error x => x = .raised .outOfBufferRange

/-- The positions of the string fields that the decoder reaches, each with its length field,
for as long as the bounds tests pass. -/
def stringTests (R : Region) : ℕ → ℕ → List (ℕ × ℕ)
  | 0, _ => []
  | n + 1, a =>
    if R.stop < wrap (a + sizeofSizeT) then []
    else if R.stop < wrap (a + sizeofSizeT + lengthAt R a) then []
    else (a, lengthAt R a) :: stringTests R n (wrap (a + sizeofSizeT + lengthAt R a))

lemma stringTests_bounded {R : Region} (n : ℕ) {a : ℕ} (ha : R.base ≤ a)
    (h : StringsDoNotWrap R n a) :
    ∀ p ∈ stringTests R n a, p.1 + sizeofSizeT + p.2 ≤ R.stop := by
  induction n generalizing a with
  | zero => simp [stringTests]
  | succ n ih =>
    obtain ⟨h8, hrest⟩ := h
    rw [stringTests, wrap_of_lt h8]
    split_ifs with hshort hlong
    · simp
    · simp
    · obtain ⟨hl, hnext⟩ := hrest (by omega)
      rw [wrap_of_lt hl] at hlong ⊢
      intro p hp
      rcases List.mem_cons.mp hp with rfl | hp
      · dsimp only
        omega
      · exact ih (by omega) (hnext (by omega)) p hp

lemma staysInside_iff {R : Region} {t : MsgType} (ht : HasType R t) :
    StaysInside R ↔ DoesNotWrap R t := by
  have hd := DeSerializeEntity.deSerialize_of_prepare
    (DeSerializeEntity.prepare_ok t ht.1 ht.2)
  have hc : StaysInside R ↔ Confined .outOfBufferRange
      (fun m : MsgObject => ∀ s ∈ m.strings, IsSlice R s) t.create.deSerialize R R.base := by
    rw [StaysInside, hd, Confined]
    cases t.create.deSerialize R R.base <;> rfl
  rw [hc, MsgObject.deSerialize_eq, MsgObject.create_type, confined_head ht.1, DoesNotWrap]
  refine and_congr_right fun _ => forall_congr' fun hin => ?_
  refine confined_strings _ (by omega) hin ?_
  intro ss b hb hbs hl hss
  rw [confined_pure hb hbs, (MsgType.assemble_fields _ t ss hl).2]
  exact hss

/-- The decoder is confined to its buffer, and each string length that passes the bounds test is
at most the number of bytes left, exactly when no address computation wraps around. -/
theorem deSerialize_confined_iff (R : Region) (t : MsgType) (ht : HasType R t) :
    (StaysInside R ∧ (R.base + 12 ≤ R.stop →
        ∀ p ∈ stringTests R t.stringCount (R.base + 12), p.1 + sizeofSizeT + p.2 ≤ R.stop)) ↔
      DoesNotWrap R t := by
  rw [staysInside_iff ht]
  constructor
  · exact fun h => h.1
  · exact fun h => ⟨h, fun hin => stringTests_bounded _ (by omega) (h.2 hin)⟩

def wrappingReg : Region where
  base := 4096
  bytes := [2, 0, 0, 0] ++ [36, 0, 0, 0, 0, 0, 0, 0] ++ List.replicate 8 255 ++ List.replicate 16 0
  spare := []
  fits := by decide

theorem deSerialize_confined_iff_reg :
    HasType wrappingReg .regMsg ∧ ¬ DoesNotWrap wrappingReg .regMsg ∧
      ¬ (StaysInside wrappingReg ∧ (wrappingReg.base + 12 ≤ wrappingReg.stop →
        ∀ p ∈ stringTests wrappingReg 3 (wrappingReg.base + 12),
          p.1 + sizeofSizeT + p.2 ≤ wrappingReg.stop)) := by
  have ht : HasType wrappingReg .regMsg := by decide
  have hw : ¬ DoesNotWrap wrappingReg .regMsg := fun h => by
    have := ((h.2 (by decide)).2 (by decide)).1
    revert this
    decide
  exact ⟨ht, hw, fun h => hw ((deSerialize_confined_iff wrappingReg .regMsg ht).mp h)⟩

theorem wrapping_length_escapes :
    HasType wrappingReg .regMsg ∧ wrappingReg.bytes.length = 36 ∧
      (wrappingReg.base + 12, 2 ^ 64 - 1) ∈ stringTests wrappingReg 3 (wrappingReg.base + 12) ∧
      DeSerializeEntity.deSerialize wrappingReg = .error .undefined ∧ ¬ StaysInside wrappingReg :=
  have hd : DeSerializeEntity.deSerialize wrappingReg = .error .undefined := rfl
  ⟨by decide, rfl, by decide, hd, by rw [StaysInside, hd]; decide⟩

end Xty.Message
