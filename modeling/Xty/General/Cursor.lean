import Xty.General.LittleEndian

/-! Readers and writers that move a machine pointer over a bounded region of memory.
Every bounds test adds a size to the pointer modulo the address space before comparing. -/

namespace Xty.General.Cursor

open LittleEndian

def addressSpace : ℕ := 2 ^ 64

def wrap (a : ℕ) : ℕ := a % addressSpace

/-- A computation stops by raising an exception, or by an access the language leaves undefined. -/
inductive Failure (ε : Type) where
  | raised (e : ε)
  | undefined
deriving DecidableEq, Repr

/-- The bytes of a buffer at `base`, followed by memory that may still be read. -/
structure Region where
  base : ℕ
  bytes : Bytes
  spare : Bytes
  fits : base + bytes.length + spare.length < addressSpace

namespace Region

def stop (R : Region) : ℕ := R.base + R.bytes.length

def slice (R : Region) (a n : ℕ) : Bytes := (R.bytes.drop (a - R.base)).take n

def fetch (R : Region) (a n : ℕ) : Option Bytes :=
  if R.base ≤ a ∧ a + n ≤ R.stop + R.spare.length then
    some (((R.bytes ++ R.spare).drop (a - R.base)).take n)
  else none

lemma stop_lt (R : Region) : R.stop < addressSpace := by
  have := R.fits
  unfold stop
  omega

lemma fetch_inside {R : Region} {a n : ℕ} (ha : R.base ≤ a) (hn : a + n ≤ R.stop) :
    R.fetch a n = some (R.slice a n) := by
  unfold stop at hn
  rw [fetch, if_pos ⟨ha, by unfold stop; omega⟩, slice, List.drop_append_of_le_length (by omega),
    List.take_append_of_le_length (by rw [List.length_drop]; omega)]

lemma fetch_outside {R : Region} {a n : ℕ} (hn : addressSpace ≤ a + n) : R.fetch a n = none := by
  have := R.fits
  rw [fetch, if_neg]
  unfold stop
  omega

lemma slice_length {R : Region} {a n : ℕ} (ha : R.base ≤ a) (hn : a + n ≤ R.stop) :
    (R.slice a n).length = n := by
  unfold stop at hn
  rw [slice, List.length_take, List.length_drop]
  omega

end Region

/-- What a reader sees: the end that its bounds tests go by, and the memory that may be read. -/
structure Window where
  stop : ℕ
  fetch : ℕ → ℕ → Option Bytes

def Region.window (R : Region) : Window := ⟨R.stop, R.fetch⟩

instance : Coe Region Window := ⟨Region.window⟩

abbrev BufferReader (ε α : Type) := ReaderT Window (StateT ℕ (Except (Failure ε))) α

def checkedRead {ε : Type} (e : ε) (n : ℕ) : BufferReader ε Bytes := fun W a =>
  if W.stop < wrap (a + n) then .error (.raised e)
  else match W.fetch a n with
    | none => .error .undefined
    | some bs => .ok (bs, wrap (a + n))

section Reading

variable {ε α β : Type} {e : ε} {R : Region} {a n : ℕ}

@[simp] lemma Region.window_stop (R : Region) : R.window.stop = R.stop := rfl

@[simp] lemma Region.window_fetch (R : Region) : R.window.fetch = R.fetch := rfl

lemma wrap_of_lt (h : n < addressSpace) : wrap n = n := Nat.mod_eq_of_lt h

lemma checkedRead_ok (ha : R.base ≤ a) (hn : a + n ≤ R.stop) :
    checkedRead e n R a = .ok (R.slice a n, a + n) := by
  have hw : wrap (a + n) = a + n := wrap_of_lt (hn.trans_lt R.stop_lt)
  rw [checkedRead, Region.window_stop, Region.window_fetch, hw, if_neg (by omega),
    Region.fetch_inside ha hn]

lemma checkedRead_raised (hn : R.stop < a + n) (hs : a + n < addressSpace) :
    checkedRead e n R a = .error (.raised e) := by
  rw [checkedRead, Region.window_stop, wrap_of_lt hs, if_pos hn]

lemma checkedRead_undefined (ha : a ≤ R.stop) (hn : n < addressSpace)
    (hs : addressSpace ≤ a + n) : checkedRead e n R a = .error .undefined := by
  -- the sum has wrapped around to an address below the pointer, so the test lets it through
  have hw : wrap (a + n) = a + n - addressSpace := by
    have := R.stop_lt
    rw [wrap, Nat.mod_eq_sub_mod hs, Nat.mod_eq_of_lt (by omega)]
  have hp : ¬ R.stop < wrap (a + n) := by omega
  rw [checkedRead, Region.window_stop, Region.window_fetch, if_neg hp, Region.fetch_outside hs]

lemma bind_apply (r : BufferReader ε α) (f : α → BufferReader ε β) (W : Window) (a : ℕ) :
    (r >>= f) W a = match r W a with
      | .error x => .error x
      | .ok (v, b) => f v W b := by
  change Except.bind (r W a) _ = _
  cases r W a <;> rfl

lemma map_apply (r : BufferReader ε α) (f : α → β) (W : Window) (a : ℕ) :
    (f <$> r) W a = match r W a with
      | .error x => .error x
      | .ok (v, b) => .ok (f v, b) := by
  rw [map_eq_pure_bind, bind_apply]
  cases r W a <;> rfl

lemma pure_apply (v : α) (W : Window) (a : ℕ) : (pure v : BufferReader ε α) W a = .ok (v, a) := rfl

def Reads (r : BufferReader ε α) (R : Region) (a : ℕ) (v : α) (b : ℕ) : Prop := r R a = .ok (v, b)

lemma Reads.bind {r : BufferReader ε α} {f : α → BufferReader ε β} {b c : ℕ} {v : α} {w : β}
    (hr : Reads r R a v b) (hf : Reads (f v) R b w c) : Reads (r >>= f) R a w c := by
  unfold Reads at *
  rw [bind_apply, hr]
  exact hf

lemma Reads.map {r : BufferReader ε α} {b : ℕ} {v : α} (f : α → β) (hr : Reads r R a v b) :
    Reads (f <$> r) R a (f v) b := by
  unfold Reads at *
  rw [map_apply, hr]

lemma Reads.pure (v : α) : Reads (Pure.pure v : BufferReader ε α) R a v a := rfl

lemma Reads.chunk {x y z : Bytes} (hR : R.bytes = x ++ y ++ z) :
    Reads (checkedRead e y.length) R (R.base + x.length) y (R.base + x.length + y.length) := by
  have hs : R.base + x.length + y.length ≤ R.stop := by simp [Region.stop, hR]; omega
  have hc : R.slice (R.base + x.length) y.length = y := by
    simp [Region.slice, hR, List.append_assoc]
  rw [Reads, checkedRead_ok (by omega) hs, hc]

lemma read_bind_inv {r : BufferReader ε α} {f : α → BufferReader ε β} {W : Window} {b : ℕ} {v : β}
    (h : (r >>= f) W a = .ok (v, b)) : ∃ u c, r W a = .ok (u, c) ∧ f u W c = .ok (v, b) := by
  rw [bind_apply] at h
  split at h
  · cases h
  · next u c hr => exact ⟨u, c, hr, h⟩

lemma checkedRead_inv {b : ℕ} {bs : Bytes} (ha : R.base ≤ a) (hs : a ≤ R.stop)
    (hn : n < addressSpace) (h : checkedRead e n R a = .ok (bs, b)) :
    a + n ≤ R.stop ∧ bs = R.slice a n ∧ b = a + n := by
  by_cases hin : a + n ≤ R.stop
  · rw [checkedRead_ok ha hin] at h
    obtain ⟨rfl, rfl⟩ := Prod.mk.inj (Except.ok.inj h)
    exact ⟨hin, rfl, rfl⟩
  · by_cases hw : a + n < addressSpace
    · rw [checkedRead_raised (by omega) hw] at h
      cases h
    · rw [checkedRead_undefined hs hn (by omega)] at h
      cases h

lemma chunk_inv {x y bs : Bytes} {b : ℕ} (hR : R.bytes = x ++ y) (hn : n < addressSpace)
    (h : checkedRead e n R (R.base + x.length) = .ok (bs, b)) :
    ∃ z, y = bs ++ z ∧ bs.length = n ∧ b = R.base + (x ++ bs).length := by
  have hstop : R.stop = R.base + x.length + y.length := by
    rw [Region.stop, hR, List.length_append, Nat.add_assoc]
  obtain ⟨hin, hbs, rfl⟩ := checkedRead_inv (by omega) (by omega) hn h
  have hslice : bs = y.take n := by
    rw [hbs, Region.slice, hR]
    simp
  have hl : bs.length = n := by
    rw [hslice, List.length_take]
    omega
  refine ⟨y.drop n, ?_, hl, ?_⟩
  · rw [hslice, List.take_append_drop]
  · rw [List.length_append, hl, Nat.add_assoc]

def OnlyRaises (e : ε) (r : BufferReader ε α) : Prop :=
  ∀ W a x, r W a = .error (.raised x) → x = e

lemma OnlyRaises.bind {r : BufferReader ε α} {f : α → BufferReader ε β} (hr : OnlyRaises e r)
    (hf : ∀ v, OnlyRaises e (f v)) : OnlyRaises e (r >>= f) := by
  intro W a x h
  rw [bind_apply] at h
  split at h
  · next hx =>
    cases h
    exact hr W a x hx
  · exact hf _ W _ x h

lemma OnlyRaises.pure (v : α) : OnlyRaises e (Pure.pure v) := fun _ _ _ h => by cases h

lemma OnlyRaises.read (n : ℕ) : OnlyRaises e (checkedRead e n) := by
  intro W a x h
  rw [checkedRead] at h
  split_ifs at h
  · cases h
    rfl
  · split at h <;> cases h

/-- The reader returns a value satisfying `Q` with the pointer inside the region, or raises `e`. -/
def Confined (e : ε) (Q : α → Prop) (r : BufferReader ε α) (R : Region) (a : ℕ) : Prop :=
  match r R a with
  | .ok (v, b) => R.base ≤ b ∧ b ≤ R.stop ∧ Q v
  | .error x => x = .raised e

lemma confined_pure {Q : α → Prop} {v : α} (ha : R.base ≤ a) (hs : a ≤ R.stop) :
    Confined e Q (pure v) R a ↔ Q v := by
  simp [Confined, pure_apply, ha, hs]

lemma confined_read {Q : α → Prop} {f : Bytes → BufferReader ε α} (ha : R.base ≤ a)
    (hs : a ≤ R.stop)
    (hn : n < addressSpace) :
    Confined e Q (checkedRead e n >>= f) R a ↔
      a + n < addressSpace ∧ (a + n ≤ R.stop → Confined e Q (f (R.slice a n)) R (a + n)) := by
  unfold Confined
  rw [bind_apply]
  by_cases hin : a + n ≤ R.stop
  · have := R.stop_lt
    simp only [checkedRead_ok ha hin, hin, true_implies]
    exact ⟨fun h => ⟨by omega, h⟩, fun h => h.2⟩
  · by_cases hw : a + n < addressSpace
    · simp [checkedRead_raised (e := e) (by omega : R.stop < a + n) hw, hin, hw]
    · simp [checkedRead_undefined (e := e) hs hn (by omega), hw]

end Reading

structure Sink where
  base : ℕ
  capacity : ℕ
  fits : base + capacity < addressSpace

abbrev BufferWriter (ε α : Type) := ReaderT Sink (StateT Bytes (Except (Failure ε))) α

/-- Test the pointer, copy the bytes, move the pointer. The state is what has been written. -/
def checkedWrite {ε : Type} (e : ε) (bs : Bytes) : BufferWriter ε Unit := fun S w =>
  if S.base + S.capacity < wrap (S.base + w.length + bs.length) then .error (.raised e)
  else if S.capacity < w.length + bs.length then .error .undefined
  else .ok ((), w ++ bs)

section Writing

variable {ε : Type} {e : ε} {S : Sink} {w bs : Bytes}

lemma checkedWrite_ok (h : w.length + bs.length ≤ S.capacity) :
    checkedWrite e bs S w = .ok ((), w ++ bs) := by
  have := S.fits
  rw [checkedWrite, wrap_of_lt (by omega), if_neg (by omega), if_neg (by omega)]

lemma checkedWrite_raised (h : S.capacity < w.length + bs.length)
    (hs : S.base + w.length + bs.length < addressSpace) :
    checkedWrite e bs S w = .error (.raised e) := by
  rw [checkedWrite, wrap_of_lt hs, if_pos (by omega)]

lemma checkedWrite_inv {u : Unit} {w' : Bytes} (h : checkedWrite e bs S w = .ok (u, w')) :
    w' = w ++ bs ∧ w.length + bs.length ≤ S.capacity := by
  rw [checkedWrite] at h
  split_ifs at h with hstop hcap
  cases h
  exact ⟨rfl, not_lt.mp hcap⟩

lemma write_bind_apply {α β : Type} (p : BufferWriter ε α) (f : α → BufferWriter ε β) :
    (p >>= f) S w = match p S w with
      | .error x => .error x
      | .ok (v, w') => f v S w' := by
  change Except.bind (p S w) _ = _
  cases p S w <;> rfl

lemma write_bind_inv {α β : Type} {p : BufferWriter ε α} {f : α → BufferWriter ε β} {v : β}
    {w' : Bytes}
    (h : (p >>= f) S w = .ok (v, w')) : ∃ u w₁, p S w = .ok (u, w₁) ∧ f u S w₁ = .ok (v, w') := by
  rw [write_bind_apply] at h
  split at h
  · cases h
  · next u w₁ hp => exact ⟨u, w₁, hp, h⟩

end Writing

end Xty.General.Cursor
