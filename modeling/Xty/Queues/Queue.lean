import Mathlib.Tactic

/-! `xtyQueue`: the values between the two ends of the sentinel, and the counter. -/

namespace Xty.Queues

structure Queue (T : Type) where
  nodes : List T
  nodeCount : UInt32
deriving DecidableEq, Repr

/-- `emptyQueue` is thrown. At `sentinel` the counter has let a caller take the sentinel for a
node. -/
inductive Fault where
  | emptyQueue
  | sentinel
deriving DecidableEq, Repr

namespace Queue

variable {T : Type}

def create : Queue T := ⟨[], 0⟩

def enQueue (q : Queue T) (v : T) : Queue T := ⟨q.nodes ++ [v], q.nodeCount + 1⟩

def deQueue (q : Queue T) : Except Fault (T × Queue T) :=
  if q.nodeCount = 0 then .error .emptyQueue
  else match q.nodes with
    | [] => .error .sentinel
    | v :: vs => .ok (v, ⟨vs, q.nodeCount - 1⟩)

def Counted (q : Queue T) : Prop := q.nodeCount = UInt32.ofNat q.nodes.length

variable {q q' : Queue T} {v : T}

lemma Counted.enQueue (h : q.Counted) (v : T) : (q.enQueue v).Counted := by
  rw [Counted, Queue.enQueue, h, List.length_append, List.length_singleton, UInt32.ofNat_add]
  rfl

lemma deQueue_ok (h : q.deQueue = .ok (v, q')) :
    q.nodes = v :: q'.nodes ∧ q'.nodeCount = q.nodeCount - 1 := by
  rw [deQueue] at h
  split_ifs at h
  split at h
  · cases h
  · next hn =>
    cases h
    exact ⟨hn, rfl⟩

lemma Counted.deQueue (h : q.Counted) (hq : q.deQueue = .ok (v, q')) : q'.Counted := by
  obtain ⟨hn, hc⟩ := deQueue_ok hq
  rw [Counted, hc, h, hn, List.length_cons, UInt32.ofNat_add]
  exact UInt32.add_sub_cancel _ _

lemma Counted.deQueue_some (h : q.Counted) (hpos : 0 < q.nodes.length)
    (hlt : q.nodes.length < 2 ^ 32) : ∃ r, q.deQueue = .ok r := by
  have hne : q.nodeCount ≠ 0 := by
    intro hz
    have hn := congrArg UInt32.toNat (h.symm.trans hz)
    rw [UInt32.toNat_ofNat', Nat.mod_eq_of_lt hlt] at hn
    exact hpos.ne' hn
  rw [Queue.deQueue, if_neg hne]
  cases hq : q.nodes with
  | nil =>
    rw [hq] at hpos
    cases hpos
  | cons v vs => exact ⟨_, rfl⟩

end Queue

section Counters

variable {n : UInt32}

lemma toNat_increment (h : n.toNat + 1 < 2 ^ 32) : (n + 1).toNat = n.toNat + 1 := by
  rw [UInt32.toNat_add, UInt32.toNat_one, Nat.mod_eq_of_lt h]

lemma toNat_increment_le (n : UInt32) : (n + 1).toNat ≤ n.toNat + 1 := by
  rw [UInt32.toNat_add]
  exact Nat.mod_le _ _

lemma toNat_pos (h : n ≠ 0) : 0 < n.toNat :=
  Nat.pos_of_ne_zero fun hz => h (UInt32.toNat_inj.mp hz)

lemma toNat_decrement (h : 0 < n.toNat) : (n - 1).toNat = n.toNat - 1 :=
  UInt32.toNat_sub_of_le _ _ (UInt32.le_iff_toNat_le.mpr h)

end Counters

end Xty.Queues
