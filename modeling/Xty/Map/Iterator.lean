import Xty.Map.Runs
import Xty.RbTree.Iterator

/-! `xtyMapIterator`, which moves the iterator of the tree underneath. -/

namespace Xty.Map

open Xty.General.Programs Xty.General.RedBlack Xty.RbTree

def iterator {K V : Type} : IteratorOps (MapNode K V) where
  iterBegin := RbTree.iterator.iterBegin
  iterReverseBegin := RbTree.iterator.iterReverseBegin
  iterEnd := RbTree.iterator.iterEnd
  increment := RbTree.iterator.increment
  decrement := RbTree.iterator.decrement

variable {T κ K V : Type} [LinearOrder κ] [LinearOrder K] [Inhabited V] [BEq V]

/-- Whatever calls came before, an iterator passes every node of a tree or a map once, in order,
and is at the end after as many steps as there are nodes. The counter has this number modulo the
width of an `unsigned int`. -/
theorem iterator_visits_all [Inhabited T] [Inhabited K] (o : KeyOrder T κ)
    (ps : List (RbTree.Operation T)) (qs : List (Operation K V)) :
    (Yields (RbTree.runAll o ps) create fun _ t => ∃ c, IsSearchTree o t c ∧
      Iterates RbTree.iterator o t c) ∧
      Yields (runAll qs) create fun _ t => ∃ c, IsSearchTree nodeOrder t c ∧
        Iterates iterator nodeOrder t c ∧ Yields size t fun n _ => n.toNat = c.size % 2 ^ 32 := by
  constructor
  · apply (RbTree.runAll_holds ps create_holds).mono
    rintro _ t ⟨c, h⟩
    exact ⟨c, h.isSearchTree, h.iterates⟩
  · apply (runAll_spec qs create_binds).mono
    rintro _ t ⟨_, c, h⟩
    refine ⟨c, h.holds.isSearchTree, h.holds.iterates, Yields.of_eq rfl ?_⟩
    rw [UInt32.toNat_toUInt64, h.holds.iterates.count]

/-- A map with `2 ^ 32` keys says that it has none, and its iterator does not begin at the end. -/
theorem iterator_outruns_size :
    Yields (runAll ((List.range (2 ^ 32)).map Operation.insertKey))
      (create : LinkedTree (MapNode ℕ ℕ)) fun _ t =>
      Yields size t (fun n _ => n = 0) ∧
        Yields iterator.iterBegin t fun q _ => iterator.iterEnd t ≠ some (q, t) := by
  apply (runAll_spec _ create_binds).mono
  rintro _ t ⟨_, c, h⟩
  rw [applyAll_range] at h
  have hsize : c.size = 2 ^ 32 := by rw [← h.ncard, ncard_range]
  have hcount : t.nodeCount = 0 := by
    rw [h.holds.count, hsize]
    rfl
  refine ⟨Yields.of_eq rfl ?_, ?_⟩
  · rw [hcount]
    rfl
  · have hlen := length_walk (s := .right) c
    rw [hsize] at hlen
    refine Yields.of_eq (h.holds.start_run (s := .right)) ?_
    cases hw : c.walk .right with
    | nil => simp [hw] at hlen
    | cons a y =>
      intro he
      cases he

end Xty.Map
