import Xty.RbTree.Elements

/-! Every sequence of calls on an `xtyRbTree` leaves a red-black search tree. -/

namespace Xty.RbTree

open Xty.General.Programs Xty.General.RedBlack Xty.General.Heap ColorTree

variable {T κ : Type} [LinearOrder κ] {o : KeyOrder T κ}

inductive Operation (T : Type) where
  | insert (v : T)
  | delete (v : T)
  | clear
deriving DecidableEq, Repr

def Operation.run (o : KeyOrder T κ) : Operation T → TreeProgram T Unit
  | .insert v => do let _ ← RbTree.insert o v
  | .delete v => RbTree.delete o v
  | .clear => RbTree.clear

def runAll (o : KeyOrder T κ) : List (Operation T) → TreeProgram T Unit
  | [] => return ()
  | p :: ps => do
    p.run o
    runAll o ps

/-- The child pointers below `parent` spell out the tree, and every parent pointer leads back. -/
def Linked (g : Graph) : Ptr → ColorTree ℕ → Prop
  | _, .leaf => True
  | parent, .node c l a r => g.links (.node a) = some ⟨parent, ptr l, ptr r, c⟩ ∧
      Linked g (.node a) l ∧ Linked g (.node a) r

structure IsSearchTree (o : KeyOrder T κ) (t : LinkedTree T) (c : ColorTree ℕ) : Prop where
  root : t.graph.root = ptr c
  linked : Linked t.graph .sentinel c
  distinct : c.inorder.Nodup
  sentinel : ∃ p, t.graph.links .sentinel = some ⟨p, .sentinel, .sentinel, .black⟩
  increasing : (elements t c).Pairwise fun a b => o.less a b = true
  rootBlack : c.color = .black
  noRedRed : NoRedRed c
  blackHeight : ∃ n, BlackHeight c n
  count : c.size < 2 ^ 32 → t.nodeCount.toNat = c.size
  height : c.height ≤ 2 * Nat.log 2 (c.size + 1)

section

variable {t : LinkedTree T} {c c' : ColorTree ℕ}

lemma linked_of_describes {g : Graph} {q : Ptr} {R : LinkCells}
    (h : Describes g.links (treeCells q c + R)) : Linked g q c := by
  induction c generalizing q R with
  | leaf => trivial
  | node d l a r ihl ihr =>
    have hd := h.congr (N := cell (.node a) ⟨q, ptr l, ptr r, d⟩ + (treeCells (.node a) l
      + (treeCells (.node a) r + R))) (by rw [treeCells]; ac_rfl)
    have hl : Describes g.links (treeCells (.node a) l + (cell (.node a) ⟨q, ptr l, ptr r, d⟩
      + (treeCells (.node a) r + R))) := hd.congr (by ac_rfl)
    have hr : Describes g.links (treeCells (.node a) r + (cell (.node a) ⟨q, ptr l, ptr r, d⟩
      + (treeCells (.node a) l + R))) := hd.congr (by ac_rfl)
    exact ⟨hd.read rfl, ihl hl, ihr hr⟩

lemma Holds.isSearchTree (h : Holds o t c) : IsSearchTree o t c := by
  obtain ⟨p, hs⟩ := h.shows
  have hd : Describes t.graph.links (treeCells .sentinel c + cell .sentinel (sentinelLinks p)) := by
    apply hs.describes.congr
    rw [contextCells, contextPtr, add_zero, add_zero, add_comm]
  refine ⟨hs.root, linked_of_describes hd, hs.nodup, ⟨p, hs.sentinel_run⟩, ?_, h.redBlack.1,
    h.redBlack.2.1, h.redBlack.2.2, ?_, h.redBlack.height_le_log⟩
  · rw [elements, List.pairwise_map]
    exact h.sorted.imp fun hlt => (o.less_iff _ _).mpr hlt
  · intro hlt
    rw [h.count, UInt32.toNat_ofNat', Nat.mod_eq_of_lt hlt]

lemma linked_unique {g : Graph} {p : Ptr} (h : Linked g p c) (h' : Linked g p c')
    (hp : ptr c = ptr c') : c = c' := by
  induction c generalizing p c' with
  | leaf => exact (ptr_eq_sentinel.mp hp.symm).symm
  | node d l a r ihl ihr =>
    cases c' with
    | leaf => cases hp
    | node d' l' a' r' =>
      cases hp
      obtain ⟨hn, hl, hr⟩ := h
      obtain ⟨hn', hl', hr'⟩ := h'
      obtain ⟨_, hlp, hrp, rfl⟩ := Links.mk.inj (Option.some.inj (hn.symm.trans hn'))
      rw [ihl hl hl' hlp, ihr hr hr' hrp]

lemma IsSearchTree.unique (h : IsSearchTree o t c) (h' : IsSearchTree o t c') : c = c' :=
  linked_unique h.linked h'.linked (h.root.symm.trans h'.root)

lemma Operation.run_holds (p : Operation T) (h : Holds o t c) :
    Yields (p.run o) t fun _ t' => ∃ c', Holds o t' c' := by
  cases p with
  | insert v =>
    apply (insert_spec h v).bind
    rintro _ t' ⟨c', h', _⟩
    exact Yields.pure ⟨c', h'⟩
  | delete v =>
    apply (delete_spec h v).mono
    rintro _ t' ⟨c', h', _⟩
    exact ⟨c', h'⟩
  | clear => exact (clear_spec h).mono fun _ t' h' => ⟨.leaf, h'.1⟩

lemma runAll_holds (ps : List (Operation T)) (h : Holds o t c) :
    Yields (runAll o ps) t fun _ t' => ∃ c', Holds o t' c' := by
  induction ps generalizing t c with
  | nil => exact Yields.pure ⟨c, h⟩
  | cons p ps ih =>
    apply (p.run_holds h).bind
    rintro _ t' ⟨c', h'⟩
    exact ih h'

/-- On every tree that calls have led to, the repairs of a further call pass all their checks, which
change nothing. -/
theorem repairs_pass_checks [Inhabited T] (o : KeyOrder T κ) (ps : List (Operation T)) (v : T) :
    Yields (runAll o ps) create fun _ t =>
      (∃ r, Checked.insert o v t = some r ∧ insert o v t = some r) ∧
        ∃ r, Checked.delete o v t = some r ∧ delete o v t = some r := by
  apply (runAll_holds ps create_holds).mono
  rintro _ t ⟨c, h⟩
  exact ⟨(Checked.insert_spec h v).agrees (Checked.erases_insert v),
    (Checked.delete_spec h v).agrees (Checked.erases_delete v)⟩

theorem runAll_isSearchTree [Inhabited T] (o : KeyOrder T κ) (ps : List (Operation T)) :
    Yields (runAll o ps) create fun _ t => ∃ c, IsSearchTree o t c := by
  apply (runAll_holds ps create_holds).mono
  rintro _ t ⟨c, h⟩
  exact ⟨c, h.isSearchTree⟩

end

end Xty.RbTree
