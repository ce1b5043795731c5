import Xty.RbTree.Rotate

/-! Checks on what the repairs rely on. A checked program stops at a node that is not there, at a
sentinel that would become red and at a wrong choice of side. -/

namespace Xty.RbTree

open Xty.General.Programs Xty.General.RedBlack Xty.General.Heap ColorTree

section Checks

def Graph.isReal (g : Graph) : Ptr → Bool
  | .null => false
  | .sentinel => false
  | .node n => (g.links (.node n)).isSome

/-- The number of black nodes on every path from here to the sentinel, if there is one number. -/
def Graph.blackHeight (g : Graph) : ℕ → Ptr → Option ℕ
  | 0, _ => none
  | fuel + 1, p =>
    if p = .sentinel then some 0
    else do
      let k ← g.links p
      let m ← g.blackHeight fuel k.left
      let n ← g.blackHeight fuel k.right
      if m = n then some (n + k.color.weight) else none

/-- The node is on the side `s` of its parent, and its subtree is one black node short. -/
def Graph.lacksOn (g : Graph) (fuel : ℕ) (s : Side) (node parent : Ptr) : Bool :=
  match g.links parent with
  | none => false
  | some k => k.child s = node ∧ (g.blackHeight fuel node).isSome ∧
      (g.blackHeight fuel node).map (· + 1) = g.blackHeight fuel (k.child s.other)

namespace Checked

def setColor (p : Ptr) (c : Color) : GraphProgram Unit := do
  require fun _ => p ≠ .sentinel ∨ c = .black
  RbTree.setColor p c

def rotate (s : Side) (node : Ptr) : GraphProgram Unit := do
  let temp ← getChild s.other node
  require (Graph.isReal · temp)
  RbTree.rotate s node

end Checked

end Checks

section

variable {g : Graph} {t u : ColorTree ℕ} {C : Context ℕ} {f : Frame ℕ} {p : Ptr} {F : LinkCells}

lemma Checked.erases_setColor (p : Ptr) (c : Color) :
    Erases (setColor p c) (RbTree.setColor p c) := (Erases.refl _).require _

lemma Checked.erases_rotate (s : Side) (q : Ptr) : Erases (rotate s q) (RbTree.rotate s q) := by
  intro g r h
  rw [rotate, bind_apply] at h
  obtain ⟨⟨temp, g'⟩, hread, hr⟩ := Option.bind_eq_some_iff.mp h
  obtain ⟨k, _, hk⟩ := Option.map_eq_some_iff.mp hread
  obtain ⟨rfl, rfl⟩ := Prod.mk.inj hk
  exact (Erases.refl (RbTree.rotate s q)).require _ g r hr

lemma Shows.isReal {s : Side} {c : Color} {a : ℕ} (h : Shows g (link s c t a u) C p F) :
    g.isReal (.node a) = true := by
  rw [Graph.isReal, h.node_run]
  rfl

lemma Shows.isReal_of_ne (h : Shows g t C p F) (ht : t ≠ .leaf) : g.isReal (ptr t) = true := by
  cases t with
  | leaf => exact absurd rfl ht
  | node => exact h.isReal (s := .left)

lemma Checked.rotate_spec {s : Side} {c d : Color} {A B D : ColorTree ℕ} {x y : ℕ}
    (h : Shows g (link s c A x (link s d B y D)) C p F) :
    Yields (rotate s (.node x)) g fun _ g' =>
      Shows g' (link s d (link s c A x B) y D) C p F := by
  have hA : Shows g A (⟨s, c, x, link s d B y D⟩ :: C) p F := h.refocus rfl
  have hpivot := hA.sibling_run
  rw [ptr_link] at hpivot
  rw [rotate]
  exact Yields.step hpivot (Yields.require hA.across.isReal (RbTree.rotate_spec h))

lemma blackHeight_run {q : Ptr} {R : LinkCells} {n fuel : ℕ}
    (h : Describes g.links (treeCells q t + R)) (hb : BlackHeight t n) (hfuel : t.height < fuel) :
    g.blackHeight fuel (ptr t) = some n := by
  induction t generalizing q R n fuel with
  | leaf =>
    obtain ⟨k, rfl⟩ := Nat.exists_eq_add_of_lt hfuel
    obtain rfl := hb
    rfl
  | node c l a r ihl ihr =>
    obtain _ | fuel := fuel
    · exact absurd hfuel (Nat.not_lt_zero _)
    obtain ⟨m, rfl, hl, hr⟩ := hb
    have hd := h.congr (N := cell (.node a) ⟨q, ptr l, ptr r, c⟩ + (treeCells (.node a) l
      + (treeCells (.node a) r + R))) (by rw [treeCells]; ac_rfl)
    have hleft : Describes g.links (treeCells (.node a) l + (cell (.node a) ⟨q, ptr l, ptr r, c⟩
      + (treeCells (.node a) r + R))) := hd.congr (by ac_rfl)
    have hright : Describes g.links (treeCells (.node a) r
      + (cell (.node a) ⟨q, ptr l, ptr r, c⟩ + (treeCells (.node a) l + R))) :=
      hd.congr (by ac_rfl)
    rw [Graph.blackHeight, if_neg (by simp [ptr]), ptr, hd.read rfl]
    have hheight := Nat.lt_of_succ_lt_succ hfuel
    have hm := ihl hleft hl (lt_of_le_of_lt (le_max_left _ _) hheight)
    have hn := ihr hright hr (lt_of_le_of_lt (le_max_right _ _) hheight)
    simp [hm, hn]

lemma Shows.blackHeight_run {n fuel : ℕ} (h : Shows g t C p F) (hb : BlackHeight t n)
    (hfuel : (plug t C).size < fuel) : g.blackHeight fuel (ptr t) = some n := by
  refine RbTree.blackHeight_run (q := contextPtr C) (R := cell .sentinel (sentinelLinks p)
    + (contextCells (ptr t) C + F)) (h.describes.congr (by ac_rfl)) hb ?_
  have := height_le_size t
  rw [size_plug] at hfuel
  omega

lemma Shows.lacksOn {n fuel : ℕ} (h : Shows g t (f :: C) p F) (ht : BlackHeight t n)
    (hf : BlackHeight f.sibling (n + 1)) (hfuel : (plug t (f :: C)).size < fuel) :
    g.lacksOn fuel f.side (ptr t) (.node f.value) = true := by
  have hsib := h.across.blackHeight_run hf (by
    rw [plug, Frame.fill, link_other]
    exact hfuel)
  rw [Graph.lacksOn, h.up.node_run]
  simp [h.blackHeight_run ht hfuel, hsib]

lemma Shows.paint (h : Shows g t C p F) (c : Color) (hc : t = .leaf → c = .black) :
    Yields (Checked.setColor (ptr t) c) g fun _ g' => Shows g' (t.paint c) C p F := by
  refine Yields.require (decide_eq_true ?_) (h.writeColor c hc)
  rw [Ne, ptr_eq_sentinel]
  exact not_or_of_imp hc

lemma Shows.paint_node {s : Side} {c : Color} {a : ℕ}
    (h : Shows g (link s c t a u) C p F) (d : Color) :
    Yields (Checked.setColor (.node a) d) g fun _ g' => Shows g' (link s d t a u) C p F := by
  have hp := h.paint d fun hl => absurd hl (link_ne_leaf _ _ _ _ _)
  rwa [ptr_link, paint_link] at hp

lemma Shows.paint_parent {s : Side} {c : Color} {a : ℕ} (h : Shows g t (⟨s, c, a, u⟩ :: C) p F)
    (d : Color) :
    Yields (Checked.setColor (.node a) d) g fun _ g' => Shows g' t (⟨s, d, a, u⟩ :: C) p F :=
  (h.up.paint_node d).mono fun _ _ h' => h'.refocus rfl

lemma Shows.paint_sibling {s s' : Side} {c e : Color} {a b : ℕ} {y z : ColorTree ℕ}
    (h : Shows g t (⟨s, c, a, link s' e y b z⟩ :: C) p F) (d : Color) :
    Yields (Checked.setColor (.node b) d) g
      fun _ g' => Shows g' t (⟨s, c, a, link s' d y b z⟩ :: C) p F := by
  apply (h.across.paint_node d).mono
  intro _ g' h'
  simpa only [Side.other_other] using h'.across

end

end Xty.RbTree
