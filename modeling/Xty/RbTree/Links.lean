import Xty.General.Heap
import Xty.General.Programs
import Xty.General.RedBlack.FixUp

/-! The linked nodes of `xty_rbtree.h`: child and parent pointers, colours, rotations and
transplants. Left and right versions of the source are one definition over a side. -/

namespace Xty.RbTree

open Xty.General.Programs Xty.General.RedBlack Xty.General.Heap

inductive Ptr where
  | null
  | sentinel
  | node (n : ℕ)
deriving DecidableEq, Repr

structure Links where
  parent : Ptr
  left : Ptr
  right : Ptr
  color : Color
deriving DecidableEq, Repr

namespace Links

def child (k : Links) : Side → Ptr
  | .left => k.left
  | .right => k.right

def setChild (k : Links) (s : Side) (p : Ptr) : Links :=
  match s with
  | .left => { k with left := p }
  | .right => { k with right := p }

def make (s : Side) (parent near far : Ptr) (color : Color) : Links :=
  match s with
  | .left => ⟨parent, near, far, color⟩
  | .right => ⟨parent, far, near, color⟩

section

variable (s : Side) (p q near far : Ptr) (c d : Color)

@[simp] lemma make_parent : (make s p near far c).parent = p := by cases s <;> rfl

@[simp] lemma make_child : (make s p near far c).child s = near := by cases s <;> rfl

@[simp] lemma make_child_other : (make s p near far c).child s.other = far := by
  cases s <;> rfl

@[simp] lemma make_setChild : (make s p near far c).setChild s q = make s p q far c := by
  cases s <;> rfl

@[simp] lemma make_setChild_other :
    (make s p near far c).setChild s.other q = make s p near q c := by
  cases s <;> rfl

@[simp] lemma make_setParent :
    { make s p near far c with parent := q } = make s q near far c := by cases s <;> rfl

end

end Links

/-- The nodes that exist, the sentinel among them, and the root pointer. -/
structure Graph where
  links : Ptr → Option Links
  root : Ptr

def Graph.write (g : Graph) (p : Ptr) (k : Links) : Graph :=
  { g with links := Function.update g.links p (some k) }

@[simp] lemma Graph.write_root (g : Graph) (p : Ptr) (k : Links) : (g.write p k).root = g.root :=
  rfl

abbrev GraphProgram (α : Type) := Program Graph α

section Primitives

def readLinks {α : Type} (f : Links → α) (p : Ptr) : GraphProgram α := fun g =>
  (g.links p).map fun k => (f k, g)

def writeLinks (f : Links → Links) (p : Ptr) : GraphProgram Unit := fun g =>
  (g.links p).map fun k => ((), g.write p (f k))

def getParent : Ptr → GraphProgram Ptr := readLinks Links.parent
def getChild (s : Side) : Ptr → GraphProgram Ptr := readLinks (Links.child · s)
def getColor : Ptr → GraphProgram Color := readLinks Links.color
def getRoot : GraphProgram Ptr := fun g => some (g.root, g)

def setParent (p q : Ptr) : GraphProgram Unit := writeLinks ({ · with parent := q }) p
def setChild (s : Side) (p q : Ptr) : GraphProgram Unit := writeLinks (Links.setChild · s q) p
def setColor (p : Ptr) (c : Color) : GraphProgram Unit := writeLinks ({ · with color := c }) p
def setRoot (p : Ptr) : GraphProgram Unit := fun g => some ((), { g with root := p })

variable {g : Graph} {p q : Ptr} {k : Links}

lemma readLinks_run {α : Type} {f : Links → α} (h : g.links p = some k) :
    readLinks f p g = some (f k, g) := by
  rw [readLinks, h]
  rfl

lemma writeLinks_run {f : Links → Links} (h : g.links p = some k) :
    writeLinks f p g = some ((), g.write p (f k)) := by
  rw [writeLinks, h]
  rfl

end Primitives

section Rotations

def adopt (child parent : Ptr) : GraphProgram Unit :=
  if child ≠ .sentinel then setParent child parent else pure ()

/-- The link from above moves from `old` to `new`; the side `s` is tested first. -/
def replaceChild (s : Side) (parent old new : Ptr) : GraphProgram Unit :=
  if parent = .sentinel then setRoot new
  else do
    let near ← getChild s parent
    if old = near then setChild s parent new else setChild s.other parent new

def rotate (s : Side) (node : Ptr) : GraphProgram Unit := do
  let temp ← getChild s.other node
  -- deal with parent-child pair1
  let inner ← getChild s temp
  setChild s.other node inner
  adopt inner node
  -- deal with parent-child pair2
  let parent ← getParent node
  setParent temp parent
  replaceChild s parent node temp
  -- deal with parent-child pair3
  setChild s temp node
  setParent node temp

def leftRotate : Ptr → GraphProgram Unit := rotate .left
def rightRotate : Ptr → GraphProgram Unit := rotate .right

def transPlant (old new : Ptr) : GraphProgram Unit := do
  let parent ← getParent old
  replaceChild .left parent old new
  -- the new node may be the sentinel, whose parent pointer then marks the place
  setParent new parent

end Rotations

end Xty.RbTree
