import Xty.General.Cursor
import Xty.General.Objects

/-! `xtyArray`: elements are constructed and destructed by hand in storage from an allocator. -/

namespace Xty.Arrays

open Xty.General.Programs Xty.General.Objects Xty.General.Cursor

def defaultArraySize : ℕ := 4

/-- The size of an element, and the requests that the allocators meet. Another request ends the
process, as it does in the pools. -/
structure Platform where
  elementSize : ℕ
  positive : 0 < elementSize
  fits : defaultArraySize * elementSize < addressSpace
  grants : (alloc blocks bytes : ℕ) → Bool
  bounded : ∀ alloc blocks bytes, grants alloc blocks bytes = true → 2 * bytes < addressSpace

/-- The members. The operator `==` compares all four of them. -/
structure ArrayObject where
  nodeCount : ℕ
  nodeCapacity : ℕ
  dataStorage : ℕ
  alloc : ℕ
deriving DecidableEq, Repr

/-- What a reference to an element type is bound to. -/
inductive Reference (T : Type) where
  | outside (v : T)
  | element (a : Address)

variable {ι T : Type}

section Loops

def allocate (P : Platform) (alloc bytes : ℕ) : StorageProgram T (Option ℕ) := fun S =>
  if P.grants alloc S.room.length bytes = true then
    (newBlock (bytes / P.elementSize) S).map fun r => (some r.1, r.2)
  else some (none, S)

def copyElements (source target : ℕ) : ℕ → ℕ → StorageProgram T Unit
  | _, 0 => return ()
  | i, n + 1 => do
    construct ⟨target, i⟩ (← load ⟨source, i⟩)
    copyElements source target (i + 1) n

def destructElements (storage : ℕ) : ℕ → ℕ → StorageProgram T Unit
  | _, 0 => return ()
  | i, n + 1 => do
    destruct ⟨storage, i⟩
    destructElements storage (i + 1) n

def deref : Reference T → StorageProgram T T
  | .outside v => return v
  | .element a => load a

end Loops

namespace ArrayObject

/-- The constructor. It ends the process when there is no allocator. -/
def create (P : Platform) : Option ℕ → StorageProgram T (Option ArrayObject)
  | none => return none
  | some alloc => do
    match ← allocate P alloc (wrap (defaultArraySize * P.elementSize)) with
    | none => return none
    | some storage => return some ⟨0, defaultArraySize, storage, alloc⟩

def copyConstruct (array : ArrayObject) (P : Platform) : StorageProgram T (Option ArrayObject) := do
  match ← allocate P array.alloc (wrap (array.nodeCapacity * P.elementSize)) with
  | none => return none
  | some storage => do
    copyElements array.dataStorage storage 0 array.nodeCount
    return some { array with dataStorage := storage }

-- Behind the test the operator does what the copy constructor does. The storage that the array
-- has had, and the elements there, are left as they are.
def assign (this : ArrayObject) (P : Platform) (array : ArrayObject) :
    StorageProgram T (Option ArrayObject) :=
  if this = array then return some this
  else array.copyConstruct P

def grow (this : ArrayObject) (P : Platform) (pushValue : Reference T) :
    StorageProgram T (Option ArrayObject) := do
  let nodeCapacity := wrap (this.nodeCapacity * 2)
  match ← allocate P this.alloc (wrap (nodeCapacity * P.elementSize)) with
  | none => return none
  | some storage => do
    copyElements this.dataStorage storage 0 this.nodeCount
    construct ⟨storage, this.nodeCount⟩ (← deref pushValue)
    destructElements this.dataStorage 0 this.nodeCount
    return some ⟨wrap (this.nodeCount + 1), nodeCapacity, storage, this.alloc⟩

def pushBack (this : ArrayObject) (P : Platform) (pushValue : Reference T) :
    StorageProgram T (Option ArrayObject) := do
  if this.nodeCount < this.nodeCapacity then do
    construct ⟨this.dataStorage, this.nodeCount⟩ (← deref pushValue)
    return some { this with nodeCount := wrap (this.nodeCount + 1) }
  else this.grow P pushValue

def popBack (this : ArrayObject) : StorageProgram T ArrayObject := do
  let last := wrap (this.nodeCount + (addressSpace - 1))
  destruct ⟨this.dataStorage, last⟩
  return { this with nodeCount := last }

def clear (this : ArrayObject) : StorageProgram T ArrayObject := do
  destructElements this.dataStorage 0 this.nodeCount
  return { this with nodeCount := 0 }

/-- The operator `[]`, without a result where it throws `XTY_INVALID_ARRAY_INDEX`. -/
def subscript (this : ArrayObject) (pos : ℕ) : Option Address :=
  if this.nodeCount ≤ pos then none else some ⟨this.dataStorage, pos⟩

/-- The destructor. Storage that has been granted is not null. -/
def destroy (this : ArrayObject) : StorageProgram T Unit :=
  destructElements this.dataStorage 0 this.nodeCount

end ArrayObject

section Actions

structure ArrayState (ι T : Type) where
  storage : Storage T
  arrays : ι → Option ArrayObject

abbrev ArraysProgram (ι T α : Type) := Program (ArrayState ι T) α

/-- What `PushBack` is called with: a value, or an element of an array, this one or another. -/
inductive Pushed (ι T : Type) where
  | value (v : T)
  | element (y : ι) (pos : ℕ)

inductive Action (ι T : Type) where
  | create (x : ι) (alloc : Option ℕ)
  | copyConstruct (x y : ι)
  | assign (x y : ι)
  | pushBack (x : ι) (pushed : Pushed ι T)
  | popBack (x : ι)
  | clear (x : ι)
  | read (x : ι) (pos : ℕ)
  | write (x : ι) (pos : ℕ) (v : T)
  | destroy (x : ι)

inductive Outcome (T : Type) where
  | done
  | value (v : T)
  | thrown
  | exited
deriving DecidableEq

def Outcome.ends : Outcome T → Bool
  | .done => false
  | .value _ => false
  | .thrown => false
  | .exited => true

def initial : ArrayState ι T := ⟨empty, fun _ => none⟩

def onStorage {α : Type} (m : StorageProgram T α) : ArraysProgram ι T α := fun s =>
  (m s.storage).map fun r => (r.1, { s with storage := r.2 })

def fetch (x : ι) : ArraysProgram ι T ArrayObject := fun s => (s.arrays x).map fun a => (a, s)

def vacant (x : ι) : ArraysProgram ι T Unit := fun s =>
  if (s.arrays x).isNone then some ((), s) else none

variable [DecidableEq ι]

def setArray (x : ι) (a : Option ArrayObject) : ArraysProgram ι T Unit := fun s =>
  some ((), { s with arrays := Function.update s.arrays x a })

def finish (x : ι) : Option ArrayObject → ArraysProgram ι T (Outcome T)
  | none => return .exited
  | some a => do
    setArray x (some a)
    return .done

def refer : Pushed ι T → ArraysProgram ι T (Option (Reference T))
  | .value v => return some (.outside v)
  | .element y pos => do return ((← fetch y).subscript pos).map .element

/-- One statement about the arrays. There is no result where the program would be wrong. -/
def Action.run (P : Platform) : Action ι T → ArraysProgram ι T (Outcome T)
  | .create x alloc => do
    vacant x
    finish x (← onStorage (ArrayObject.create P alloc))
  | .copyConstruct x y => do
    vacant x
    finish x (← onStorage ((← fetch y).copyConstruct P))
  | .assign x y => do
    let this ← fetch x
    finish x (← onStorage (this.assign P (← fetch y)))
  | .pushBack x pushed => do
    let this ← fetch x
    match ← refer pushed with
    | none => return .thrown
    | some r => finish x (← onStorage (this.pushBack P r))
  | .popBack x => do
    finish x (some (← onStorage (← fetch x).popBack))
  | .clear x => do
    finish x (some (← onStorage (← fetch x).clear))
  | .read x pos => do
    match (← fetch x).subscript pos with
    | none => return .thrown
    | some a => return .value (← onStorage (load a))
  | .write x pos v => do
    match (← fetch x).subscript pos with
    | none => return .thrown
    | some a => do
      onStorage (store a v)
      return .done
  | .destroy x => do
    onStorage (← fetch x).destroy
    setArray x none
    return .done

def runAll (P : Platform) : List (Action ι T) → ArraysProgram ι T (List (Outcome T))
  | [] => return []
  | p :: ps => do
    let o ← p.run P
    if o.ends then return [o]
    else return o :: (← runAll P ps)

end Actions

section Reference

/-- What the arrays are meant to be: lists, each a value of its own. -/
abbrev Lists (ι T : Type) := ι → Option (List T)

variable [DecidableEq ι]

def Pushed.onLists (l : Lists ι T) : Pushed ι T → Option (Option T)
  | .value v => some (some v)
  | .element y pos => (l y).map fun ws => ws[pos]?

/-- The same statement about lists. It has no result where an array is missing or already there and
where the last element of an empty one would go. -/
def Action.onLists (l : Lists ι T) : Action ι T → Option (Outcome T × Lists ι T)
  | .create x _ =>
    if (l x).isNone then some (.done, Function.update l x (some [])) else none
  | .copyConstruct x y => do
    let ws ← l y
    if (l x).isNone then some (.done, Function.update l x (some ws)) else none
  | .assign x y => do
    let _ ← l x
    let ws ← l y
    return (.done, Function.update l x (some ws))
  | .pushBack x pushed => do
    let vs ← l x
    match ← pushed.onLists l with
    | none => return (.thrown, l)
    | some v => return (.done, Function.update l x (some (vs ++ [v])))
  | .popBack x => do
    let vs ← l x
    if vs.isEmpty then none else some (.done, Function.update l x (some vs.dropLast))
  | .clear x => do
    let _ ← l x
    return (.done, Function.update l x (some []))
  | .read x pos => do
    let vs ← l x
    match vs[pos]? with
    | none => return (.thrown, l)
    | some v => return (.value v, l)
  | .write x pos v => do
    let vs ← l x
    if pos < vs.length then return (.done, Function.update l x (some (vs.set pos v)))
    else return (.thrown, l)
  | .destroy x => do
    let _ ← l x
    return (.done, Function.update l x none)

def runLists : List (Action ι T) → Lists ι T → Option (List (Outcome T) × Lists ι T)
  | [], l => some ([], l)
  | p :: ps, l => do
    let (o, l) ← p.onLists l
    let (os, l) ← runLists ps l
    return (o :: os, l)

end Reference

end Xty.Arrays
