import Xty.RbTree.Tree

/-! `xtyMap`: a map whose nodes are kept in an `xtyRbTree` and compared by their keys. -/

namespace Xty.Map

open Xty.RbTree

structure MapNode (K V : Type) where
  key : K
  value : V
deriving DecidableEq, Repr, Inhabited

section

variable {K V : Type}

def nodeOrder [LinearOrder K] : KeyOrder (MapNode K V) K where
  key := MapNode.key
  less m n := m.key < n.key
  greater m n := m.key > n.key
  equal m n := m.key = n.key
  less_iff _ _ := decide_eq_true_iff
  greater_iff _ _ := decide_eq_true_iff
  equal_iff _ _ := decide_eq_true_iff

abbrev MapProgram (K V α : Type) := TreeProgram (MapNode K V) α

def getValue (p : Ptr) : MapProgram K V V := do
  return (← getData p).value

def setValue (p : Ptr) (v : V) : MapProgram K V Unit := do
  let d ← getData p
  setData p { d with value := v }

def size : MapProgram K V UInt64 := fun t => some (t.nodeCount.toUInt64, t)

def clear : MapProgram K V Unit := RbTree.clear

variable [LinearOrder K] [Inhabited V]

def keyNode (k : K) : MapNode K V := ⟨k, default⟩

def insertKey (k : K) : MapProgram K V Ptr := RbTree.insert nodeOrder (keyNode k)

def insertNode (n : MapNode K V) : MapProgram K V Ptr := do
  let p ← insertKey n.key
  if p ≠ .null then do
    setValue p n.value
    return p
  else return .null

def insertPair (k : K) (v : V) : MapProgram K V Ptr := insertNode ⟨k, v⟩

def searchKey (k : K) : MapProgram K V Ptr := RbTree.search nodeOrder (keyNode k)

def deleteKey (k : K) : MapProgram K V Unit := RbTree.delete nodeOrder (keyNode k)

def index (k : K) : MapProgram K V Ptr := do
  let found ← searchKey k
  if found ≠ .null then return found
  else insertKey k

variable [BEq V]

def searchNode (n : MapNode K V) : MapProgram K V Ptr := do
  let found ← searchKey n.key
  if found ≠ .null then do
    let v ← getValue found
    if n.value == v then return found else return .null
  else return .null

def searchPair (k : K) (v : V) : MapProgram K V Ptr := searchNode ⟨k, v⟩

def deleteNode (n : MapNode K V) : MapProgram K V Unit := do
  let found ← searchNode n
  if found ≠ .null then deleteKey n.key else return ()

def deletePair (k : K) (v : V) : MapProgram K V Unit := deleteNode ⟨k, v⟩

end

end Xty.Map
