import Mathlib.Data.List.Lex
import Xty.Facility.Numerals
import Xty.General.SortedTable
import Xty.Message.Serialize

/-! `m_ActiveClientTable`: the entities of the clients under their addresses. -/

namespace Xty.Server

open Xty.General.LittleEndian Xty.General.Cursor Xty.General.SortedTable
open Xty.Facility Xty.Message

-- The order of `std::string` is lexicographic on unsigned characters.
instance uint8LinearOrder : LinearOrder UInt8 where
  le_refl := UInt8.le_refl
  le_trans _ _ _ := UInt8.le_trans
  le_antisymm _ _ := UInt8.le_antisymm
  le_total := UInt8.le_total
  lt_iff_le_not_ge a b := by
    rw [UInt8.not_le]
    exact ⟨fun h => ⟨UInt8.le_of_lt h, h⟩, And.right⟩
  toDecidableLE := inferInstance
  toDecidableEq := inferInstance
  toDecidableLT := inferInstance

instance (priority := high) : LinearOrder Bytes where
  __ := (inferInstance : PartialOrder (List UInt8))
  le_total := le_total
  toDecidableEq := inferInstance
  toDecidableLE := inferInstance
  toDecidableLT := inferInstance
  toOrd := ⟨fun a b => compareOfLessAndEq a b⟩
  compare_eq_compareOfLessAndEq _ _ := rfl

def epollMaxEvents : ℕ := 1024
def clientBufferSize : ℕ := 4096

structure Connection where
  fd : ℕ
  ip : Bytes
  port : UInt16
deriving DecidableEq, Repr

def ipPort (ip port : Bytes) : Bytes := ip ++ [58] ++ port

def Connection.clientIPPort (c : Connection) : Bytes := ipPort c.ip (uint16ToString c.port)

structure RecvBuffer where
  base : ℕ
  fits : base + clientBufferSize < addressSpace
deriving DecidableEq, Repr

structure ClientEntity where
  clientFd : ℕ
  recvBuffer : RecvBuffer
  clientName : Bytes
  clientIP : Bytes
  clientPort : Bytes
deriving DecidableEq, Repr

def ClientEntity.create (fd : ℕ) (b : RecvBuffer) : ClientEntity := ⟨fd, b, [], [], []⟩

/-- The characters of `##Invalid: client log out##`. -/
def logOutText : Bytes :=
  [35, 35, 73, 110, 118, 97, 108, 105, 100, 58, 32, 99, 108, 105, 101, 110, 116, 32, 108, 111, 103,
    32, 111, 117, 116, 35, 35]

def ClientEntity.register (e : ClientEntity) (m : RegMsg) : ClientEntity :=
  { e with clientName := m.processName, clientIP := m.processIP, clientPort := m.processPort }

def ClientEntity.logOut (e : ClientEntity) : ClientEntity :=
  { e with clientName := logOutText, clientIP := logOutText, clientPort := logOutText }

/-- A null pointer is an entry like the others. -/
abbrev ClientTable := Table Bytes (Option ClientEntity)

namespace ClientTable

def index (T : ClientTable) (k : Bytes) : ClientTable :=
  match T.lookup k with
  | some _ => T
  | none => T.insert k none

def size (T : ClientTable) : UInt64 := (UInt32.ofNat T.entries.length).toUInt64

def addClient (T : ClientTable) (k : Bytes) (e : ClientEntity) : ClientTable :=
  (T.index k).insert k (some e)

def removeClient (T : ClientTable) (k : Bytes) : ClientTable :=
  ((T.index k).insert k none).erase k

def writeClient (T : ClientTable) (k : Bytes) (f : ClientEntity → ClientEntity) : ClientTable :=
  match (T.index k).lookup k with
  | some (some e) => (T.index k).insert k (some (f e))
  | _ => T.index k

def findFd (T : ClientTable) (fd : ℕ) : Option (Bytes × ClientEntity) :=
  T.entries.findSome? fun (k, v) =>
    v.bind fun e => if e.clientFd = fd then some (k, e) else none

variable {T : ClientTable} {k : Bytes}

lemma lookup_index (T : ClientTable) (k : Bytes) :
    (T.index k).lookup = Function.update T.lookup k (some ((T.lookup k).getD none)) := by
  rw [index]
  cases h : T.lookup k with
  | none => exact T.lookup_insert k none
  | some v =>
    rw [Option.getD_some]
    exact (Function.update_eq_self_iff.mpr h.symm).symm

lemma lookup_addClient (T : ClientTable) (k : Bytes) (e : ClientEntity) :
    (T.addClient k e).lookup = Function.update T.lookup k (some (some e)) := by
  rw [addClient, Table.lookup_insert, lookup_index, Function.update_idem]

lemma lookup_removeClient (T : ClientTable) (k : Bytes) :
    (T.removeClient k).lookup = Function.update T.lookup k none := by
  rw [removeClient, Table.lookup_erase, Table.lookup_insert, lookup_index, Function.update_idem,
    Function.update_idem]

lemma lookup_writeClient (T : ClientTable) (k : Bytes) (f : ClientEntity → ClientEntity) :
    (T.writeClient k f).lookup
      = Function.update T.lookup k (some (((T.lookup k).getD none).map f)) := by
  have hk : (T.index k).lookup k = some ((T.lookup k).getD none) := by
    rw [lookup_index, Function.update_self]
  rw [writeClient, hk]
  cases h : (T.lookup k).getD none with
  | none => rw [lookup_index, h, Option.map_none]
  | some e => rw [Table.lookup_insert, lookup_index, Function.update_idem, Option.map_some]

lemma findFd_some {fd : ℕ} {e : ClientEntity} (h : T.findFd fd = some (k, e)) :
    T.lookup k = some (some e) ∧ e.clientFd = fd := by
  obtain ⟨⟨k', v⟩, hm, hv⟩ := List.exists_of_findSome?_eq_some h
  obtain ⟨e', rfl, he⟩ := Option.bind_eq_some_iff.mp hv
  split_ifs at he with hfd
  cases he
  exact ⟨Table.lookup_eq_some.mpr hm, hfd⟩

lemma findFd_ne_none {e : ClientEntity} (h : T.lookup k = some (some e)) :
    T.findFd e.clientFd ≠ none := by
  intro hn
  have hm := List.findSome?_eq_none_iff.mp hn _ (Table.lookup_eq_some.mp h)
  simp at hm

end ClientTable

end Xty.Server
