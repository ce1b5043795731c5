import Xty.General.LittleEndian

/-! `xtyConfParse`: one loop over the characters of the configuration file. -/

namespace Xty.Facility

open Xty.General.LittleEndian

def confParseBufLen : ℕ := 4096

inductive ConfParaType where
  | string
  | uint16
  | uint32
deriving DecidableEq, Repr

structure ConfPara where
  confParaType : ConfParaType
  confParaName : Bytes
  confParaStrValue : Bytes
deriving DecidableEq, Repr

def ascii (cs : List Char) : Bytes := cs.map fun c => UInt8.ofNat c.toNat

def serverName : Bytes := ascii ['s', 'e', 'r', 'v', 'e', 'r', '_', 'n', 'a', 'm', 'e']
def serverIP : Bytes := ascii ['s', 'e', 'r', 'v', 'e', 'r', '_', 'i', 'p']
def serverPort : Bytes := ascii ['s', 'e', 'r', 'v', 'e', 'r', '_', 'p', 'o', 'r', 't']
def heartInterval : Bytes :=
  ascii ['h', 'e', 'a', 'r', 't', '_', 'i', 'n', 't', 'e', 'r', 'v', 'a', 'l']

abbrev ConfParaTypeTable := Bytes → Option ConfParaType

def initConfParaTypeTable : ConfParaTypeTable :=
  let t : ConfParaTypeTable := fun _ => none
  let t := Function.update t serverName (some .string)
  let t := Function.update t serverIP (some .string)
  let t := Function.update t serverPort (some .uint16)
  Function.update t heartInterval (some .uint32)

def sharp : UInt8 := 35
def newline : UInt8 := 10

def IsBlank (c : UInt8) : Prop := c = 32 ∨ c = 9

-- Letters, digits, the underscore and the full stop. A `char` above 127 is negative.
def IsParaChar (c : UInt8) : Prop :=
  97 ≤ c ∧ c ≤ 122 ∨ 65 ≤ c ∧ c ≤ 90 ∨ 48 ≤ c ∧ c ≤ 57 ∨ c = 95 ∨ c = 46

instance (c : UInt8) : Decidable (IsBlank c) := inferInstanceAs (Decidable (_ ∨ _))

instance (c : UInt8) : Decidable (IsParaChar c) := inferInstanceAs (Decidable (_ ∨ _))

def parseOneLine (confParaList : List ConfPara) (lineContent : List Bytes) :
    Bool × List ConfPara :=
  match lineContent with
  | [name, value] =>
    match initConfParaTypeTable name with
    | some type => (true, confParaList ++ [⟨type, name, value⟩])
    | none => (false, confParaList)
  | _ => (false, confParaList)

structure ParseState where
  annotationArea : Bool
  confParaArea : Bool
  tempRes : Bytes
  lineTempRes : List Bytes
  confParaList : List ConfPara
deriving DecidableEq, Repr

namespace ParseState

def init : ParseState := ⟨false, false, [], [], []⟩

def endWord (s : ParseState) : ParseState :=
  if s.confParaArea then
    if s.tempRes ≠ [] then
      { s with confParaArea := false, lineTempRes := s.lineTempRes ++ [s.tempRes], tempRes := [] }
    else { s with confParaArea := false }
  else s

def endLine (s : ParseState) : Bool × ParseState :=
  let s := { s with annotationArea := false }.endWord
  if s.lineTempRes ≠ [] then
    match parseOneLine s.confParaList s.lineTempRes with
    | (true, list) => (true, { s with confParaList := list, lineTempRes := [] })
    | (false, list) => (false, { s with confParaList := list })
  else (true, s)

/-- One round of the loop, and whether it goes on. -/
def round (s : ParseState) (c : UInt8) : Bool × ParseState :=
  if c = sharp then (true, { s with annotationArea := true })
  else if c = newline then s.endLine
  else if s.annotationArea then (true, s)
  else if IsBlank c then (true, s.endWord)
  else if ¬ IsParaChar c then (false, s)
  else (true, { s with confParaArea := true, tempRes := s.tempRes ++ [c] })

end ParseState

/-- The loop at a place in the buffer. There is no result when it runs over the end. -/
def scan : Bytes → ParseState → Option (Bool × List ConfPara)
  | [], _ => none
  | c :: cs, s =>
    if c = 0 then some (true, s.confParaList)
    else match s.round c with
      | (true, s) => scan cs s
      | (false, s) => some (false, s.confParaList)

/-- The buffer is cleared before `read`. -/
def readConf (content : Bytes) : Bytes :=
  content.take confParseBufLen ++ List.replicate (confParseBufLen - content.length) 0

def parseConfFile (content : Bytes) : Option (Bool × List ConfPara) :=
  scan (readConf content) ParseState.init

end Xty.Facility
