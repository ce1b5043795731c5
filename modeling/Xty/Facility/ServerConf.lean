import Xty.Facility.ConfParse
import Xty.Facility.Strings

/-! What `GetServerAddrConfig` and `GetHeartIntervalConfig` make of the configured strings. -/

namespace Xty.Facility

open Xty.General.LittleEndian Xty.General.Decimal

inductive ConfFailure where
  | notCreated
  | unknownName
  | invalidPara (text : String)
deriving DecidableEq, Repr

/-- The list is that of the singleton, which may not have been created yet. -/
def getConfPara (conf : Option (List ConfPara)) (name : Bytes) : Except ConfFailure ConfPara :=
  match conf with
  | none => .error .notCreated
  | some confParaList =>
    match confParaList.find? fun p => p.confParaName = name with
    | some p => .ok p
    | none => .error .unknownName

def getServerAddrConfig (conf : Option (List ConfPara)) : Except ConfFailure (Bytes × UInt16) := do
  let ip ← getConfPara conf serverIP
  let port ← getConfPara conf serverPort
  if ipStringCheck ip.confParaStrValue = false then
    .error (.invalidPara "Invalid conf para 'server_ip': invalid ip string")
  else if numericStringCheck port.confParaStrValue = false then
    .error (.invalidPara "Invalid conf para 'server_port': invalid numeric string")
  else return (ip.confParaStrValue, stringToUint16 port.confParaStrValue)

def getHeartIntervalConfig (conf : Option (List ConfPara)) : Except ConfFailure UInt32 := do
  let interval ← getConfPara conf heartInterval
  if numericStringCheck interval.confParaStrValue = false then
    .error (.invalidPara "Invalid conf para 'heart_interval': invalid numeric string")
  else return stringToUint32 interval.confParaStrValue

def localIP : Bytes := ascii ['1', '0', '.', '0', '.', '0', '.', '1']

def addressConf (port : List Char) : List ConfPara :=
  [⟨.string, serverIP, localIP⟩,
    ⟨.uint16, serverPort, ascii port⟩]

def Fits (w : ℕ) (s : Bytes) : Prop := s ≠ [] ∧ value s < 2 ^ w

instance (w : ℕ) (s : Bytes) : Decidable (Fits w s) := inferInstanceAs (Decidable (_ ∧ _))

def AddressRefused (conf : Option (List ConfPara)) : Prop :=
  ∀ ip, getConfPara conf serverIP = .ok ip → ipStringCheck ip.confParaStrValue = false

section Words

variable {s : ParseState} {c : UInt8} {list : List ConfPara} {b : Bool}

structure WordsNonempty (s : ParseState) : Prop where
  line : ∀ w ∈ s.lineTempRes, w ≠ []
  list : ∀ p ∈ s.confParaList, p.confParaStrValue ≠ []

lemma WordsNonempty.endWord (h : WordsNonempty s) : WordsNonempty s.endWord := by
  rw [ParseState.endWord]
  split_ifs with _ ht
  · refine ⟨fun w hw => ?_, h.list⟩
    rcases List.mem_append.mp hw with hw | hw
    · exact h.line w hw
    · rw [List.mem_singleton.mp hw]
      exact ht
  · exact ⟨h.line, h.list⟩
  · exact h

lemma parseOneLine_nonempty {line : List Bytes} {list' : List ConfPara}
    (hl : ∀ w ∈ line, w ≠ []) (h : ∀ p ∈ list, p.confParaStrValue ≠ [])
    (hp : parseOneLine list line = (b, list')) : ∀ p ∈ list', p.confParaStrValue ≠ [] := by
  unfold parseOneLine at hp
  split at hp
  · next name value =>
    split at hp
    · obtain ⟨_, rfl⟩ := Prod.mk.inj hp
      intro p hp
      rcases List.mem_append.mp hp with hp | hp
      · exact h p hp
      · rw [List.mem_singleton.mp hp]
        exact hl value (by simp)
    · obtain ⟨_, rfl⟩ := Prod.mk.inj hp
      exact h
  · obtain ⟨_, rfl⟩ := Prod.mk.inj hp
    exact h

lemma WordsNonempty.endLine (h : WordsNonempty s) : WordsNonempty s.endLine.2 := by
  have hend : WordsNonempty ({ s with annotationArea := false } : ParseState).endWord :=
    WordsNonempty.endWord ⟨h.line, h.list⟩
  rw [ParseState.endLine]
  split_ifs
  · split
    · next hp => exact ⟨by simp, parseOneLine_nonempty hend.line hend.list hp⟩
    · next hp => exact ⟨hend.line, parseOneLine_nonempty hend.line hend.list hp⟩
  · exact hend

lemma WordsNonempty.round (h : WordsNonempty s) : WordsNonempty (s.round c).2 := by
  rw [ParseState.round]
  split_ifs
  · exact ⟨h.line, h.list⟩
  · exact h.endLine
  · exact h
  · exact h.endWord
  · exact ⟨h.line, h.list⟩
  · exact h

lemma scan_nonempty {bs : Bytes} (h : WordsNonempty s) (hs : scan bs s = some (b, list)) :
    ∀ p ∈ list, p.confParaStrValue ≠ [] := by
  induction bs generalizing s with
  | nil => cases hs
  | cons c cs ih =>
    rw [scan] at hs
    split_ifs at hs
    · obtain ⟨_, rfl⟩ := Prod.mk.inj (Option.some.inj hs)
      exact h.list
    · have hround := h.round (c := c)
      rcases hr : s.round c with ⟨_ | _, s'⟩ <;> rw [hr] at hs hround
      · obtain ⟨_, rfl⟩ := Prod.mk.inj (Option.some.inj hs)
        exact hround.list
      · exact ih hround hs

lemma parsed_values_nonempty {content : Bytes} (h : parseConfFile content = some (b, list)) :
    ∀ p ∈ list, p.confParaStrValue ≠ [] :=
  scan_nonempty ⟨by simp [ParseState.init], by simp [ParseState.init]⟩ h

end Words

section Numbers

variable {conf : Option (List ConfPara)} {p : ConfPara} {s : Bytes}

lemma denotes_mod_iff {w : ℕ} (hs : numericStringCheck s = true) :
    Denotes s (value s % 2 ^ w) ↔ Fits w s := by
  have hdigits := numericStringCheck_iff.mp hs
  constructor
  · intro h
    exact ⟨h.nonempty, h.value ▸ Nat.mod_lt _ (Nat.two_pow_pos w)⟩
  · rintro ⟨hne, hlt⟩
    exact ⟨hne, hdigits, (Nat.mod_eq_of_lt hlt).symm⟩

lemma port_exact_iff (hp : getConfPara conf serverPort = .ok p)
    (hs : numericStringCheck p.confParaStrValue = true) :
    (∀ ip port, getServerAddrConfig conf = .ok (ip, port) →
      Denotes p.confParaStrValue port.toNat) ↔
      AddressRefused conf ∨ Fits 16 p.confParaStrValue := by
  rw [← denotes_mod_iff hs, ← stringToUint16_toNat (numericStringCheck_iff.mp hs)]
  cases hip : getConfPara conf serverIP with
  | error e =>
    refine iff_of_true (fun ip port h => ?_) (Or.inl fun ip h => ?_)
    · rw [getServerAddrConfig, hip] at h
      cases h
    · rw [hip] at h
      cases h
  | ok ip =>
    have hrun : getServerAddrConfig conf = if ipStringCheck ip.confParaStrValue = false then
        .error (.invalidPara "Invalid conf para 'server_ip': invalid ip string")
        else .ok (ip.confParaStrValue, stringToUint16 p.confParaStrValue) := by
      rw [getServerAddrConfig, hip, hp]
      change (if _ then _ else if _ then _ else _) = _
      rw [hs, if_neg Bool.false_ne_true.symm]
      rfl
    rw [hrun]
    cases hcheck : ipStringCheck ip.confParaStrValue with
    | false =>
      refine iff_of_true (fun _ _ h => by cases h) (Or.inl fun ip' h => ?_)
      rw [← Except.ok.inj (hip.symm.trans h)]
      exact hcheck
    | true =>
      rw [if_neg Bool.false_ne_true.symm]
      constructor
      · exact fun h => Or.inr (h _ _ rfl)
      · rintro (h | h) ip' port heq
        · exact absurd (hcheck.symm.trans (h ip hip)) Bool.false_ne_true.symm
        · obtain ⟨_, rfl⟩ := Prod.mk.inj (Except.ok.inj heq)
          exact h

lemma interval_exact_iff (hp : getConfPara conf heartInterval = .ok p)
    (hs : numericStringCheck p.confParaStrValue = true) :
    (∀ n, getHeartIntervalConfig conf = .ok n → Denotes p.confParaStrValue n.toNat) ↔
      Fits 32 p.confParaStrValue := by
  rw [← denotes_mod_iff hs, ← stringToUint32_toNat (numericStringCheck_iff.mp hs)]
  have hrun : getHeartIntervalConfig conf = .ok (stringToUint32 p.confParaStrValue) := by
    rw [getHeartIntervalConfig, hp]
    change (if _ then _ else _) = _
    rw [hs, if_neg Bool.false_ne_true.symm]
    rfl
  rw [hrun]
  exact ⟨fun h => h _ rfl, fun h n hn => Except.ok.inj hn ▸ h⟩

/-- A string that passes the check is delivered as its number, or the configuration is refused. -/
theorem configured_numbers_exact_iff (conf : Option (List ConfPara)) (p : ConfPara)
    (hs : numericStringCheck p.confParaStrValue = true) :
    (getConfPara conf serverPort = .ok p →
      ((∀ ip port, getServerAddrConfig conf = .ok (ip, port) →
        Denotes p.confParaStrValue port.toNat) ↔
        AddressRefused conf ∨ Fits 16 p.confParaStrValue)) ∧
    (getConfPara conf heartInterval = .ok p →
      ((∀ n, getHeartIntervalConfig conf = .ok n → Denotes p.confParaStrValue n.toNat) ↔
        Fits 32 p.confParaStrValue)) :=
  ⟨fun hp => port_exact_iff hp hs, fun hp => interval_exact_iff hp hs⟩

theorem port_8080_exact :
    getServerAddrConfig (some (addressConf ['8', '0', '8', '0'])) =
        .ok (localIP, 8080) ∧
      Denotes (ascii ['8', '0', '8', '0']) (8080 : UInt16).toNat :=
  ⟨by decide, ((configured_numbers_exact_iff (some (addressConf ['8', '0', '8', '0']))
    ⟨.uint16, serverPort, ascii ['8', '0', '8', '0']⟩ (by decide)).1 (by decide)).mpr
    (Or.inr (by decide)) localIP 8080 (by decide)⟩

theorem port_65536_delivered_as_zero :
    numericStringCheck (ascii ['6', '5', '5', '3', '6']) = true ∧
      getServerAddrConfig (some (addressConf ['6', '5', '5', '3', '6'])) =
        .ok (localIP, 0) ∧
      ¬ Denotes (ascii ['6', '5', '5', '3', '6']) (0 : UInt16).toNat :=
  ⟨by decide, by decide, fun h => absurd h.value (by decide)⟩

end Numbers

end Xty.Facility
