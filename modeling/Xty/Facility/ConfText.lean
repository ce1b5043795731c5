import Xty.Facility.ConfGrammar
import Xty.Facility.ServerConf

/-! The texts of configuration files: lines with a setting, a comment, both or none. -/

namespace Xty.Facility

open Xty.General.LittleEndian Xty.General.Decimal Xty.General.Separators

/-- A parameter with the blanks around it. -/
structure Setting where
  confPara : ConfPara
  gap : Bytes
  trail : Bytes
  supported : initConfParaTypeTable confPara.confParaName = some confPara.confParaType
  value_ne : confPara.confParaStrValue ≠ []
  value_chars : ∀ c ∈ confPara.confParaStrValue, IsParaChar c
  gap_ne : gap ≠ []
  gap_blank : ∀ c ∈ gap, IsBlank c
  trail_blank : ∀ c ∈ trail, IsBlank c

def Setting.text (S : Setting) : Bytes :=
  S.confPara.confParaName ++ (S.gap ++ (S.confPara.confParaStrValue ++ S.trail))

structure ConfLine where
  indent : Bytes
  setting : Option Setting
  comment : Option Bytes
  indent_blank : ∀ c ∈ indent, IsBlank c
  comment_chars : ∀ cs ∈ comment, 0 ∉ cs ∧ newline ∉ cs

namespace ConfLine

def body (l : ConfLine) : Bytes := l.indent ++ (l.setting.map Setting.text).getD []

def remark (l : ConfLine) : Bytes := (l.comment.map fun cs => sharp :: cs).getD []

def text (l : ConfLine) : Bytes := l.body ++ l.remark

def para (l : ConfLine) : Option ConfPara := l.setting.map Setting.confPara

end ConfLine

def confText (lines : List ConfLine) : Bytes := lines.flatMap fun l => l.text ++ [newline]

def settings (lines : List ConfLine) : List ConfPara := lines.filterMap ConfLine.para

section Lines

variable {l : ConfLine} {line : Bytes} {c : UInt8}

lemma words_eq_tokens (line : Bytes) :
    words line = tokens (fun c => decide (IsBlank c)) (uncommented line) := by
  refine List.filter_congr fun w _ => ?_
  cases w <;> rfl

lemma supported_name {name : Bytes} {type : ConfParaType}
    (h : initConfParaTypeTable name = some type) : name ≠ [] ∧ ∀ c ∈ name, IsParaChar c := by
  have hname : name ∈ [serverName, serverIP, serverPort, heartInterval] := by
    by_contra hnot
    simp only [List.mem_cons, List.not_mem_nil, or_false, not_or] at hnot
    obtain ⟨hn, hi, hp, hh⟩ := hnot
    simp [initConfParaTypeTable, Function.update, hn, hi, hp, hh] at h
  have hall : ∀ w ∈ [serverName, serverIP, serverPort, heartInterval],
      w ≠ [] ∧ ∀ c ∈ w, IsParaChar c := by decide +kernel
  exact hall name hname

lemma token_word {w : Bytes} (hne : w ≠ []) (hw : ∀ c ∈ w, IsParaChar c) :
    Token (fun c => decide (IsBlank c)) w :=
  ⟨hne, fun c hc => decide_eq_false (hw c hc).not_special.2.2.2⟩

namespace Setting

variable (S : Setting)

lemma chars (hc : c ∈ S.text) : IsParaChar c ∨ IsBlank c := by
  simp only [text, List.mem_append] at hc
  rcases hc with hc | hc | hc | hc
  · exact Or.inl ((supported_name S.supported).2 c hc)
  · exact Or.inr (S.gap_blank c hc)
  · exact Or.inl (S.value_chars c hc)
  · exact Or.inr (S.trail_blank c hc)

lemma tokens_text : tokens (fun c => decide (IsBlank c)) S.text =
    [S.confPara.confParaName, S.confPara.confParaStrValue] := by
  obtain ⟨hne, hname⟩ := supported_name S.supported
  obtain ⟨b, gap, hgap⟩ := List.exists_cons_of_ne_nil S.gap_ne
  have hb : IsBlank b := S.gap_blank b (by rw [hgap]; exact List.mem_cons_self)
  have htrail : ∀ c ∈ S.trail, decide (IsBlank c) = true := fun c hc =>
    decide_eq_true (S.trail_blank c hc)
  rw [text, tokens_token (token_word hne hname) (by simpa [hgap] using hb),
    tokens_blank fun c hc => decide_eq_true (S.gap_blank c hc),
    tokens_token (token_word S.value_ne S.value_chars)
      fun c hc => htrail c (List.mem_of_mem_head? hc), tokens_eq_nil_iff.mpr htrail]

end Setting

namespace ConfLine

lemma body_chars (hc : c ∈ l.body) : IsParaChar c ∨ IsBlank c := by
  rcases List.mem_append.mp hc with hc | hc
  · exact Or.inr (l.indent_blank c hc)
  · cases hS : l.setting with
    | none => simp [hS] at hc
    | some S =>
      rw [hS] at hc
      exact S.chars hc

lemma body_not_special (hc : c ∈ l.body) : c ≠ 0 ∧ c ≠ sharp ∧ c ≠ newline := by
  rcases l.body_chars hc with hc | hc
  · obtain ⟨hz, hs, hn, _⟩ := hc.not_special
    exact ⟨hz, hs, hn⟩
  · exact hc.not_special

lemma text_chars (l : ConfLine) : 0 ∉ l.text ∧ newline ∉ l.text := by
  have hremark : 0 ∉ l.remark ∧ newline ∉ l.remark := by
    cases hcs : l.comment with
    | none => simp [remark, hcs]
    | some cs =>
      obtain ⟨hz, hn⟩ := l.comment_chars cs hcs
      have hs : (0 : UInt8) ≠ sharp ∧ newline ≠ sharp := by decide
      simp [remark, hcs, hz, hn, hs]
  simp only [text, List.mem_append, not_or]
  exact ⟨⟨fun h => (l.body_not_special h).1 rfl, hremark.1⟩,
    ⟨fun h => (l.body_not_special h).2.2 rfl, hremark.2⟩⟩

lemma uncommented_text (l : ConfLine) : uncommented l.text = l.body := by
  rw [uncommented, text, List.takeWhile_append_of_pos
    fun c hc => by simpa using (l.body_not_special hc).2.1]
  cases hcs : l.comment <;> simp [remark, hcs]

lemma words_text (l : ConfLine) : words l.text =
    (l.para.map fun p => [p.confParaName, p.confParaStrValue]).getD [] := by
  rw [words_eq_tokens, uncommented_text, body,
    tokens_blank fun c hc => decide_eq_true (l.indent_blank c hc)]
  cases hS : l.setting with
  | none => simp [para, hS]
  | some S => simpa [para, hS] using S.tokens_text

lemma not_offending (l : ConfLine) : ¬ Offending l.text := by
  rintro (⟨c, hc, hbad⟩ | ⟨hne, hlen⟩ | ⟨name, hname, hnone⟩)
  · rw [uncommented_text] at hc
    exact hbad (l.body_chars hc)
  · rw [words_text] at hne hlen
    cases hp : l.para <;> simp [hp] at hne hlen
  · rw [words_text] at hname
    cases hS : l.setting with
    | none => simp [para, hS] at hname
    | some S =>
      obtain rfl : S.confPara.confParaName = name := by simpa [para, hS] using hname
      cases hnone.symm.trans S.supported

lemma entry_text (l : ConfLine) : entry l.text = l.para := by
  rw [entry, words_text]
  cases hS : l.setting with
  | none => simp [para, hS]
  | some S => simp [para, hS, S.supported]

end ConfLine

lemma exists_setting {s : Bytes} {name value : Bytes} {type : ConfParaType}
    (hchars : ∀ c ∈ s, IsParaChar c ∨ IsBlank c)
    (hs : tokens (fun c => decide (IsBlank c)) s = [name, value])
    (hname : initConfParaTypeTable name = some type) :
    ∃ (indent : Bytes) (S : Setting), s = indent ++ S.text ∧ ∀ c ∈ indent, IsBlank c := by
  obtain ⟨indent, rest, rfl, hindent, hn, hrest, htok⟩ := tokens_eq_cons hs
  obtain ⟨gap, trail, rfl, hgap, hv, _, htail⟩ := tokens_eq_cons htok
  have htrail := tokens_eq_nil_iff.mp htail
  simp only [decide_eq_true_eq] at hindent hgap htrail
  have hgne : gap ≠ [] := by
    rintro rfl
    obtain ⟨c, value, rfl⟩ := List.exists_cons_of_ne_nil hv.1
    exact absurd (hrest c rfl) (by simp [hv.2 c List.mem_cons_self])
  have hvalue : ∀ c ∈ value, IsParaChar c := fun c hc =>
    (hchars c (by simp [hc])).resolve_right (of_decide_eq_false (hv.2 c hc))
  exact ⟨indent, ⟨⟨type, name, value⟩, gap, trail, hname, hv.1, hvalue, hgne, hgap, htrail⟩, rfl,
    hindent⟩

lemma exists_confLine (hz : 0 ∉ line) (hn : newline ∉ line) (hok : ¬ Offending line) :
    ∃ l : ConfLine, l.text = line := by
  obtain ⟨comment, hline, hcomment⟩ := line_split line
  obtain ⟨cs, hcs, hcschars⟩ : ∃ cs : Option Bytes,
      (cs.map fun cs => sharp :: cs).getD [] = comment ∧ ∀ c ∈ cs, 0 ∉ c ∧ newline ∉ c := by
    rcases hcomment with rfl | ⟨cs, rfl⟩
    · exact ⟨none, rfl, by simp⟩
    · refine ⟨some cs, rfl, fun c hc => ?_⟩
      obtain rfl := Option.mem_some.mp hc
      rw [hline] at hz hn
      simp only [List.mem_append, List.mem_cons, not_or] at hz hn
      exact ⟨hz.2.2, hn.2.2⟩
  have hchars : ∀ c ∈ uncommented line, IsParaChar c ∨ IsBlank c := fun c hc =>
    by_contra fun h => hok (Or.inl ⟨c, hc, h⟩)
  by_cases hne : words line = []
  · rw [words_eq_tokens, tokens_eq_nil_iff] at hne
    refine ⟨⟨uncommented line, none, cs, by simpa using hne, hcschars⟩, ?_⟩
    rw [ConfLine.text, ConfLine.body, ConfLine.remark, hcs, Option.map_none, Option.getD_none,
      List.append_nil, ← hline]
  · obtain ⟨name, value, hw⟩ := words_pair hok hne
    have hname : initConfParaTypeTable name ≠ none := fun h =>
      hok (Or.inr (Or.inr ⟨name, by simp [hw], h⟩))
    obtain ⟨type, htype⟩ := Option.ne_none_iff_exists'.mp hname
    rw [words_eq_tokens] at hw
    obtain ⟨indent, S, hbody, hindent⟩ := exists_setting hchars hw htype
    refine ⟨⟨indent, some S, cs, hindent, hcschars⟩, ?_⟩
    rw [ConfLine.text, ConfLine.body, ConfLine.remark, hcs, Option.map_some, Option.getD_some,
      ← hbody, ← hline]

end Lines

section Texts

variable {lines : List ConfLine} {list : List ConfPara} {content : Bytes}

lemma splitOn_confText (lines : List ConfLine) (rest : Bytes) :
    (confText lines ++ rest).splitOn newline = lines.map ConfLine.text ++ rest.splitOn newline := by
  induction lines with
  | nil => rfl
  | cons l lines ih =>
    rw [confText, List.flatMap_cons, ← confText, List.append_assoc, List.append_assoc,
      List.singleton_append, List.splitOn_append_cons_self_of_not_mem l.text_chars.2, ih]
    rfl

lemma zero_not_mem_confText (lines : List ConfLine) : 0 ∉ confText lines := by
  intro h
  obtain ⟨l, _, hl⟩ := List.mem_flatMap.mp h
  rcases List.mem_append.mp hl with hl | hl
  · exact l.text_chars.1 hl
  · cases List.mem_singleton.mp hl

lemma readLines_confText (lines : List ConfLine) (rest : Bytes) :
    readLines [] ((confText lines ++ rest).splitOn newline) =
      readLines (settings lines) (rest.splitOn newline) := by
  have hentry : (lines.map ConfLine.text).filterMap entry = settings lines := by
    rw [List.filterMap_map]
    exact List.filterMap_congr fun l _ => l.entry_text
  rw [splitOn_confText, readLines_append _ _ (List.splitOn_ne_nil newline rest), hentry,
    List.nil_append]
  intro line hline
  obtain ⟨l, _, rfl⟩ := List.mem_map.mp hline
  exact l.not_offending

lemma exists_confLines {lines : List Bytes} (hlines : ∀ line ∈ lines, 0 ∉ line ∧ newline ∉ line)
    (hok : ∀ line ∈ lines, ¬ Offending line) :
    ∃ ls : List ConfLine, ls.map ConfLine.text = lines := by
  induction lines with
  | nil => exact ⟨[], rfl⟩
  | cons line lines ih =>
    have hline := hlines line List.mem_cons_self
    obtain ⟨l, rfl⟩ := exists_confLine hline.1 hline.2 (hok line List.mem_cons_self)
    obtain ⟨ls, rfl⟩ := ih (fun x hx => hlines x (List.mem_cons_of_mem _ hx))
      fun x hx => hok x (List.mem_cons_of_mem _ hx)
    exact ⟨l :: ls, rfl⟩

lemma exists_confText (hz : 0 ∉ content) (hnl : Terminated content)
    (hok : ∀ line ∈ content.splitOn newline, ¬ Offending line) :
    ∃ lines, confText lines = content := by
  obtain ⟨lines, hlines⟩ := hnl.splitOn
  have hsub : ∀ line ∈ lines, line ∈ content.splitOn newline := fun line hline => by
    rw [hlines]
    exact List.mem_append_left _ hline
  obtain ⟨ls, hls⟩ := exists_confLines
    (fun line hline => ⟨fun h => hz ((mem_splitOn (hsub line hline)).2 h),
      (mem_splitOn (hsub line hline)).1⟩) fun line hline => hok line (hsub line hline)
  refine ⟨ls, ?_⟩
  have hsplit := splitOn_confText ls []
  rw [List.append_nil, hls, List.splitOn_nil, ← hlines] at hsplit
  have hjoin : [newline].intercalate ((confText ls).splitOn newline) = confText ls :=
    List.intercalate_splitOn newline
  rw [← hjoin, hsplit, List.intercalate_splitOn]

lemma parse_confText (lines : List ConfLine) (hlen : (confText lines).length ≤ 4095) :
    parseConfFile (confText lines) = some (true, settings lines) := by
  have hread := readLines_confText lines []
  rw [List.append_nil] at hread
  rw [parseConfFile_eq (Nat.lt_succ_of_le hlen) (zero_not_mem_confText lines), hread]
  rfl

/-- The files that are read to the end are the texts, and what is read is what they set. -/
theorem conf_text_accepted_iff (content : Bytes) (hlen : content.length ≤ 4095) (hz : 0 ∉ content)
    (hnl : Terminated content) (list : List ConfPara) :
    parseConfFile content = some (true, list) ↔
      ∃ lines, confText lines = content ∧ settings lines = list := by
  constructor
  · intro h
    obtain ⟨ls, hls⟩ := hnl.splitOn
    have hread := parseConfFile_eq (Nat.lt_succ_of_le hlen) hz
    rw [h, hls, readLines_blank, ← hls] at hread
    obtain ⟨hok, -⟩ := Prod.mk.inj (Option.some.inj hread)
    obtain ⟨lines, rfl⟩ := exists_confText hz hnl (of_decide_eq_true hok.symm)
    refine ⟨lines, rfl, ?_⟩
    rw [parse_confText lines hlen] at h
    exact (Prod.mk.inj (Option.some.inj h)).2
  · rintro ⟨lines, rfl, rfl⟩
    exact parse_confText lines hlen

theorem conf_text_accepted_comment :
    ∃ lines, confText lines = serverName ++ [32, 97, 35, 64, 10, 9, 10] ∧
      settings lines = [⟨.string, serverName, [97]⟩] :=
  (conf_text_accepted_iff (serverName ++ [32, 97, 35, 64, 10, 9, 10]) (by decide) (by decide)
    (Or.inr (by decide)) _).mp (by decide)

end Texts

section Delivery

variable {lines : List ConfLine} {rest name v ip : Bytes} {list : List ConfPara}

/-- The constructor takes what was read before the first line that offends. -/
def create (content : Bytes) : Option (List ConfPara) := (parseConfFile content).map Prod.snd

def valueOf (lines : List ConfLine) (name : Bytes) : Option Bytes :=
  ((settings lines).find? fun p => p.confParaName = name).map ConfPara.confParaStrValue

structure ConfiguresAddress (lines : List ConfLine) (ip : Bytes) (port : UInt16) : Prop where
  address : valueOf lines serverIP = some ip
  groups : FourGroups ip
  number : ∃ v, valueOf lines serverPort = some v ∧ (∀ c ∈ v, IsDigit c) ∧
    port.toNat = value v % 2 ^ 16

def ConfiguresInterval (lines : List ConfLine) (interval : UInt32) : Prop :=
  ∃ v, valueOf lines heartInterval = some v ∧ (∀ c ∈ v, IsDigit c) ∧
    interval.toNat = value v % 2 ^ 32

/-- What follows the lines cannot set the parameter. -/
def Settled (lines : List ConfLine) (rest name : Bytes) : Prop :=
  rest = [] ∨ valueOf lines name ≠ none

lemma readLines_extends (list : List ConfPara) (ls : List Bytes) :
    ∃ more, (readLines list ls).2 = list ++ more := by
  induction ls generalizing list with
  | nil => exact ⟨[], (List.append_nil list).symm⟩
  | cons line ls ih =>
    cases ls with
    | nil => exact ⟨[], (List.append_nil list).symm⟩
    | cons line' ls =>
      rw [readLines]
      · split_ifs
        · exact ⟨[], (List.append_nil list).symm⟩
        · obtain ⟨more, hmore⟩ := ih (list ++ (entry line).toList)
          exact ⟨(entry line).toList ++ more, by rw [hmore, List.append_assoc]⟩
      · simp

lemma create_confText (lines : List ConfLine) (rest : Bytes)
    (hlen : (confText lines ++ rest).length ≤ 4095) (hz : 0 ∉ rest) :
    ∃ more, create (confText lines ++ rest) = some (settings lines ++ more) ∧
      (rest = [] → more = []) := by
  have hz' : 0 ∉ confText lines ++ rest := fun h =>
    (List.mem_append.mp h).elim (zero_not_mem_confText lines) hz
  rw [create, parseConfFile_eq (Nat.lt_succ_of_le hlen) hz', readLines_confText]
  obtain ⟨more, hmore⟩ := readLines_extends (settings lines) (rest.splitOn newline)
  refine ⟨more, congrArg some hmore, ?_⟩
  rintro rfl
  exact (List.append_cancel_left ((List.append_nil _).trans hmore)).symm

lemma getConfPara_value {more : List ConfPara} (hmore : rest = [] → more = [])
    (h : Settled lines rest name) :
    (∃ p, getConfPara (some (settings lines ++ more)) name = .ok p ∧ p.confParaStrValue = v) ↔
      valueOf lines name = some v := by
  have hfind : ((settings lines ++ more).find? fun p => p.confParaName = name) =
      (settings lines).find? fun p => p.confParaName = name := by
    rcases h with rfl | h
    · rw [hmore rfl, List.append_nil]
    · have hne : (settings lines).find? (fun p => p.confParaName = name) ≠ none := fun hn =>
        h (by rw [valueOf, hn, Option.map_none])
      obtain ⟨p, hp⟩ := Option.ne_none_iff_exists'.mp hne
      rw [List.find?_append, hp, Option.some_or]
  rw [getConfPara, valueOf, hfind, Option.map_eq_some_iff]
  cases (settings lines).find? fun p => p.confParaName = name with
  | none => simp
  | some p => simp

lemma getServerAddrConfig_ok_iff {conf : Option (List ConfPara)} {port : UInt16} :
    getServerAddrConfig conf = .ok (ip, port) ↔
      (∃ p, getConfPara conf serverIP = .ok p ∧ p.confParaStrValue = ip) ∧ FourGroups ip ∧
        ∃ v, (∃ p, getConfPara conf serverPort = .ok p ∧ p.confParaStrValue = v) ∧
          (∀ c ∈ v, IsDigit c) ∧ port.toNat = value v % 2 ^ 16 := by
  rw [getServerAddrConfig]
  cases hip : getConfPara conf serverIP with
  | error e => exact iff_of_false (fun h => by cases h) (by simp)
  | ok p =>
    cases hport : getConfPara conf serverPort with
    | error e => exact iff_of_false (fun h => by cases h) (by simp)
    | ok q =>
      change (if _ then _ else if _ then _ else _) = _ ↔ _
      rw [← ipStringCheck_iff]
      constructor
      · intro h
        split_ifs at h with hquad hdigits
        obtain ⟨rfl, rfl⟩ := Prod.mk.inj (Except.ok.inj h)
        rw [Bool.not_eq_false] at hquad hdigits
        have hall := numericStringCheck_iff.mp hdigits
        exact ⟨⟨p, rfl, rfl⟩, hquad, _, ⟨q, rfl, rfl⟩, hall, stringToUint16_toNat hall⟩
      · rintro ⟨⟨_, hp, rfl⟩, hquad, _, ⟨_, hq, rfl⟩, hdigits, hval⟩
        obtain rfl := Except.ok.inj hp
        obtain rfl := Except.ok.inj hq
        rw [← stringToUint16_toNat hdigits, UInt16.toNat_inj] at hval
        rw [hquad, numericStringCheck_iff.mpr hdigits, hval]
        rfl

lemma getHeartIntervalConfig_ok_iff {conf : Option (List ConfPara)} {interval : UInt32} :
    getHeartIntervalConfig conf = .ok interval ↔
      ∃ v, (∃ p, getConfPara conf heartInterval = .ok p ∧ p.confParaStrValue = v) ∧
        (∀ c ∈ v, IsDigit c) ∧ interval.toNat = value v % 2 ^ 32 := by
  rw [getHeartIntervalConfig]
  cases hv : getConfPara conf heartInterval with
  | error e => exact iff_of_false (fun h => by cases h) (by simp)
  | ok q =>
    change (if _ then _ else _) = _ ↔ _
    constructor
    · intro h
      split_ifs at h with hdigits
      obtain rfl := Except.ok.inj h
      rw [Bool.not_eq_false] at hdigits
      have hall := numericStringCheck_iff.mp hdigits
      exact ⟨_, ⟨q, rfl, rfl⟩, hall, stringToUint32_toNat hall⟩
    · rintro ⟨_, ⟨_, hq, rfl⟩, hdigits, hval⟩
      obtain rfl := Except.ok.inj hq
      rw [← stringToUint32_toNat hdigits, UInt32.toNat_inj] at hval
      rw [numericStringCheck_iff.mpr hdigits, hval]
      rfl

/-- Whatever follows them, the lines configure what they say. -/
theorem configuration_delivered_iff (lines : List ConfLine) (rest : Bytes)
    (hlen : (confText lines ++ rest).length ≤ 4095) (hz : 0 ∉ rest) :
    ∃ list, create (confText lines ++ rest) = some list ∧
      (Settled lines rest serverIP → Settled lines rest serverPort → ∀ ip port,
        getServerAddrConfig (some list) = .ok (ip, port) ↔ ConfiguresAddress lines ip port) ∧
      (Settled lines rest heartInterval → ∀ interval,
        getHeartIntervalConfig (some list) = .ok interval ↔ ConfiguresInterval lines interval) := by
  obtain ⟨more, hcreate, hmore⟩ := create_confText lines rest hlen hz
  refine ⟨_, hcreate, fun hip hport ip port => ?_, fun hint interval => ?_⟩
  · simp only [getServerAddrConfig_ok_iff, getConfPara_value hmore hip,
      getConfPara_value hmore hport]
    exact ⟨fun ⟨ha, hg, hn⟩ => ⟨ha, hg, hn⟩, fun ⟨ha, hg, hn⟩ => ⟨ha, hg, hn⟩⟩
  · simp only [getHeartIntervalConfig_ok_iff, getConfPara_value hmore hint]
    rfl

def addressLine : ConfLine :=
  ⟨[9], some ⟨⟨.string, serverIP, localIP⟩, [32], [], by decide, by decide, by decide +kernel,
    by decide, by decide +kernel, by decide +kernel⟩, some [64], by decide +kernel, by decide⟩

def portLine : ConfLine :=
  ⟨[], some ⟨⟨.uint16, serverPort, ascii ['8', '0', '8', '0']⟩, [32, 9], [32], by decide, by decide,
    by decide +kernel, by decide, by decide +kernel, by decide +kernel⟩, none, by decide +kernel,
    by decide⟩

/-- The line after them breaks the parsing off, and the address is there. -/
theorem configuration_delivered_broken : ∃ list,
    create (confText [addressLine, portLine] ++ [64, newline]) = some list ∧
      getServerAddrConfig (some list) = .ok (localIP, 8080) := by
  obtain ⟨list, hcreate, haddress, -⟩ := configuration_delivered_iff [addressLine, portLine]
    [64, newline] (by decide) (by decide)
  exact ⟨list, hcreate, (haddress (Or.inr (by decide)) (Or.inr (by decide)) localIP 8080).mpr
    ⟨by decide, by decide +kernel, _, rfl, by decide +kernel, by decide⟩⟩

end Delivery

end Xty.Facility
