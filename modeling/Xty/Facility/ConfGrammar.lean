import Mathlib.Data.List.TakeWhile
import Xty.Facility.ConfParse
import Xty.General.Separators

/-! The lines of a configuration file, and what the parser makes of them. -/

namespace Xty.Facility

open Xty.General.LittleEndian Xty.General.Separators

def uncommented (line : Bytes) : Bytes := line.takeWhile fun c => c ≠ sharp

def words (line : Bytes) : List Bytes :=
  ((uncommented line).splitOnP fun c => IsBlank c).filter fun w => w ≠ []

def HasBadChar (line : Bytes) : Prop := ∃ c ∈ uncommented line, ¬ (IsParaChar c ∨ IsBlank c)

def Offending (line : Bytes) : Prop :=
  HasBadChar line ∨ words line ≠ [] ∧ (words line).length ≠ 2 ∨
    ∃ name ∈ (words line).head?, initConfParaTypeTable name = none

def entry (line : Bytes) : Option ConfPara :=
  match words line with
  | [name, value] => (initConfParaTypeTable name).map fun type => ⟨type, name, value⟩
  | _ => none

instance (line : Bytes) : Decidable (HasBadChar line) :=
  inferInstanceAs (Decidable (∃ c ∈ uncommented line, _))

instance (line : Bytes) : Decidable (Offending line) :=
  inferInstanceAs (Decidable (_ ∨ _ ∨ ∃ name ∈ (words line).head?, _))

/-- The lines up to the first one that offends. -/
def grammar (content : Bytes) : Bool × List ConfPara :=
  let lines := content.splitOn newline
  (decide (∀ line ∈ lines, ¬ Offending line),
    (lines.takeWhile fun line => ¬ Offending line).filterMap entry)

example : grammar ([10] ++ serverName ++ [32, 97, 35, 32, 64, 10] ++ serverIP ++ [10] ++ serverName)
    = (false, [⟨.string, serverName, [97]⟩]) := by decide

section Scanning

variable {cs line text rest : Bytes} {c : UInt8} {t : Bytes} {ws ws' : List Bytes}
  {list : List ConfPara} {b : Bool}

/-- The loop inside a line, outside its comment if `b` is false. -/
def within (b : Bool) (list : List ConfPara) (ws : List Bytes) (t : Bytes) : ParseState :=
  ⟨b, decide (t ≠ []), t, ws, list⟩

def closed (ws : List Bytes) (t : Bytes) : List Bytes := ws ++ [t].filter fun w => w ≠ []

lemma endWord_within : (within b list ws t).endWord = within b list (closed ws t) [] := by
  by_cases ht : t = [] <;> simp [within, ParseState.endWord, closed, ht]

lemma IsParaChar.not_special (hc : IsParaChar c) :
    c ≠ 0 ∧ c ≠ sharp ∧ c ≠ newline ∧ ¬ IsBlank c := by
  refine ⟨?_, ?_, ?_, ?_⟩
  · rintro rfl
    exact absurd hc (by decide)
  · rintro rfl
    exact absurd hc (by decide)
  · rintro rfl
    exact absurd hc (by decide)
  · rintro (rfl | rfl) <;> exact absurd hc (by decide)

lemma IsBlank.not_special (hc : IsBlank c) : c ≠ 0 ∧ c ≠ sharp ∧ c ≠ newline := by
  rcases hc with rfl | rfl <;> decide

lemma scan_para (hc : IsParaChar c) :
    scan (c :: rest) (within false list ws t) = scan rest (within false list ws (t ++ [c])) := by
  obtain ⟨hz, hs, hn, hb⟩ := hc.not_special
  simp [scan, ParseState.round, hz, hs, hn, hb, hc, within]

lemma scan_blank (hc : IsBlank c) :
    scan (c :: rest) (within false list ws t) = scan rest (within false list (closed ws t) []) := by
  obtain ⟨hz, hs, hn⟩ := hc.not_special
  have hround : (within false list ws t).round c = (true, (within false list ws t).endWord) := by
    simp [ParseState.round, hs, hn, hc, within]
  rw [scan, if_neg hz, hround, endWord_within]

variable (list rest) in
lemma scan_text (ws : List Bytes) (t : Bytes) (htext : ∀ c ∈ text, IsParaChar c ∨ IsBlank c)
    (ht : ∀ c ∈ t, ¬ IsBlank c) :
    ∃ ws' t', scan (text ++ rest) (within false list ws t) = scan rest (within false list ws' t') ∧
      closed ws' t' = ws ++ ((t ++ text).splitOnP fun c => IsBlank c).filter fun w => w ≠ [] := by
  induction text generalizing ws t with
  | nil =>
    refine ⟨ws, t, rfl, ?_⟩
    rw [List.append_nil, List.splitOnP_eq_singleton (by simpa using ht), closed]
  | cons c text ih =>
    have htext' : ∀ c ∈ text, IsParaChar c ∨ IsBlank c := fun d hd =>
      htext d (List.mem_cons_of_mem c hd)
    rcases htext c List.mem_cons_self with hc | hc
    · obtain ⟨ws', t', hscan, hw⟩ := ih ws (t ++ [c]) htext' (by
        simpa [or_imp, forall_and] using And.intro ht hc.not_special.2.2.2)
      refine ⟨ws', t', ?_, ?_⟩
      · rw [List.cons_append, scan_para hc, hscan]
      · rw [hw, List.append_assoc, List.singleton_append]
    · obtain ⟨ws', t', hscan, hw⟩ := ih (closed ws t) [] htext' (by simp)
      refine ⟨ws', t', ?_, ?_⟩
      · rw [List.cons_append, scan_blank hc, hscan]
      · rw [hw, List.splitOnP_append_cons_of_forall_mem (by simpa using ht) c (by simpa using hc),
          closed, ← List.singleton_append (l := List.splitOnP _ text), List.filter_append,
          List.append_assoc, List.nil_append]

lemma scan_comment (hz : 0 ∉ cs) (hn : newline ∉ cs) :
    scan (cs ++ rest) (within true list ws t) = scan rest (within true list ws t) := by
  induction cs with
  | nil => rfl
  | cons c cs ih =>
    obtain ⟨hc, hz⟩ := List.ne_and_not_mem_of_not_mem_cons hz
    obtain ⟨hc', hn⟩ := List.ne_and_not_mem_of_not_mem_cons hn
    have hround : (within true list ws t).round c = (true, within true list ws t) := by
      simp [ParseState.round, Ne.symm hc', within]
    rw [List.cons_append, scan, if_neg (Ne.symm hc), hround]
    exact ih hz hn

lemma line_split (line : Bytes) :
    ∃ comment, line = uncommented line ++ comment ∧
      (comment = [] ∨ ∃ cs, comment = sharp :: cs) := by
  refine ⟨line.dropWhile fun c => c ≠ sharp, (List.takeWhile_append_dropWhile).symm, ?_⟩
  cases h : line.dropWhile fun c => c ≠ sharp with
  | nil => exact Or.inl rfl
  | cons c cs =>
    have hc := List.head_dropWhile_not (fun c => c ≠ sharp) (by rw [h]; exact List.cons_ne_nil c cs)
    simp only [h, List.head_cons] at hc
    exact Or.inr ⟨cs, by simpa using hc⟩

variable (list rest) in
lemma scan_line (hz : 0 ∉ line) (hn : newline ∉ line) (hok : ¬ HasBadChar line) :
    ∃ b ws t, scan (line ++ rest) (within false list [] []) = scan rest (within b list ws t) ∧
      closed ws t = words line := by
  have htext : ∀ c ∈ uncommented line, IsParaChar c ∨ IsBlank c := fun c hc =>
    by_contra fun h => hok ⟨c, hc, h⟩
  obtain ⟨comment, hline, hcomment⟩ := line_split line
  obtain ⟨ws, t, hscan, hw⟩ := scan_text (comment ++ rest) list [] [] htext (by simp)
  rw [List.nil_append, List.nil_append] at hw
  rw [← List.append_assoc, ← hline] at hscan
  rcases hcomment with rfl | ⟨cs, rfl⟩
  · exact ⟨false, ws, t, hscan, hw⟩
  · rw [hline] at hz hn
    have hcs : ∀ c ∈ cs, c ∈ uncommented line ++ sharp :: cs := fun c hc =>
      List.mem_append_right _ (List.mem_cons_of_mem _ hc)
    refine ⟨true, ws, t, ?_, hw⟩
    rw [hscan, List.cons_append, scan, if_neg (by decide)]
    exact scan_comment (fun h => hz (hcs 0 h)) fun h => hn (hcs newline h)

lemma scan_bad (htext : ∀ c ∈ text, c ≠ 0 ∧ c ≠ sharp ∧ c ≠ newline)
    (hbad : ∃ c ∈ text, ¬ (IsParaChar c ∨ IsBlank c)) :
    scan (text ++ rest) (within false list ws t) = some (false, list) := by
  induction text generalizing ws t with
  | nil => simp at hbad
  | cons c text ih =>
    obtain ⟨⟨hz, hs, hn⟩, htext⟩ := List.forall_mem_cons.mp htext
    rw [List.cons_append]
    by_cases hc : IsParaChar c ∨ IsBlank c
    · have hbad : ∃ c ∈ text, ¬ (IsParaChar c ∨ IsBlank c) := by
        obtain ⟨d, hd, hdbad⟩ := hbad
        rcases List.mem_cons.mp hd with rfl | hd
        · exact absurd hc hdbad
        · exact ⟨d, hd, hdbad⟩
      rcases hc with hc | hc
      · rw [scan_para hc, ih htext hbad]
      · rw [scan_blank hc, ih htext hbad]
    · obtain ⟨hp, hb⟩ := not_or.mp hc
      have hround : (within false list ws t).round c = (false, within false list ws t) := by
        simp [ParseState.round, hs, hn, hp, hb, within]
      rw [scan, if_neg hz, hround]
      rfl

lemma scan_badChar (hz : 0 ∉ line) (hn : newline ∉ line) (hbad : HasBadChar line) :
    scan (line ++ rest) (within false list [] []) = some (false, list) := by
  obtain ⟨comment, hline, _⟩ := line_split line
  rw [hline] at hz hn
  have htext : ∀ c ∈ uncommented line, c ≠ 0 ∧ c ≠ sharp ∧ c ≠ newline := by
    intro c hc
    refine ⟨?_, ?_, ?_⟩
    · rintro rfl
      exact hz (List.mem_append_left _ hc)
    · simpa using List.mem_takeWhile_imp hc
    · rintro rfl
      exact hn (List.mem_append_left _ hc)
  rw [hline, List.append_assoc]
  exact scan_bad htext hbad

lemma scan_newline : scan (newline :: rest) (within b list ws t) =
    if closed ws t = [] then scan rest (within false list [] [])
    else match parseOneLine list (closed ws t) with
      | (true, list) => scan rest (within false list [] [])
      | (false, list) => some (false, list) := by
  have hround : (within b list ws t).round newline = (within false list ws t).endLine := rfl
  have hend : (within false list ws t).endLine = if closed ws t = [] then
      (true, within false list [] []) else match parseOneLine list (closed ws t) with
        | (true, list) => (true, within false list [] [])
        | (false, list) => (false, within false list (closed ws t) []) := by
    have hclear : { within false list ws t with annotationArea := false }
        = within false list ws t := rfl
    simp only [ParseState.endLine, hclear, endWord_within]
    by_cases hw : closed ws t = []
    · simp [within, hw]
    · rw [if_pos (by exact hw), if_neg hw]
      rfl
  rw [scan, if_neg (by decide), hround, hend]
  split_ifs with hw
  · rfl
  · cases parseOneLine list (closed ws t) with
    | mk ok list => cases ok <;> rfl

lemma parseOneLine_ok {name value : Bytes} (hw : words line = [name, value])
    (hok : ¬ Offending line) :
    parseOneLine list (words line) = (true, list ++ (entry line).toList) := by
  have hname : initConfParaTypeTable name ≠ none := fun h =>
    hok (Or.inr (Or.inr ⟨name, by simp [hw], h⟩))
  obtain ⟨type, htype⟩ := Option.ne_none_iff_exists'.mp hname
  simp [parseOneLine, entry, hw, htype]

lemma parseOneLine_offending (hbad : Offending line) (hchars : ¬ HasBadChar line) :
    parseOneLine list (words line) = (false, list) := by
  unfold parseOneLine
  rcases hbad.resolve_left hchars with ⟨_, hlen⟩ | ⟨name, hname, hnone⟩
  · split
    · next h => simp [h] at hlen
    · rfl
  · split
    · next h =>
      rw [h] at hname
      obtain rfl := Option.some.inj hname
      rw [hnone]
    · rfl

lemma offending_words (hbad : Offending line) (hchars : ¬ HasBadChar line) : words line ≠ [] := by
  rcases hbad.resolve_left hchars with ⟨hne, _⟩ | ⟨name, hname, _⟩
  · exact hne
  · rintro h
    rw [h] at hname
    cases hname

lemma words_pair (hok : ¬ Offending line) (hne : words line ≠ []) :
    ∃ name value, words line = [name, value] :=
  List.length_eq_two.mp (by_contra fun h => hok (Or.inr (Or.inl ⟨hne, h⟩)))

lemma entry_of_blank (h : words line = []) : entry line = none := by
  simp [entry, h]

lemma scan_terminated (hz : 0 ∉ line) (hn : newline ∉ line) :
    scan (line ++ newline :: rest) (within false list [] []) =
      if Offending line then some (false, list)
      else scan rest (within false (list ++ (entry line).toList) [] []) := by
  by_cases hchars : HasBadChar line
  · rw [scan_badChar hz hn hchars, if_pos (show Offending line from Or.inl hchars)]
  · obtain ⟨b, ws, t, hscan, hw⟩ := scan_line (newline :: rest) list hz hn hchars
    rw [hscan, scan_newline, hw]
    by_cases hbad : Offending line
    · rw [if_neg (offending_words hbad hchars), parseOneLine_offending hbad hchars, if_pos hbad]
    · rw [if_neg hbad]
      by_cases hne : words line = []
      · rw [if_pos hne, entry_of_blank hne, Option.toList_none, List.append_nil]
      · obtain ⟨name, value, hpair⟩ := words_pair hbad hne
        rw [if_neg hne, parseOneLine_ok hpair hbad]

def readLines : List ConfPara → List Bytes → Bool × List ConfPara
  | list, [] => (true, list)
  | list, [line] => (decide (¬ HasBadChar line), list)
  | list, line :: lines =>
    if Offending line then (false, list) else readLines (list ++ (entry line).toList) lines

variable (rest) in
lemma scan_lines (list : List ConfPara) {lines : List Bytes} (hne : lines ≠ [])
    (hlines : ∀ line ∈ lines, 0 ∉ line ∧ newline ∉ line) :
    scan ([newline].intercalate lines ++ 0 :: rest) (within false list [] [])
      = some (readLines list lines) := by
  induction lines generalizing list with
  | nil => exact absurd rfl hne
  | cons line lines ih =>
    obtain ⟨⟨hz, hn⟩, hlines⟩ := List.forall_mem_cons.mp hlines
    cases lines with
    | nil =>
      rw [List.intercalate_singleton, readLines]
      by_cases hchars : HasBadChar line
      · rw [scan_badChar hz hn hchars]
        simp [hchars]
      · obtain ⟨b, ws, t, hscan, _⟩ := scan_line (0 :: rest) list hz hn hchars
        rw [hscan, scan, if_pos rfl]
        simp [hchars, within]
    | cons line' lines =>
      rw [List.intercalate_cons_cons, List.append_assoc, List.append_assoc, List.singleton_append,
        scan_terminated hz hn, readLines]
      · split_ifs
        · rfl
        · exact ih _ (List.cons_ne_nil _ _) hlines
      · simp

lemma parseConfFile_eq {content : Bytes} (hlen : content.length < confParseBufLen)
    (hz : 0 ∉ content) :
    parseConfFile content = some (readLines [] (content.splitOn newline)) := by
  have hread : readConf content
      = content ++ 0 :: List.replicate (confParseBufLen - content.length - 1) 0 := by
    rw [readConf, List.take_of_length_le hlen.le, ← List.replicate_succ]
    congr 2
    omega
  have hscan := scan_lines (List.replicate (confParseBufLen - content.length - 1) 0) []
    (List.splitOn_ne_nil newline content) fun line hl =>
      ⟨fun h => hz ((mem_splitOn hl).2 h), (mem_splitOn hl).1⟩
  rw [List.intercalate_splitOn] at hscan
  rw [parseConfFile, hread]
  exact hscan

lemma readLines_blank (list : List ConfPara) (lines : List Bytes) :
    readLines list (lines ++ [[]]) = (decide (∀ line ∈ lines ++ [[]], ¬ Offending line),
      list ++ ((lines ++ [[]]).takeWhile fun line => ¬ Offending line).filterMap entry) := by
  have hblank : ¬ Offending [] := by decide
  have hentry : entry [] = none := by decide
  induction lines generalizing list with
  | nil => simp [readLines, hblank, hentry, HasBadChar, uncommented]
  | cons line lines ih =>
    rw [List.cons_append, readLines]
    · by_cases hbad : Offending line
      · simp [hbad]
      · rw [if_neg hbad, ih]
        cases he : entry line <;> simp [hbad, he]
    · simp

end Scanning

section Parsing

variable {content : Bytes}

lemma splitOn_terminated (content : Bytes) :
    (content ++ [newline]).splitOn newline = content.splitOn newline ++ [[]] := by
  rw [List.splitOn_append_cons_self, List.splitOn_nil]

def Terminated (content : Bytes) : Prop := content = [] ∨ content.getLast? = some newline

lemma Terminated.splitOn (h : Terminated content) :
    ∃ lines, content.splitOn newline = lines ++ [[]] := by
  rcases h with rfl | h
  · exact ⟨[], by simp⟩
  · obtain ⟨init, rfl⟩ := List.getLast?_eq_some_iff.mp h
    exact ⟨_, splitOn_terminated init⟩

theorem conf_file_parsed (content : Bytes) (hlen : content.length ≤ 4095) (hz : 0 ∉ content)
    (hnl : Terminated content) : parseConfFile content = some (grammar content) := by
  obtain ⟨lines, hlines⟩ := hnl.splitOn
  rw [parseConfFile_eq (Nat.lt_succ_of_le hlen) hz, hlines, readLines_blank, List.nil_append,
    grammar, hlines]

theorem conf_file_parsed_comment : parseConfFile (serverName ++ [32, 97, 35, 64, 10, 10, 97, 10])
    = some (grammar (serverName ++ [32, 97, 35, 64, 10, 10, 97, 10])) :=
  conf_file_parsed (serverName ++ [32, 97, 35, 64, 10, 10, 97, 10]) (by decide) (by decide)
    (Or.inr (by decide))

def lastLine (content : Bytes) : Bytes := (content.splitOn newline).getLastD []

/-- Nothing on the last line waits for the newline. -/
def KeepsLastLine (content : Bytes) : Prop :=
  (∃ line ∈ (content.splitOn newline).dropLast, Offending line) ∨
    HasBadChar (lastLine content) ∨ words (lastLine content) = []

instance (content : Bytes) : Decidable (KeepsLastLine content) :=
  inferInstanceAs (Decidable (_ ∨ _ ∨ _))

lemma splitOn_lastLine (content : Bytes) :
    content.splitOn newline = (content.splitOn newline).dropLast ++ [lastLine content] := by
  have hne := List.splitOn_ne_nil newline content
  rw [lastLine, List.getLastD_eq_getLast?, List.getLast?_eq_some_getLast hne, Option.getD_some,
    List.dropLast_append_getLast]

variable {list : List ConfPara} {line : Bytes} {lines : List Bytes}

lemma readLines_offending (hbad : ∃ line ∈ lines, Offending line) (rest rest' : List Bytes)
    (hrest : rest ≠ []) (hrest' : rest' ≠ []) :
    readLines list (lines ++ rest) = readLines list (lines ++ rest') := by
  induction lines generalizing list with
  | nil => simp at hbad
  | cons line lines ih =>
    rw [List.cons_append, List.cons_append, readLines, readLines]
    · by_cases hline : Offending line
      · rw [if_pos hline, if_pos hline]
      · rw [if_neg hline, if_neg hline]
        obtain ⟨line', hmem, hbad⟩ := hbad
        rcases List.mem_cons.mp hmem with rfl | hmem
        · exact absurd hbad hline
        · exact ih ⟨line', hmem, hbad⟩
    · simpa using fun _ => hrest'
    · simpa using fun _ => hrest

lemma readLines_append (hok : ∀ line ∈ lines, ¬ Offending line) (rest : List Bytes)
    (hrest : rest ≠ []) :
    readLines list (lines ++ rest) = readLines (list ++ lines.filterMap entry) rest := by
  induction lines generalizing list with
  | nil => rw [List.nil_append, List.filterMap_nil, List.append_nil]
  | cons line lines ih =>
    obtain ⟨hline, hok⟩ := List.forall_mem_cons.mp hok
    rw [List.cons_append, readLines, if_neg hline, ih hok]
    · cases he : entry line <;> simp [he]
    · simpa using fun _ => hrest

lemma entry_ne_none (hok : ¬ Offending line) (hne : words line ≠ []) : entry line ≠ none := by
  obtain ⟨name, value, hpair⟩ := words_pair hok hne
  intro h
  have hnone : initConfParaTypeTable name = none := by simpa [entry, hpair] using h
  exact hok (Or.inr (Or.inr ⟨name, by rw [hpair]; rfl, hnone⟩))

lemma readLines_terminated_iff :
    readLines list [line, []] = readLines list [line] ↔ HasBadChar line ∨ words line = [] := by
  have hblank : ¬ HasBadChar [] := by decide
  simp only [readLines, hblank, not_false_eq_true, decide_true]
  by_cases hchars : HasBadChar line
  · have hbad : Offending line := Or.inl hchars
    simp [hchars, hbad]
  · by_cases hbad : Offending line
    · simp [hchars, hbad, offending_words hbad hchars]
    · by_cases hne : words line = []
      · simp [hchars, hbad, hne, entry_of_blank hne]
      · obtain ⟨para, hpara⟩ := Option.ne_none_iff_exists'.mp (entry_ne_none hbad hne)
        simp [hchars, hbad, hne, hpara]

theorem conf_newline_irrelevant_iff (content : Bytes) (hlen : content.length ≤ 4094)
    (hz : 0 ∉ content) : (∃ result, parseConfFile content = some result) ∧
      (parseConfFile (content ++ [newline]) = parseConfFile content ↔ KeepsLastLine content) := by
  have hread : parseConfFile content = some (readLines [] (content.splitOn newline)) :=
    parseConfFile_eq (hlen.trans_lt (by decide)) hz
  have hread' : parseConfFile (content ++ [newline])
      = some (readLines [] (content.splitOn newline ++ [[]])) := by
    rw [parseConfFile_eq, splitOn_terminated]
    · rw [List.length_append, List.length_singleton]
      exact Nat.lt_of_le_of_lt (Nat.succ_le_succ hlen) (by decide)
    · rw [List.mem_append, List.mem_singleton]
      exact fun h => h.elim hz (by decide)
  refine ⟨⟨_, hread⟩, ?_⟩
  rw [hread, hread', Option.some_inj, splitOn_lastLine content, List.append_assoc,
    List.singleton_append]
  unfold KeepsLastLine
  by_cases hbad : ∃ line ∈ (content.splitOn newline).dropLast, Offending line
  · rw [readLines_offending hbad [lastLine content, []] [lastLine content] (List.cons_ne_nil _ _)
      (List.cons_ne_nil _ _)]
    exact iff_of_true rfl (Or.inl hbad)
  · have hok : ∀ line ∈ (content.splitOn newline).dropLast, ¬ Offending line := fun line hl h =>
      hbad ⟨line, hl, h⟩
    rw [readLines_append hok _ (List.cons_ne_nil _ _),
      readLines_append hok _ (List.cons_ne_nil _ _), readLines_terminated_iff, or_iff_right hbad]

theorem conf_newline_irrelevant_comment :
    (∃ result, parseConfFile (serverName ++ [32, 97, 10, 35, 64]) = some result) ∧
      (parseConfFile (serverName ++ [32, 97, 10, 35, 64] ++ [newline])
        = parseConfFile (serverName ++ [32, 97, 10, 35, 64]) ↔
        KeepsLastLine (serverName ++ [32, 97, 10, 35, 64])) :=
  conf_newline_irrelevant_iff (serverName ++ [32, 97, 10, 35, 64]) (by decide) (by decide)

theorem unterminated_parameter_lost :
    ¬ ∀ content : Bytes, content.length ≤ 4094 → 0 ∉ content →
      parseConfFile (content ++ [newline]) = parseConfFile content := by
  intro h
  have hz : (0 : UInt8) ∉ serverName ++ [32, 97] := by decide
  have hsame := h (serverName ++ [32, 97]) (by decide) hz
  rw [parseConfFile_eq (by decide) hz, parseConfFile_eq (by decide) (by decide)] at hsame
  exact absurd hsame (by decide)

end Parsing

end Xty.Facility
