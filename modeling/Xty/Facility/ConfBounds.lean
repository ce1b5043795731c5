import Xty.Facility.ConfGrammar

/-! How far the pointer of `ParseConfFile` goes. -/

namespace Xty.Facility

open Xty.General.LittleEndian Xty.General.Separators

/-- Where the pointer is when the loop ends. At the length of the buffer it has left it. -/
def pointer : Bytes → ParseState → ℕ
  | [], _ => 0
  | c :: cs, s =>
    if c = 0 then 0
    else match s.round c with
      | (true, s) => pointer cs s + 1
      | (false, _) => 0

/-- The loop comes to its end, and what it has read are bytes that `read` has stored or the zeros
behind them. -/
structure StaysInside (content : Bytes) : Prop where
  returns : ∃ result, parseConfFile content = some result
  inside : pointer (readConf content) ParseState.init < confParseBufLen
  stored : ∀ i ≤ pointer (readConf content) ParseState.init,
    (readConf content)[i]? = some (content[i]?.getD 0)

/-- Something in the first 4096 bytes, or behind fewer of them, ends the loop. -/
def EndsInside (content : Bytes) : Prop :=
  content.length < confParseBufLen ∨ 0 ∈ content.take confParseBufLen ∨
    (∃ line ∈ ((content.take confParseBufLen).splitOn newline).dropLast, Offending line) ∨
    HasBadChar (lastLine (content.take confParseBufLen))

variable {bs content : Bytes} {s : ParseState} {list : List ConfPara}

lemma scan_returns_iff : (∃ result, scan bs s = some result) ↔ pointer bs s < bs.length := by
  induction bs generalizing s with
  | nil => simp [scan, pointer]
  | cons c cs ih =>
    rw [scan, pointer, List.length_cons]
    by_cases hc : c = 0
    · simp [hc]
    · rw [if_neg hc, if_neg hc]
      rcases s.round c with ⟨_ | _, s⟩
      · simp
      · simpa using ih

lemma scan_zero (hz : 0 ∈ bs) : ∃ result, scan bs s = some result := by
  induction bs generalizing s with
  | nil => cases hz
  | cons c cs ih =>
    rw [scan]
    by_cases hc : c = 0
    · exact ⟨_, if_pos hc⟩
    · rw [if_neg hc]
      have hz : 0 ∈ cs := (List.mem_cons.mp hz).resolve_left (Ne.symm hc)
      rcases s.round c with ⟨_ | _, s⟩
      · exact ⟨_, rfl⟩
      · exact ih hz

lemma scan_open_lines {lines : List Bytes} (hne : lines ≠ [])
    (hlines : ∀ line ∈ lines, 0 ∉ line ∧ newline ∉ line) :
    (∃ result, scan ([newline].intercalate lines) (within false list [] []) = some result) ↔
      (∃ line ∈ lines.dropLast, Offending line) ∨ HasBadChar (lines.getLastD []) := by
  induction lines generalizing list with
  | nil => exact absurd rfl hne
  | cons line lines ih =>
    obtain ⟨⟨hz, hn⟩, hlines⟩ := List.forall_mem_cons.mp hlines
    cases lines with
    | nil =>
      rw [List.intercalate_singleton]
      by_cases hchars : HasBadChar line
      · have hscan : scan (line ++ []) (within false list [] []) = some (false, list) :=
          scan_badChar hz hn hchars
        rw [List.append_nil] at hscan
        exact iff_of_true ⟨_, hscan⟩ (Or.inr hchars)
      · obtain ⟨b, ws, t, hscan, _⟩ := scan_line [] list hz hn hchars
        rw [List.append_nil] at hscan
        simp [hscan, scan, hchars]
    | cons line' lines =>
      rw [List.intercalate_cons_cons, List.append_assoc, List.singleton_append,
        scan_terminated hz hn]
      by_cases hbad : Offending line
      · rw [if_pos hbad]
        exact iff_of_true ⟨_, rfl⟩ (Or.inl ⟨line, by simp, hbad⟩)
      · rw [if_neg hbad, ih (List.cons_ne_nil _ _) hlines]
        simp [hbad]

lemma readConf_full (hlen : confParseBufLen ≤ content.length) :
    readConf content = content.take confParseBufLen := by
  rw [readConf, Nat.sub_eq_zero_of_le hlen, List.replicate_zero, List.append_nil]

lemma readConf_length (content : Bytes) : (readConf content).length = confParseBufLen := by
  rw [readConf, List.length_append, List.length_take, List.length_replicate]
  omega

lemma readConf_getElem? {i : ℕ} (hi : i < confParseBufLen) :
    (readConf content)[i]? = some (content[i]?.getD 0) := by
  rw [readConf]
  by_cases hc : i < content.length
  · rw [List.getElem?_append_left (by rw [List.length_take]; omega), List.getElem?_take_of_lt hi,
      List.getElem?_eq_getElem hc, Option.getD_some]
  · rw [List.getElem?_append_right (by rw [List.length_take]; omega), List.getElem?_replicate,
      if_pos (by rw [List.length_take]; omega), List.getElem?_eq_none (not_lt.mp hc),
      Option.getD_none]

lemma staysInside_iff : StaysInside content ↔ ∃ result, parseConfFile content = some result := by
  refine ⟨StaysInside.returns, fun h => ?_⟩
  have hinside := scan_returns_iff.mp h
  rw [readConf_length] at hinside
  exact ⟨h, hinside, fun i hi => readConf_getElem? (lt_of_le_of_lt hi hinside)⟩

lemma full_returns_iff (hlen : confParseBufLen ≤ content.length)
    (hz : 0 ∉ content.take confParseBufLen) :
    (∃ result, parseConfFile content = some result) ↔
      (∃ line ∈ ((content.take confParseBufLen).splitOn newline).dropLast, Offending line) ∨
        HasBadChar (lastLine (content.take confParseBufLen)) := by
  have hlines := @scan_open_lines [] _ (List.splitOn_ne_nil newline _) fun line hl =>
    ⟨fun h => hz ((mem_splitOn hl).2 h), (mem_splitOn hl).1⟩
  rw [List.intercalate_splitOn] at hlines
  rw [parseConfFile, readConf_full hlen]
  exact hlines

theorem scan_stays_inside_iff (content : Bytes) : StaysInside content ↔ EndsInside content := by
  rw [staysInside_iff, EndsInside]
  by_cases hlen : content.length < confParseBufLen
  · refine iff_of_true (scan_zero ?_) (Or.inl hlen)
    rw [readConf, List.mem_append, List.mem_replicate]
    exact Or.inr ⟨Nat.sub_ne_zero_of_lt hlen, rfl⟩
  · by_cases hz : 0 ∈ content.take confParseBufLen
    · exact iff_of_true (scan_zero (List.mem_append_left _ hz)) (Or.inr (Or.inl hz))
    · rw [full_returns_iff (not_lt.mp hlen) hz, or_iff_right hlen, or_iff_right hz]

theorem full_buffer_overrun : ∃ content : Bytes, content.length = confParseBufLen ∧
    ¬ StaysInside content ∧ confParseBufLen ≤ pointer (readConf content) ParseState.init := by
  let content : Bytes := List.replicate confParseBufLen sharp
  have hlen : content.length = confParseBufLen := List.length_replicate
  have htake : content.take confParseBufLen = content := List.take_of_length_le hlen.le
  have hmem : ∀ c ∈ content, c = sharp := fun c hc => List.eq_of_mem_replicate hc
  have hz : 0 ∉ content := fun h => absurd (hmem 0 h) (by decide)
  have hsplit : content.splitOn newline = [content] :=
    List.splitOn_eq_singleton fun h => absurd (hmem newline h) (by decide)
  have hchars : ¬ HasBadChar content := by
    rintro ⟨c, hc, _⟩
    have hne := List.mem_takeWhile_imp hc
    rw [hmem c ((List.takeWhile_prefix _).subset hc)] at hne
    exact absurd hne (by decide)
  have hruns : ¬ ∃ result, parseConfFile content = some result := by
    rw [full_returns_iff hlen.ge (by rwa [htake]), htake, lastLine, hsplit]
    simpa using hchars
  refine ⟨content, hlen, fun h => hruns h.returns, ?_⟩
  rw [← readConf_length content]
  exact not_lt.mp fun h => hruns (scan_returns_iff.mpr h)

end Xty.Facility
