import KernelLog.Proofs.Legacy.Record

/-!
This module contains what becomes of a prefix that is opened and never closed. Main statement: it is left to the message,
but for one case, a priority that is stepped over, which takes the whole line with it.
-/

namespace KernelLog.Legacy

/--
What a line has behind its priority. A priority that is parsed is a number in angle brackets, and if there is none at the
beginning of the line, all of the line is behind it. One that is stepped over ends at the first closing bracket.
-/
inductive BehindPriority : (parse : Bool) → Octets → Octets → Prop where
  | parsed {label text : Octets} {p : Priority} : Label label p → BehindPriority true (label ++ text) text
  | malformed {line : Octets} : (∀ label p, Label label p → ¬ label <+: line) → BehindPriority true line line
  | skipped {before text : Octets} : Octet.greater ∉ before →
    BehindPriority false (Octet.less :: (before ++ Octet.greater :: text)) text
  | absent {line : Octets} : line.head? ≠ some Octet.less → BehindPriority false line line

section

variable {label stamp line text : Octets} {p : Priority} {t : Timestamp} {parse : Bool}

theorem Label.greater_mem (h : Label label p) : Octet.greater ∈ label := by
  obtain ⟨-⟩ := h
  simp

theorem Stamp.closeBracket_mem (h : Stamp stamp t) : Octet.closeBracket ∈ stamp := by
  obtain ⟨-, -⟩ := h
  simp

theorem readPriority_of_unclosed (parse : Bool) (hhead : line.head? = some Octet.less)
    (hclose : Octet.greater ∉ line) : readPriority parse line = (none, if parse then line else []) := by
  cases parse with
  | true =>
    rcases readPriority_cases line with ⟨p, label, rest, hlabel, rfl, -⟩ | hread
    . exact absurd (List.mem_append_left rest hlabel.greater_mem) hclose
    . exact hread
  | false =>
    obtain ⟨body, rfl⟩ := List.head?_eq_some_iff.mp hhead
    rw [readPriority_false_less]
    rcases after?_cases Octet.greater body with ⟨-, hafter⟩ | ⟨before, behind, -, rfl, -⟩
    . rw [hafter]
      rfl
    . simp at hclose

theorem readTimestamp_of_unclosed (parse : Bool) (hclose : Octet.closeBracket ∉ text) :
    readTimestamp parse text = (none, text) := by
  cases hopens : opens text with
  | false => exact readTimestamp_of_not_opens hopens
  | true =>
    cases parse with
    | true =>
      rcases readTimestamp_cases text with ⟨t, stamp, rest, hstamp, rfl, -⟩ | hread
      . exact absurd (List.mem_append_left rest hstamp.closeBracket_mem) hclose
      . exact hread
    | false =>
      obtain ⟨b, body, rfl, hb⟩ := opens_iff.mp hopens
      rw [readTimestamp_false_openBracket body hb]
      rcases after?_cases Octet.closeBracket body with ⟨-, hafter⟩ | ⟨before, behind, -, rfl, -⟩
      . rw [hafter]
        rfl
      . simp at hclose

theorem BehindPriority.readPriority_eq (h : BehindPriority parse line text) : (readPriority parse line).2 = text := by
  cases h with
  | parsed hlabel => rw [hlabel.readPriority_append]
  | malformed hnot =>
    rcases readPriority_cases line with ⟨p, label, rest, hlabel, rfl, -⟩ | hread
    . exact absurd (List.prefix_append label rest) (hnot label p hlabel)
    . rw [hread]
  | skipped hbefore =>
    rw [readPriority_false_less, after?_append hbefore]
    rfl
  | absent hhead => rw [readPriority_of_head? hhead]

end

/--
A line that begins a priority and never closes it has no priority under any setting. It is its own message where
priorities are parsed; where they are stepped over, the message is empty and the text is lost. A time that is begun
behind the priority and never closed is absent, and the message begins at its bracket under every setting.
-/
theorem decode_unclosed (which : Decode) (line : Octets) :
    let record := decode which line
    (line.head? = some Octet.less → Octet.greater ∉ line →
      record.priority = none ∧ record.level = none ∧ record.facility = none ∧
        record.message = if which.priority then line else []) ∧
      ∀ text, BehindPriority which.priority line text →
        text.head? = some Octet.openBracket → Octet.closeBracket ∉ text →
          record.timestamp = none ∧ record.message = text := by
  have hdecode := decode_eq which line
  dsimp only at hdecode
  intro record
  refine ⟨?_, ?_⟩
  . intro hhead hclose
    have hlabel := readPriority_of_unclosed which.priority hhead hclose
    -- what is left for a time does not begin with a bracket
    have hopens : opens (if which.priority then line else []) = false := by
      obtain ⟨body, rfl⟩ := List.head?_eq_some_iff.mp hhead
      cases which.priority <;> rfl
    rw [hlabel] at hdecode
    dsimp only at hdecode
    rw [readTimestamp_of_not_opens hopens] at hdecode
    rw [show record = _ from hdecode]
    exact ⟨rfl, rfl, rfl, rfl⟩
  . intro text hbehind _ hclose
    rw [hbehind.readPriority_eq, readTimestamp_of_unclosed which.timestamp hclose] at hdecode
    rw [show record = _ from hdecode]
    exact ⟨rfl, rfl⟩

theorem decode_unclosed_brackets :
    let parsing : Decode := { priority := true, timestamp := false }
    let skipping : Decode := { priority := false, timestamp := false }
    (decode parsing (Octets.ofString "<6 a]")).message = Octets.ofString "<6 a]" ∧
      BehindPriority false (Octets.ofString "<b>[ 1.5 c>") (Octets.ofString "[ 1.5 c>") ∧
      (decode skipping (Octets.ofString "<b>[ 1.5 c>")).message = Octets.ofString "[ 1.5 c>" := by
  intro parsing skipping
  have hline : Octets.ofString "<b>[ 1.5 c>" =
      Octet.less :: (Octets.ofString "b" ++ Octet.greater :: Octets.ofString "[ 1.5 c>") := by
    decide +kernel
  have hbehind : BehindPriority false (Octets.ofString "<b>[ 1.5 c>") (Octets.ofString "[ 1.5 c>") := by
    rw [hline]
    exact .skipped (by decide +kernel)
  refine ⟨?_, hbehind, ?_⟩
  . exact ((decode_unclosed parsing _).1 (by decide +kernel) (by decide +kernel)).2.2.2
  . exact ((decode_unclosed skipping _).2 _ hbehind (by decide +kernel) (by decide +kernel)).2

/--
A line that wraps into an opening bracket is lost where priorities are stepped over.
-/
theorem decode_unclosed_swallowed :
    let line := Octets.ofString "<text"
    let record := decode { priority := false, timestamp := true } line
    line.head? = some Octet.less ∧ Octet.greater ∉ line ∧ record = Record.ofMessage [] ∧ record.message ≠ line := by
  decide +kernel

end KernelLog.Legacy
