import KernelLog.Legacy.Record
import KernelLog.Proofs.Text.Octet
import KernelLog.Proofs.Timestamp

/-!
This module contains the grammar of the records in the legacy encoding. Main statements: decoding takes exactly the
prefixes of this grammar and leaves everything else to the message, and a prefix that is stepped over ends where it does
when it is parsed.
-/

namespace KernelLog.Legacy

inductive Label : Octets → Priority → Prop where
  | mk {text : Octets} {p : Priority} : Decimal.Numeral text p →
    Label (Octet.less :: (text ++ [Octet.greater])) p

def opens : Octets → Bool
  | Octet.openBracket :: b :: _ => b == Octet.space || Octet.isDigit b
  | _ => false

theorem opens_iff {s : Octets} :
    opens s ↔ ∃ b body, s = Octet.openBracket :: b :: body ∧ (b = Octet.space ∨ Octet.isDigit b) := by
  unfold opens
  split
  . simp
  . next hnot =>
    constructor
    . nofun
    . rintro ⟨b, body, rfl, -⟩
      exact absurd rfl (hnot b body)

theorem opens_iff_head? {s : Octets} :
    opens s ↔ s.head? = some Octet.openBracket ∧ s[1]?.any fun b => b == Octet.space || Octet.isDigit b := by
  rw [opens_iff]
  rcases s with _ | ⟨_, _ | ⟨b, body⟩⟩ <;> simp [and_assoc]

inductive Stamp : Octets → Timestamp → Prop where
  | mk {text : Octets} {t : Timestamp} : Timestamp.Numeral text t → opens (Octet.openBracket :: text) →
    Stamp (Octet.openBracket :: (text ++ [Octet.closeBracket])) t

section

variable {label stamp line : Octets} {p : Priority} {t : Timestamp}

theorem Label.readPriority_append (h : Label label p) (rest : Octets) :
    readPriority true (label ++ rest) = (some p, rest) := by
  obtain ⟨htext⟩ := h
  rw [List.cons_append, List.append_assoc, readPriority_less, List.singleton_append, htext.read?_append rfl]
  rfl

theorem readPriority_cases (line : Octets) :
    (∃ p label rest, Label label p ∧ line = label ++ rest ∧ readPriority true line = (some p, rest)) ∨
      readPriority true line = (none, line) := by
  unfold readPriority
  split
  . next body =>
    rw [if_pos rfl]
    split
    . next p rest hread =>
      obtain ⟨text, rfl, htext⟩ := (Decimal.read?_cons_eq_some_iff rfl).mp hread
      exact .inl ⟨p, _, rest, .mk htext, by simp, rfl⟩
    . exact .inr rfl
  . exact .inr rfl

theorem readPriority_eq_some_iff :
    (readPriority true line).1 = some p ↔ ∃ label rest, Label label p ∧ line = label ++ rest := by
  constructor
  . intro h
    rcases readPriority_cases line with ⟨p', label, rest, hlabel, hline, hread⟩ | hread
    . rw [hread, Option.some.injEq] at h
      exact ⟨label, rest, h ▸ hlabel, hline⟩
    . rw [hread] at h
      cases h
  . rintro ⟨label, rest, hlabel, rfl⟩
    rw [hlabel.readPriority_append]

theorem Stamp.readTimestamp_append (h : Stamp stamp t) (rest : Octets) :
    readTimestamp true (stamp ++ rest) = (some t, dropSpace rest) := by
  obtain ⟨htext, hopens⟩ := h
  obtain ⟨b, body, heq, hb⟩ := opens_iff.mp hopens
  obtain rfl := (List.cons.inj heq).2
  rw [List.cons_append, List.append_assoc, List.cons_append, readTimestamp_openBracket _ hb, ← List.cons_append,
    List.singleton_append, Timestamp.readLegacy?_append htext]

theorem readTimestamp_cases (line : Octets) :
    (∃ t stamp rest, Stamp stamp t ∧ line = stamp ++ rest ∧ readTimestamp true line = (some t, dropSpace rest)) ∨
      readTimestamp true line = (none, line) := by
  unfold readTimestamp
  split
  . next b body =>
    split
    . next hb =>
      rw [if_pos rfl]
      rcases Timestamp.measureLegacy?_cases (b :: body) with ⟨t, text, rest, htext, heq, hread, -⟩ | ⟨hread, -⟩
      . rw [hread]
        refine .inl ⟨t, _, rest, .mk htext ?_, by rw [heq]; simp, rfl⟩
        cases text with
        | nil => exact absurd rfl htext.ne_nil
        | cons b' text =>
          rw [List.cons_append, List.cons.injEq] at heq
          exact opens_iff.mpr ⟨b', text, rfl, heq.1 ▸ hb⟩
      . rw [hread]
        exact .inr rfl
    . exact .inr rfl
  . exact .inr rfl

theorem readTimestamp_eq_some_iff :
    (readTimestamp true line).1 = some t ↔ ∃ stamp rest, Stamp stamp t ∧ line = stamp ++ rest := by
  constructor
  . intro h
    rcases readTimestamp_cases line with ⟨t', stamp, rest, hstamp, hline, hread⟩ | hread
    . rw [hread, Option.some.injEq] at h
      exact ⟨stamp, rest, h ▸ hstamp, hline⟩
    . rw [hread] at h
      cases h
  . rintro ⟨stamp, rest, hstamp, rfl⟩
    rw [hstamp.readTimestamp_append]

theorem readPriority_of_not_closed {body rest : Octets} (hread : Decimal.read? body = some (p, rest))
    (hclose : rest.head? ≠ some Octet.greater) :
    readPriority true (Octet.less :: body) = (none, Octet.less :: body) := by
  rw [readPriority_less, hread]
  split
  . next heq =>
    cases heq
    exact absurd rfl hclose
  . rfl

theorem readPriority_false_less (body : Octets) :
    readPriority false (Octet.less :: body) = (none, (after? Octet.greater body).getD []) :=
  rfl

theorem readPriority_of_head? {parse : Bool} (h : line.head? ≠ some Octet.less) :
    readPriority parse line = (none, line) := by
  unfold readPriority
  split
  . exact absurd rfl h
  . rfl

theorem readTimestamp_of_not_opens {parse : Bool} (h : opens line = false) :
    readTimestamp parse line = (none, line) := by
  unfold readTimestamp
  split
  . next b body =>
    rw [if_neg]
    intro hb
    exact absurd (opens_iff.mpr ⟨b, body, rfl, hb⟩) (Bool.eq_false_iff.mp h)
  . rfl

theorem readTimestamp_false_openBracket {b : UInt8} (body : Octets) (h : b = Octet.space ∨ Octet.isDigit b) :
    readTimestamp false (Octet.openBracket :: b :: body) =
      (none, ((after? Octet.closeBracket body).map dropSpace).getD (Octet.openBracket :: b :: body)) :=
  if_pos h

theorem after?_append {before : Octets} {b : UInt8} (h : b ∉ before) (behind : Octets) :
    after? b (before ++ b :: behind) = some behind := by
  rw [after?, Octets.dropWhile_bne_append h]

theorem after?_cases (b : UInt8) (s : Octets) :
    (b ∉ s ∧ after? b s = none) ∨
      ∃ before behind, b ∉ before ∧ s = before ++ b :: behind ∧ after? b s = some behind := by
  by_cases h : b ∈ s
  . obtain ⟨before, behind, rfl, hbefore⟩ := List.eq_append_cons_of_mem h
    exact .inr ⟨before, behind, hbefore, rfl, after?_append hbefore behind⟩
  . rw [after?, Octets.dropWhile_bne_of_not_mem h]
    exact .inl ⟨h, rfl⟩

def walkPriority? (parse : Bool) (s : Octets) : Option (Option Priority × Nat) := do
  if s.head? = some Octet.less then
    if parse then
      match Decimal.measure? (← s.from? 1) with
      | some (p, length) =>
        return if s[1 + length]? = some Octet.greater then (some p, 1 + length + 1) else (none, 0)
      | none => return (none, 0)
    else
      return (none, ((s.idxOf? Octet.greater).map (· + 1)).getD s.length)
  else
    return (none, 0)

theorem exists_walkPriority?_eq (parse : Bool) (line : Octets) :
    ∃ i, walkPriority? parse line = some ((readPriority parse line).1, i) ∧
      line.from? i = some (readPriority parse line).2 := by
  unfold walkPriority?
  by_cases hhead : line.head? = some Octet.less
  . obtain ⟨body, rfl⟩ := List.head?_eq_some_iff.mp hhead
    have hfrom : Octets.from? (Octet.less :: body) 1 = some body := Octets.from?_append_cons [] Octet.less body
    rw [if_pos hhead]
    cases parse with
    | true =>
      rw [if_pos rfl, hfrom]
      dsimp only [Option.bind_eq_bind, Option.bind_some]
      rcases Decimal.measure?_cases body with ⟨hread, hmeasure⟩ | ⟨p, text, rest, htext, rfl, hread, hmeasure⟩
      . rw [hmeasure, readPriority_less, hread]
        exact ⟨0, rfl, Octets.from?_zero _⟩
      . rw [hmeasure]
        dsimp only
        rw [Octets.getElem?_add hfrom, Octets.getElem?_length_append]
        split
        . next hclose =>
          obtain ⟨rest, rfl⟩ := List.head?_eq_some_iff.mp hclose
          rw [readPriority_less, hread]
          refine ⟨_, rfl, ?_⟩
          rw [Nat.add_assoc, Octets.from?_add hfrom, Octets.from?_append_cons]
          rfl
        . next hclose =>
          rw [readPriority_of_not_closed hread hclose]
          exact ⟨0, rfl, Octets.from?_zero _⟩
    | false =>
      rw [readPriority_false_less]
      rcases after?_cases Octet.greater body with ⟨hnot, hafter⟩ | ⟨before, behind, hbefore, rfl, hafter⟩
      . rw [hafter, List.idxOf?_eq_none_iff.mpr (List.not_mem_cons_of_ne_of_not_mem (by decide) hnot)]
        exact ⟨_, rfl, Octets.from?_length _⟩
      . have hbefore := List.not_mem_cons_of_ne_of_not_mem (show Octet.greater ≠ Octet.less by decide) hbefore
        rw [hafter, ← List.cons_append, Octets.idxOf?_append hbefore]
        exact ⟨_, rfl, Octets.from?_append_cons _ _ _⟩
  . rw [if_neg hhead, readPriority_of_head? hhead]
    exact ⟨0, rfl, Octets.from?_zero _⟩

theorem dropSpace_of_head? {rest : Octets} (h : rest.head? ≠ some Octet.space) : dropSpace rest = rest := by
  unfold dropSpace
  split
  . exact absurd rfl h
  . rfl

def pastSpace (s : Octets) (i : Nat) : Nat :=
  if s[i]? = some Octet.space then i + 1 else i

theorem from?_pastSpace {s rest : Octets} {i : Nat} (h : s.from? i = some rest) :
    s.from? (pastSpace s i) = some (dropSpace rest) := by
  have hhead : s[i]? = rest.head? := by
    rw [← Nat.add_zero i, Octets.getElem?_add h, List.head?_eq_getElem?]
  unfold pastSpace
  rw [hhead]
  split
  . next hspace =>
    obtain ⟨rest, rfl⟩ := List.head?_eq_some_iff.mp hspace
    rw [Octets.from?_add h]
    exact Octets.from?_append_cons [] Octet.space rest
  . next hspace =>
    rw [h, dropSpace_of_head? hspace]

theorem not_mem_of_not_mem_behind {b : UInt8} {body : Octets} (hb : b = Octet.space ∨ Octet.isDigit b)
    (h : Octet.closeBracket ∉ body) : Octet.closeBracket ∉ Octet.openBracket :: b :: body := by
  apply List.not_mem_cons_of_ne_of_not_mem (by decide)
  apply List.not_mem_cons_of_ne_of_not_mem _ h
  rintro rfl
  revert hb
  decide

def walkTimestamp? (parse : Bool) (line : Octets) (i : Nat) : Option (Option Timestamp × Nat) := do
  let rest ← line.from? i
  if rest.head? = some Octet.openBracket ∧ rest[1]?.any (fun b => b == Octet.space || Octet.isDigit b) then
    if parse then
      match ← Timestamp.measureLegacy? (← rest.from? 1) with
      | some (t, length) => return (some t, pastSpace line (i + (1 + length)))
      | none => return (none, i)
    else
      match rest.idxOf? Octet.closeBracket with
      | some j => return (none, pastSpace line (i + (j + 1)))
      | none => return (none, i)
  else
    return (none, i)

theorem exists_walkTimestamp?_eq (parse : Bool) {rest : Octets} {i : Nat} (h : line.from? i = some rest) :
    ∃ j, walkTimestamp? parse line i = some ((readTimestamp parse rest).1, j) ∧
      line.from? j = some (readTimestamp parse rest).2 := by
  unfold walkTimestamp?
  rw [h]
  dsimp only [Option.bind_eq_bind, Option.bind_some]
  cases hopens : opens rest with
  | false =>
    rw [readTimestamp_of_not_opens hopens, if_neg (by rw [← opens_iff_head?, hopens]; decide)]
    exact ⟨i, rfl, h⟩
  | true =>
    obtain ⟨b, body, rfl, hb⟩ := opens_iff.mp hopens
    have hfrom : Octets.from? (Octet.openBracket :: b :: body) 1 = some (b :: body) :=
      Octets.from?_append_cons [] Octet.openBracket (b :: body)
    rw [if_pos (opens_iff_head?.mp hopens)]
    cases parse with
    | true =>
      rw [if_pos rfl, hfrom, readTimestamp_openBracket _ hb]
      dsimp only [Option.bind_some]
      rcases Timestamp.measureLegacy?_cases (b :: body) with
        ⟨t, text, behind, -, heq, hread, hmeasure⟩ | ⟨hread, hmeasure⟩
      . rw [hread, hmeasure]
        refine ⟨_, rfl, from?_pastSpace ?_⟩
        rw [Octets.from?_add h, Octets.from?_add hfrom, heq, Octets.from?_append_cons]
      . rw [hread, hmeasure]
        exact ⟨i, rfl, h⟩
    | false =>
      rw [readTimestamp_false_openBracket _ hb]
      rcases after?_cases Octet.closeBracket body with ⟨hnot, hafter⟩ | ⟨before, behind, hbefore, rfl, hafter⟩
      . rw [hafter, List.idxOf?_eq_none_iff.mpr (not_mem_of_not_mem_behind hb hnot)]
        exact ⟨i, rfl, h⟩
      . rw [hafter, ← List.cons_append, ← List.cons_append,
          Octets.idxOf?_append (not_mem_of_not_mem_behind hb hbefore)]
        refine ⟨_, rfl, from?_pastSpace ?_⟩
        rw [Octets.from?_add h, ← List.cons_append, ← List.cons_append, Octets.from?_append_cons]

def walk? (which : Decode) (line : Octets) : Option Record := do
  let (priority, i) ← walkPriority? which.priority line
  let (timestamp, i) ← walkTimestamp? which.timestamp line i
  let record := { Record.ofMessage (← line.from? i) with timestamp }
  return priority.elim record record.withPriority

theorem walk?_eq (which : Decode) (line : Octets) : walk? which line = some (decode which line) := by
  obtain ⟨i, hpriority, hi⟩ := exists_walkPriority?_eq which.priority line
  obtain ⟨j, htimestamp, hj⟩ := exists_walkTimestamp?_eq which.timestamp hi
  rw [walk?, hpriority]
  dsimp only [Option.bind_eq_bind, Option.bind_some]
  rw [htimestamp]
  dsimp only [Option.bind_some]
  rw [hj, Option.bind_some, decode]
  dsimp only
  cases (readPriority which.priority line).1 <;> rfl

theorem decode_eq (which : Decode) (line : Octets) :
    let label := readPriority which.priority line
    let stamp := readTimestamp which.timestamp label.2
    decode which line =
      { message := stamp.2
        priority := label.1
        level := label.1.map Priority.level
        facility := label.1.bind Priority.facility?
        timestamp := stamp.1
        sequence := none
        flag := .last } := by
  rw [decode]
  dsimp only
  cases (readPriority which.priority line).1 <;> rfl

theorem dropSpace_cases (s : Octets) :
    s = Octet.space :: dropSpace s ∨ s = dropSpace s ∧ (dropSpace s).head? ≠ some Octet.space := by
  by_cases h : s.head? = some Octet.space
  . obtain ⟨rest, rfl⟩ := List.head?_eq_some_iff.mp h
    exact .inl rfl
  . rw [dropSpace_of_head? h]
    exact .inr ⟨rfl, h⟩

/--
What a line is decoded to. It is the text of its priority, the text of its time and the message, with one space in front
of it perhaps. Each of the first two is there if and only if it stands at its place; what is malformed is part of the
message. All this is found without an octet past the end.
-/
theorem decode_full_grammar (line : Octets) :
    let record := decode .full line
    ∃ label rest stamp behind, line = label ++ rest ∧ rest = stamp ++ behind ∧
      (label = [] ∧ record.priority = none ∨ ∃ p, Label label p ∧ record.priority = some p) ∧
      (∀ p, record.priority = some p ↔ ∃ label rest, Label label p ∧ line = label ++ rest) ∧
      (stamp = [] ∧ record.timestamp = none ∧ behind = record.message ∨
        ∃ t, Stamp stamp t ∧ record.timestamp = some t ∧
          (behind = Octet.space :: record.message ∨
            behind = record.message ∧ record.message.head? ≠ some Octet.space)) ∧
      (∀ t, record.timestamp = some t ↔ ∃ stamp behind, Stamp stamp t ∧ rest = stamp ++ behind) ∧
      record.level = record.priority.map (·.toNat % 8) ∧
      record.facility = record.priority.bind (fun p => if p.toNat / 8 < 12 then some (p.toNat / 8) else none) ∧
      record.sequence = none ∧ record.flag = .last ∧ walk? .full line = some record := by
  obtain ⟨label, rest, hline, hrest, hlabel⟩ :
      ∃ label rest, line = label ++ rest ∧ (readPriority true line).2 = rest ∧
        (label = [] ∧ (readPriority true line).1 = none ∨
          ∃ p, Label label p ∧ (readPriority true line).1 = some p) := by
    rcases readPriority_cases line with ⟨p, label, rest, hlabel, hline, hread⟩ | hread
    . rw [hread]
      exact ⟨label, rest, hline, rfl, .inr ⟨p, hlabel, rfl⟩⟩
    . rw [hread]
      exact ⟨[], line, rfl, rfl, .inl ⟨rfl, rfl⟩⟩
  obtain ⟨stamp, behind, hstamp, hbehind⟩ :
      ∃ stamp behind, rest = stamp ++ behind ∧
        (stamp = [] ∧ readTimestamp true rest = (none, behind) ∨
          ∃ t, Stamp stamp t ∧ readTimestamp true rest = (some t, dropSpace behind)) := by
    rcases readTimestamp_cases rest with ⟨t, stamp, behind, hstamp, hrest, hread⟩ | hread
    . exact ⟨stamp, behind, hrest, .inr ⟨t, hstamp, hread⟩⟩
    . exact ⟨[], rest, rfl, .inl ⟨rfl, hread⟩⟩
  have hdecode := decode_eq .full line
  dsimp only [Decode.full] at hdecode
  rw [hrest] at hdecode
  refine ⟨label, rest, stamp, behind, hline, hstamp, ?_⟩
  rw [walk?_eq, Decode.full, hdecode]
  refine ⟨hlabel, fun _ => readPriority_eq_some_iff, ?_, fun _ => readTimestamp_eq_some_iff, rfl, rfl, rfl, rfl, rfl⟩
  rcases hbehind with ⟨rfl, hread⟩ | ⟨t, hstamp, hread⟩
  . rw [hread]
    exact .inl ⟨rfl, rfl, rfl⟩
  . rw [hread]
    exact .inr ⟨t, hstamp, rfl, dropSpace_cases behind⟩

end

end KernelLog.Legacy
