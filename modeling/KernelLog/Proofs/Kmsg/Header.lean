import KernelLog.Kmsg.Header
import KernelLog.Proofs.Number.Decimal
import KernelLog.Proofs.Text.Octet

/-!
This module contains the grammar of the records that the device gives: fields that commas part, a semicolon, and the
message up to its first newline. Main statement: decoding takes exactly the fields of this grammar, and it needs no
octet that is not there.
-/

namespace KernelLog.Kmsg

def endsField (b : UInt8) : Bool :=
  b == Octet.comma || b == Octet.semicolon

theorem endsField_iff {b : UInt8} : endsField b ↔ b = Octet.comma ∨ b = Octet.semicolon := by
  simp [endsField]

theorem not_endsField_of_numeral {text : Octets} {n : UInt64} (h : Decimal.Numeral text n) :
    ∀ b ∈ text, endsField b = false := by
  intro b hb
  rw [Bool.eq_false_iff, ne_eq, endsField_iff]
  rintro (rfl | rfl)
  . exact h.not_mem rfl (by decide) rfl hb
  . exact h.not_mem rfl (by decide) rfl hb

theorem read?_field_iff {f rest rest' : Octets} {b b' : UInt8} {n : UInt64} (hf : ∀ c ∈ f, endsField c = false)
    (hb : endsField b) (hb' : endsField b') :
    Decimal.read? (f ++ b :: rest) = some (n, b' :: rest') ↔
      Decimal.Numeral f n ∧ b' :: rest' = b :: rest := by
  have hdigit : Octet.isDigit b' = false := by
    rcases endsField_iff.mp hb' with rfl | rfl <;> rfl
  rw [Decimal.read?_cons_eq_some_iff hdigit]
  constructor
  . rintro ⟨text, heq, htext⟩
    have hfield : (f ++ b :: rest).takeWhile (!endsField ·) = f ∧
        (f ++ b :: rest).dropWhile (!endsField ·) = b :: rest :=
      Decimal.takeWhile_append_of_head? (by simpa using hf) (by simpa using hb)
    have hread : (text ++ b' :: rest').takeWhile (!endsField ·) = text ∧
        (text ++ b' :: rest').dropWhile (!endsField ·) = b' :: rest' :=
      Decimal.takeWhile_append_of_head? (by simpa using not_endsField_of_numeral htext) (by simpa using hb')
    rw [heq] at hfield
    rw [hfield.1.symm.trans hread.1, hfield.2.symm.trans hread.2]
    exact ⟨htext, rfl⟩
  . rintro ⟨hnumeral, heq⟩
    exact ⟨f, by rw [heq], hnumeral⟩

namespace Header

theorem readField?_cases (s : Octets) :
    (∃ n b rest, endsField b ∧ Decimal.read? s = some (n, b :: rest) ∧ readField? s = some (n, rest) ∧
        Timestamp.readMicros? s = some (.ofMicros n, b :: rest)) ∨
      (∀ n b rest, endsField b → Decimal.read? s ≠ some (n, b :: rest)) ∧ readField? s = none ∧
        Timestamp.readMicros? s = none := by
  cases hread : Decimal.read? s with
  | none =>
    simp only [readField?, Timestamp.readMicros?, hread]
    exact .inr ⟨by simp, rfl, rfl⟩
  | some r =>
    obtain ⟨n, r⟩ := r
    simp only [readField?, Timestamp.readMicros?, hread]
    cases r with
    | nil => exact .inr ⟨by simp, rfl, rfl⟩
    | cons b rest =>
      by_cases hb : endsField b
      . refine .inl ⟨n, b, rest, hb, rfl, ?_⟩
        rcases endsField_iff.mp hb with rfl | rfl <;> exact ⟨rfl, rfl⟩
      . have hcomma : b ≠ Octet.comma := fun h => hb (endsField_iff.mpr (.inl h))
        have hsemicolon : b ≠ Octet.semicolon := fun h => hb (endsField_iff.mpr (.inr h))
        refine .inr ⟨?_, ?_⟩
        . rintro n' b' rest' hb' heq
          simp only [Option.some.injEq, Prod.mk.injEq, List.cons.injEq] at heq
          rw [heq.2.1] at hb
          exact hb hb'
        . simp [hcomma, hsemicolon]

theorem readField?_append {f : Octets} {b : UInt8} (rest : Octets) (hf : ∀ c ∈ f, endsField c = false)
    (hb : endsField b) : readField? (f ++ b :: rest) = (Decimal.whole? f).map (·, rest) := by
  rcases readField?_cases (f ++ b :: rest) with ⟨n, b', rest', hb', hread, hfield, -⟩ | ⟨hread, hfield, -⟩
  . obtain ⟨hnumeral, heq⟩ := (read?_field_iff hf hb hb').mp hread
    rw [hfield, Decimal.whole?_eq_some_iff.mpr hnumeral, (List.cons.inj heq).2]
    rfl
  . cases hwhole : Decimal.whole? f with
    | none => rw [hfield, Option.map_none]
    | some n =>
      rw [Decimal.whole?_eq_some_iff] at hwhole
      exact absurd ((read?_field_iff hf hb hb).mpr ⟨hwhole, rfl⟩) (hread n b rest hb)

def ofFields (fs : List Octets) : Header :=
  let priority := fs[0]?.bind Decimal.whole?
  let sequence := priority.bind fun _ => fs[1]?.bind Decimal.whole?
  let timestamp := sequence.bind fun _ => (fs[2]?.bind Decimal.whole?).map .ofMicros
  { priority
    level := priority.map Priority.level
    facility := priority.bind Priority.facility?
    sequence
    timestamp
    flag := if timestamp.isSome then .ofOctet? (fs[3]?.bind List.head?) else .flush }

section

variable {fs : List Octets}

theorem priority_ofFields_eq_some_iff {n : Priority} :
    (ofFields fs).priority = some n ↔ ∃ f, fs[0]? = some f ∧ Decimal.Numeral f n := by
  simp [ofFields, Option.bind_eq_some_iff, Decimal.whole?_eq_some_iff]

theorem sequence_ofFields_eq_some_iff {n : UInt64} :
    (ofFields fs).sequence = some n ↔
      (ofFields fs).priority.isSome ∧ ∃ f, fs[1]? = some f ∧ Decimal.Numeral f n := by
  rw [Option.isSome_iff_exists]
  simp [ofFields, Option.bind_eq_some_iff, Decimal.whole?_eq_some_iff]

theorem timestamp_ofFields_eq_some_iff {t : Timestamp} :
    (ofFields fs).timestamp = some t ↔
      (ofFields fs).sequence.isSome ∧ ∃ f n, fs[2]? = some f ∧ Decimal.Numeral f n ∧ t = .ofMicros n := by
  rw [Option.isSome_iff_exists]
  simp [ofFields, Option.bind_eq_some_iff, Decimal.whole?_eq_some_iff, eq_comm (a := t)]

theorem isSome_of_flag_ofFields (h : (ofFields fs).flag ≠ .flush) :
    (ofFields fs).priority.isSome ∧ (ofFields fs).level.isSome ∧ (ofFields fs).sequence.isSome ∧
      (ofFields fs).timestamp.isSome := by
  obtain ⟨t, ht⟩ : ∃ t, (ofFields fs).timestamp = some t := by
    cases ht : (ofFields fs).timestamp with
    | some t => exact ⟨t, rfl⟩
    | none =>
      apply absurd _ h
      have hflag : (ofFields fs).flag = if (ofFields fs).timestamp.isSome then _ else _ := rfl
      rw [hflag, ht]
      rfl
  have hsequence := (timestamp_ofFields_eq_some_iff.mp ht).1
  obtain ⟨n, hn⟩ := Option.isSome_iff_exists.mp hsequence
  have hpriority := (sequence_ofFields_eq_some_iff.mp hn).1
  refine ⟨hpriority, ?_, hsequence, ?_⟩
  . rwa [ofFields, Option.isSome_map]
  . rw [ht]
    rfl

end

end Header

inductive Fields : Octets → List Octets → Prop where
  | nil : Fields [] []
  | cons {f rest : Octets} {b : UInt8} {fs : List Octets} : (∀ c ∈ f, endsField c = false) → endsField b →
    Fields rest fs → Fields (f ++ b :: rest) (f :: fs)

namespace Fields

variable {s : Octets} {fs : List Octets}

theorem flag_head? (h : Fields s fs) : Flag.ofOctet? s.head? = Flag.ofOctet? (fs[0]?.bind List.head?) := by
  cases h with
  | nil => rfl
  | @cons f rest b fs hf hb h =>
    cases f with
    | nil => rcases endsField_iff.mp hb with rfl | rfl <;> rfl
    | cons c f => rfl

theorem exists_readField?_eq (h : Fields s fs) :
    ∃ rest, Fields rest fs.tail ∧ Header.readField? s = (fs[0]?.bind Decimal.whole?).map (·, rest) := by
  cases h with
  | nil => exact ⟨[], .nil, rfl⟩
  | @cons f rest b fs hf hb h => exact ⟨rest, h, Header.readField?_append rest hf hb⟩

theorem exists_readMicros?_eq (h : Fields s fs) :
    ∃ b rest, Fields rest fs.tail ∧
      Timestamp.readMicros? s = (fs[0]?.bind Decimal.whole?).map (.ofMicros ·, b :: rest) := by
  obtain ⟨rest, hrest, hread⟩ := h.exists_readField?_eq
  rcases Header.readField?_cases s with ⟨n, b, rest', -, -, hfield, hmicros⟩ | ⟨-, hfield, hmicros⟩
  . rw [hread, Option.map_eq_some_iff] at hfield
    obtain ⟨n', hn', heq⟩ := hfield
    rw [Prod.mk.injEq] at heq
    refine ⟨b, rest, hrest, ?_⟩
    rw [hmicros, hn', heq.1, heq.2, Option.map_some]
  . rw [hread, Option.map_eq_none_iff] at hfield
    refine ⟨Octet.semicolon, rest, hrest, ?_⟩
    rw [hmicros, hfield, Option.map_none]

theorem read_eq (h : Fields s fs) : Header.read s = .ofFields fs := by
  obtain ⟨rest, hrest, hpriority⟩ := h.exists_readField?_eq
  obtain ⟨rest', hrest', hsequence⟩ := hrest.exists_readField?_eq
  obtain ⟨b, rest'', hrest'', htime⟩ := hrest'.exists_readMicros?_eq
  have hflag := hrest''.flag_head?
  simp only [List.getElem?_tail, Nat.reduceAdd] at hsequence htime hflag
  unfold Header.read Header.ofFields
  rw [hpriority]
  cases fs[0]?.bind Decimal.whole? with
  | none => rfl
  | some p =>
    simp only [Option.map_some, Option.bind_some]
    rw [hsequence]
    cases fs[1]?.bind Decimal.whole? with
    | none => rfl
    | some sequence =>
      simp only [Option.map_some, Option.bind_some]
      rw [htime]
      cases fs[2]?.bind Decimal.whole? with
      | none => rfl
      | some micros =>
        simp only [Option.map_some, Option.isSome_some, ↓reduceIte, List.drop_one, List.tail_cons]
        rw [hflag]
        rfl

end Fields

theorem not_endsField_of_not_mem {f : Octets} (hcomma : Octet.comma ∉ f) (hsemicolon : Octet.semicolon ∉ f) :
    ∀ c ∈ f, endsField c = false := by
  intro c hc
  rw [Bool.eq_false_iff, ne_eq, endsField_iff]
  rintro (rfl | rfl)
  . exact hcomma hc
  . exact hsemicolon hc

theorem fields_splitOn (s : Octets) (hs : Octet.semicolon ∉ s) :
    Fields (s ++ [Octet.semicolon]) (s.splitOn Octet.comma) := by
  by_cases hcomma : Octet.comma ∈ s
  . obtain ⟨f, rest, rfl, hf⟩ := List.eq_append_cons_of_mem hcomma
    simp only [List.mem_append, List.mem_cons, not_or] at hs
    rw [List.splitOn_append_cons_self_of_not_mem hf, List.append_assoc]
    exact .cons (not_endsField_of_not_mem hf hs.1) rfl (fields_splitOn rest hs.2.2)
  . rw [List.splitOn_eq_singleton hcomma]
    exact .cons (not_endsField_of_not_mem hcomma hs) rfl .nil
termination_by s.length

namespace Physical

theorem decode_of_not_mem {raw : Octets} (h : Octet.semicolon ∉ raw) :
    decode raw = { header := .empty, start := 0, escaped := raw.takeWhile (· != Octet.newline) } := by
  rw [decode, Octets.dropWhile_bne_of_not_mem h]

theorem decode_append {fields : Octets} (h : Octet.semicolon ∉ fields) (body : Octets) :
    decode (fields ++ Octet.semicolon :: body) =
      { header := .ofFields (fields.splitOn Octet.comma)
        start := fields.length + 1
        escaped := body.takeWhile (· != Octet.newline) } := by
  rw [decode, Octets.takeWhile_bne_append h, Octets.dropWhile_bne_append h]
  dsimp only
  rw [(fields_splitOn fields h).read_eq]

theorem exists_eq_append_escaped (raw : Octets) :
    ∃ front behind, raw = front ++ ((decode raw).escaped ++ behind) ∧ (decode raw).start = front.length ∧
      Octet.newline ∉ (decode raw).escaped ∧ (behind = [] ∨ behind.head? = some Octet.newline) := by
  obtain ⟨front, body, hraw, hstart, hescaped⟩ :
      ∃ front body, raw = front ++ body ∧ (decode raw).start = front.length ∧
        (decode raw).escaped = body.takeWhile (· != Octet.newline) := by
    by_cases hsemicolon : Octet.semicolon ∈ raw
    . obtain ⟨fields, body, rfl, hfields⟩ := List.eq_append_cons_of_mem hsemicolon
      rw [decode_append hfields]
      exact ⟨fields ++ [Octet.semicolon], body, by simp, by simp, rfl⟩
    . rw [decode_of_not_mem hsemicolon]
      exact ⟨[], raw, rfl, rfl, rfl⟩
  by_cases hnewline : Octet.newline ∈ body
  . obtain ⟨message, behind, rfl, hmessage⟩ := List.eq_append_cons_of_mem hnewline
    rw [Octets.takeWhile_bne_append hmessage] at hescaped
    refine ⟨front, Octet.newline :: behind, ?_, hstart, ?_, .inr rfl⟩
    . rw [hescaped, ← hraw]
    . rwa [hescaped]
  . rw [Octets.takeWhile_bne_of_not_mem hnewline] at hescaped
    refine ⟨front, [], ?_, hstart, ?_, .inl rfl⟩
    . rw [hescaped, List.append_nil, ← hraw]
    . rwa [hescaped]

theorem start_le_stop_le_length (raw : Octets) :
    (decode raw).start ≤ (decode raw).stop ∧ (decode raw).stop ≤ raw.length ∧
      (raw.take (decode raw).stop).drop (decode raw).start = (decode raw).escaped ∧
      ((decode raw).stop = raw.length ∨ raw[(decode raw).stop]? = some Octet.newline) := by
  obtain ⟨front, behind, hraw, hstart, -, hbehind⟩ := exists_eq_append_escaped raw
  generalize decode raw = p at *
  have hstop : p.stop = front.length + p.escaped.length := by
    rw [stop, hstart]
  rw [hstop, hstart, hraw]
  refine ⟨Nat.le_add_right _ _, by simp, ?_, ?_⟩
  . rw [List.take_length_add_append, List.take_left, List.drop_left]
  . rw [Octets.getElem?_length_add_append, Octets.getElem?_length_append]
    rcases hbehind with rfl | hbehind
    . exact .inl (by simp)
    . exact .inr hbehind

end Physical

namespace Header

def readFieldAt? (head : Octets) (i : Nat) : Option (Option (UInt64 × Nat)) := do
  let rest ← head.from? i
  match Decimal.measure? rest with
  | some (n, length) =>
    return if head[i + length]?.any endsField then some (n, i + length + 1) else none
  | none => return none

def walk? (head : Octets) : Option Header := do
  match ← readFieldAt? head 0 with
  | none => return empty
  | some (p, i) =>
    let header := empty.withPriority p
    match ← readFieldAt? head i with
    | none => return header
    | some (sequence, i) =>
      let header := { header with sequence := some sequence }
      match ← readFieldAt? head i with
      | none => return header
      | some (micros, i) =>
        let flag ← if i < head.length then head[i]?.map fun b => Flag.ofOctet? (some b) else some .flush
        return { header with timestamp := some (.ofMicros micros), flag }

theorem readFieldAt?_cases {head : Octets} {i : Nat} (hi : i ≤ head.length) :
    (∃ n j, j ≤ head.length ∧ readFieldAt? head i = some (some (n, j)) ∧
        readField? (head.drop i) = some (n, head.drop j) ∧
        ∃ b, Timestamp.readMicros? (head.drop i) = some (.ofMicros n, b :: head.drop j)) ∨
      readFieldAt? head i = some none ∧ readField? (head.drop i) = none ∧
        Timestamp.readMicros? (head.drop i) = none := by
  have hfrom : head.from? i = some (head.drop i) := if_pos hi
  unfold readFieldAt?
  rw [hfrom, Option.bind_eq_bind, Option.bind_some]
  rcases Decimal.measure?_cases (head.drop i) with ⟨hnone, hmeasure⟩ | ⟨n, text, rest, -, hdrop, hsome, hmeasure⟩
  . rw [hmeasure]
    rcases readField?_cases (head.drop i) with ⟨n, b, rest, -, hread, -⟩ | ⟨-, hfield⟩
    . rw [hread] at hnone
      cases hnone
    . exact .inr ⟨rfl, hfield⟩
  . rw [hmeasure]
    dsimp only
    have hhead : head[i + text.length]? = rest.head? := by
      rw [← List.getElem?_drop, hdrop, Octets.getElem?_length_append]
    rw [hhead]
    rcases readField?_cases (head.drop i) with ⟨n', b, rest', hb, hread, hfield⟩ | ⟨hread, hfield⟩
    . obtain ⟨rfl, rfl⟩ : n = n' ∧ rest = b :: rest' := by
        rwa [hsome, Option.some.injEq, Prod.mk.injEq] at hread
      have hbehind : head.drop (i + text.length + 1) = rest' := by
        rw [Nat.add_assoc, ← List.drop_drop, hdrop, ← List.drop_drop, List.drop_left, List.drop_one, List.tail_cons]
      have hlength := congrArg List.length hdrop
      simp only [List.length_drop, List.length_append, List.length_cons] at hlength
      refine .inl ⟨n, i + text.length + 1, by omega, ?_, ?_, b, ?_⟩
      . rw [List.head?_cons, Option.any_some, if_pos hb]
        rfl
      . rw [hbehind, hfield.1]
      . rw [hbehind, hfield.2]
    . have hany : rest.head?.any endsField = false := by
        cases rest with
        | nil => rfl
        | cons b rest =>
          rw [List.head?_cons, Option.any_some, Bool.eq_false_iff]
          intro hb
          exact hread n b rest hb hsome
      rw [hany]
      exact .inr ⟨rfl, hfield⟩

theorem walk?_eq (head : Octets) : walk? head = some (read head) := by
  unfold walk? read
  rcases readFieldAt?_cases (Nat.zero_le head.length) with ⟨p, i, hi, hat, hread, -⟩ | ⟨hat, hread, -⟩
  . rw [List.drop_zero] at hread
    rw [hat, hread]
    dsimp only [Option.bind_eq_bind, Option.bind_some]
    rcases readFieldAt?_cases hi with ⟨sequence, j, hj, hat, hread, -⟩ | ⟨hat, hread, -⟩
    . rw [hat, hread]
      dsimp only [Option.bind_eq_bind, Option.bind_some]
      rcases readFieldAt?_cases hj with ⟨micros, k, hk, hat, -, b, hread⟩ | ⟨hat, -, hread⟩
      . rw [hat, hread]
        dsimp only [Option.bind_eq_bind, Option.bind_some]
        rw [List.drop_one, List.tail_cons, List.head?_drop]
        split
        . next hlt =>
          rw [List.getElem?_eq_getElem hlt]
          rfl
        . next hge =>
          rw [List.getElem?_eq_none (by omega)]
          rfl
      . rw [hat, hread]
        rfl
    . rw [hat, hread]
      rfl
  . rw [List.drop_zero] at hread
    rw [hat, hread]
    rfl

end Header

namespace Physical

def walk? (raw : Octets) : Option (Header × Nat × Nat) := do
  let (header, start) ←
    match raw.idxOf? Octet.semicolon with
    | none => some (.empty, 0)
    | some i => (Header.walk? (raw.take (i + 1))).map (·, i + 1)
  let body ← raw.from? start
  let stop :=
    match body.idxOf? Octet.newline with
    | none => raw.length
    | some i => start + i
  return (header, start, stop)

theorem walk?_eq (raw : Octets) :
    walk? raw = some ((decode raw).header, (decode raw).start, (decode raw).stop) := by
  have hstop (front body : Octets) :
      (match body.idxOf? Octet.newline with | none => (front ++ body).length | some i => front.length + i) =
        front.length + (body.takeWhile (· != Octet.newline)).length := by
    by_cases hnewline : Octet.newline ∈ body
    . obtain ⟨message, behind, rfl, hmessage⟩ := List.eq_append_cons_of_mem hnewline
      rw [Octets.idxOf?_append hmessage, Octets.takeWhile_bne_append hmessage]
    . rw [List.idxOf?_eq_none_iff.mpr hnewline, Octets.takeWhile_bne_of_not_mem hnewline, List.length_append]
  unfold walk?
  by_cases hsemicolon : Octet.semicolon ∈ raw
  . obtain ⟨fields, body, rfl, hfields⟩ := List.eq_append_cons_of_mem hsemicolon
    have hraw : fields ++ Octet.semicolon :: body = (fields ++ [Octet.semicolon]) ++ body := by simp
    have hlength : (fields ++ [Octet.semicolon]).length = fields.length + 1 := by simp
    have htake : (fields ++ Octet.semicolon :: body).take (fields.length + 1) = fields ++ [Octet.semicolon] := by
      rw [hraw, ← hlength, List.take_left]
    have hwalked := hstop (fields ++ [Octet.semicolon]) body
    rw [← hraw, hlength] at hwalked
    rw [Octets.idxOf?_append hfields, decode_append hfields, stop]
    dsimp only
    rw [htake, Header.walk?_eq, (fields_splitOn fields hfields).read_eq, Option.map_some]
    dsimp only [Option.bind_eq_bind, Option.bind_some]
    rw [Octets.from?_append_cons]
    dsimp only [Option.bind_some]
    rw [hwalked]
    rfl
  . have hwalked := hstop [] raw
    rw [List.idxOf?_eq_none_iff.mpr hsemicolon, decode_of_not_mem hsemicolon, stop]
    dsimp only [Option.bind_eq_bind, Option.bind_some]
    rw [Octets.from?, if_pos (Nat.zero_le _), List.drop_zero]
    dsimp only [Option.bind_some]
    simp only [List.nil_append, List.length_nil] at hwalked
    rw [hwalked]
    rfl

/--
What a record of the device is decoded to. Without a semicolon it is all message. With one, commas part the octets in
front of the first one into fields. The first three fields give numbers, the priority, the sequence and the
microseconds, each of them if all fields up to it are the text of a number as a whole. The first octet of the fourth
field gives the flag, if all three are there. The message lies within the record and ends in front of its first
newline. All this is found without an octet past the end.
-/
theorem decode_grammar (raw : Octets) :
    let p := decode raw
    let fields := raw.takeWhile (· != Octet.semicolon)
    let fs := fields.splitOn Octet.comma
    (Octet.semicolon ∉ raw → p.header = .empty ∧ p.start = 0) ∧
      (Octet.semicolon ∈ raw →
        (∀ n, p.header.priority = some n ↔ ∃ f, fs[0]? = some f ∧ Decimal.Numeral f n) ∧
          (∀ n, p.header.sequence = some n ↔
            p.header.priority.isSome ∧ ∃ f, fs[1]? = some f ∧ Decimal.Numeral f n) ∧
          (∀ t, p.header.timestamp = some t ↔
            p.header.sequence.isSome ∧ ∃ f n, fs[2]? = some f ∧ Decimal.Numeral f n ∧ t = .ofMicros n) ∧
          p.header.flag =
            (if p.header.timestamp.isSome then .ofOctet? (fs[3]?.bind List.head?) else .flush) ∧
          p.start = fields.length + 1) ∧
      p.header.level = p.header.priority.map (·.toNat % 8) ∧
      p.header.facility =
        p.header.priority.bind (fun n => if n.toNat / 8 < 12 then some (n.toNat / 8) else none) ∧
      p.start ≤ p.stop ∧ p.stop ≤ raw.length ∧ (raw.take p.stop).drop p.start = p.escaped ∧
      Octet.newline ∉ p.escaped ∧ (p.stop = raw.length ∨ raw[p.stop]? = some Octet.newline) ∧
      (p.header.flag ≠ .flush →
        p.header.priority.isSome ∧ p.header.level.isSome ∧ p.header.sequence.isSome ∧ p.header.timestamp.isSome) ∧
      walk? raw = some (p.header, p.start, p.stop) := by
  intro p fields fs
  obtain ⟨hle, hlength, hescaped, hstop⟩ := start_le_stop_le_length raw
  obtain ⟨-, -, -, -, hnewline, -⟩ := exists_eq_append_escaped raw
  have hempty : Octet.semicolon ∉ raw → p.header = .empty ∧ p.start = 0 := by
    intro hsemicolon
    simp only [p, decode_of_not_mem hsemicolon, and_self]
  have hfull : Octet.semicolon ∈ raw → p.header = .ofFields fs ∧ p.start = fields.length + 1 := by
    intro hsemicolon
    obtain ⟨fields', body, rfl, hfields⟩ := List.eq_append_cons_of_mem hsemicolon
    simp only [p, fs, fields, decode_append hfields, Octets.takeWhile_bne_append hfields, and_self]
  have hheader : p.header = .empty ∨ ∃ fs, p.header = .ofFields fs := by
    by_cases hsemicolon : Octet.semicolon ∈ raw
    . exact .inr ⟨fs, (hfull hsemicolon).1⟩
    . exact .inl (hempty hsemicolon).1
  refine ⟨hempty, ?_, ?_, ?_, hle, hlength, hescaped, hnewline, hstop, ?_, walk?_eq raw⟩
  . intro hsemicolon
    obtain ⟨hheader, hstart⟩ := hfull hsemicolon
    rw [hheader]
    exact ⟨fun _ => Header.priority_ofFields_eq_some_iff, fun _ => Header.sequence_ofFields_eq_some_iff,
      fun _ => Header.timestamp_ofFields_eq_some_iff, rfl, hstart⟩
  . rcases hheader with hheader | ⟨fs, hheader⟩ <;> rw [hheader] <;> rfl
  . rcases hheader with hheader | ⟨fs, hheader⟩ <;> rw [hheader] <;> rfl
  . intro hflag
    rcases hheader with hheader | ⟨fs, hheader⟩
    . rw [hheader] at hflag
      exact absurd rfl hflag
    . rw [hheader] at hflag ⊢
      exact Header.isSome_of_flag_ofFields hflag

theorem decode_grammar_caller :
    let raw := Octets.ofString "\t+100,7,5000007,c,caller=T1;a;b\n KEY=v"
    let p := decode raw
    Octet.semicolon ∈ raw ∧ p.header.flag = .start ∧ p.header.facility = none ∧ p.start = 28 ∧ p.stop = 31 ∧
      p.header.sequence.isSome ∧ p.header.timestamp.isSome ∧
      ∃ f, ((raw.takeWhile (· != Octet.semicolon)).splitOn Octet.comma)[0]? = some f ∧ Decimal.Numeral f 100 := by
  intro raw p
  obtain ⟨-, hfull, -, -, -, -, -, -, -, hflag, -⟩ := decode_grammar raw
  have hsemicolon : Octet.semicolon ∈ raw := by decide +kernel
  have hstart : p.header.flag = .start := by decide +kernel
  have hpriority : p.header.priority = some 100 := by decide +kernel
  obtain ⟨-, -, hsequence, ht⟩ := hflag (by rw [hstart]; decide)
  exact ⟨hsemicolon, hstart, by decide +kernel, by decide +kernel, by decide +kernel, hsequence, ht,
    ((hfull hsemicolon).1 100).mp hpriority⟩

end Physical
end KernelLog.Kmsg
