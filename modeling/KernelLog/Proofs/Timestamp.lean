import KernelLog.Proofs.Number.Decimal
import KernelLog.Proofs.Text.Octet
import KernelLog.Timestamp.Text

/-!
This module relates the written forms of a time to their reading. Main statement: the bracketed form of the legacy
encoding is read back as the time that was written.
-/

namespace KernelLog.Timestamp

theorem ofParts_usec (t : Timestamp) : ofParts t.sec (UInt64.ofNat t.usec.val) = t := by
  obtain ⟨sec, usec, husec⟩ := t
  have hsize : usec < UInt64.size := Nat.lt_trans husec (by decide)
  have hdiv : usec / 1000000 = 0 := Nat.div_eq_of_lt husec
  simp only [ofParts, UInt64.toNat_ofNat_of_lt' hsize, hdiv, Nat.add_zero, saturate, sec.toNat_lt_size, ↓reduceIte,
    UInt64.ofNat_toNat, Nat.mod_eq_of_lt husec]

theorem readLegacy?_of_read? {s rest rest' : Octets} {sec usec : UInt64}
    (hsec : Decimal.read? s = some (sec, Octet.dot :: rest))
    (husec : Decimal.read? rest = some (usec, Octet.closeBracket :: rest')) :
    readLegacy? s = some (ofParts sec usec, rest') := by
  unfold readLegacy?
  rw [hsec]
  change (Decimal.read? rest).bind _ = _
  rw [husec]
  rfl

theorem readLegacy?_eq_none_of_read? {s body : Octets} {sec : UInt64}
    (hsec : Decimal.read? s = some (sec, Octet.dot :: body))
    (hbody : ∀ usec rest, Decimal.read? body ≠ some (usec, Octet.closeBracket :: rest)) : readLegacy? s = none := by
  unfold readLegacy?
  rw [hsec]
  change (Decimal.read? body).bind _ = _
  cases hread : Decimal.read? body with
  | none => rfl
  | some r =>
    rw [Option.bind_some]
    split
    . next usec rest => exact absurd hread (hbody usec rest)
    . rfl

theorem readLegacy?_eq_none_of_head? {s rest : Octets} {sec : UInt64} (hsec : Decimal.read? s = some (sec, rest))
    (hdot : rest.head? ≠ some Octet.dot) (hclose : rest.head? ≠ some Octet.closeBracket) : readLegacy? s = none := by
  unfold readLegacy?
  rw [hsec, Option.bind_eq_bind, Option.bind_some]
  dsimp only
  split
  . exact absurd rfl hclose
  . exact absurd rfl hdot
  . rfl

/--
The text of a time in the legacy encoding: a number of seconds, or that and behind a point a number of microseconds.
-/
inductive Numeral : Octets → Timestamp → Prop where
  | seconds {text : Octets} {sec : UInt64} : Decimal.Numeral text sec → Numeral text (ofParts sec 0)
  | parts {text text' : Octets} {sec usec : UInt64} : Decimal.Numeral text sec → Decimal.Numeral text' usec →
    Numeral (text ++ Octet.dot :: text') (ofParts sec usec)

theorem Numeral.ne_nil {s : Octets} {t : Timestamp} (h : Numeral s t) : s ≠ [] := by
  cases h with
  | seconds hsec => exact hsec.ne_nil
  | parts => simp

theorem Numeral.closeBracket_not_mem {s : Octets} {t : Timestamp} (h : Numeral s t) : Octet.closeBracket ∉ s := by
  cases h with
  | seconds hsec => exact hsec.not_mem rfl (by decide) rfl
  | parts hsec husec =>
    rw [List.mem_append, List.mem_cons, not_or, not_or]
    exact ⟨hsec.not_mem rfl (by decide) rfl, by decide, husec.not_mem rfl (by decide) rfl⟩

theorem readLegacy?_append {text : Octets} {t : Timestamp} (h : Numeral text t) (rest : Octets) :
    readLegacy? (text ++ Octet.closeBracket :: rest) = some (t, rest) := by
  cases h with
  | seconds hsec =>
    unfold readLegacy?
    rw [hsec.read?_append rfl]
    rfl
  | @parts text text' sec usec hsec husec =>
    rw [List.append_assoc, List.cons_append]
    exact readLegacy?_of_read? (hsec.read?_append rfl _) (husec.read?_append rfl _)

def closed? (s : Octets) (i : Nat) (t : Timestamp) : Option (Timestamp × Nat) :=
  if s[i]? = some Octet.closeBracket then some (t, i + 1) else none

theorem closed?_cases {text rest : Octets} {t : Timestamp} (h : Numeral text t)
    (hopen : rest.head? ≠ some Octet.closeBracket → readLegacy? (text ++ rest) = none) :
    (∃ rest', rest = Octet.closeBracket :: rest' ∧ readLegacy? (text ++ rest) = some (t, rest') ∧
        closed? (text ++ rest) text.length t = some (t, text.length + 1)) ∨
      readLegacy? (text ++ rest) = none ∧ closed? (text ++ rest) text.length t = none := by
  rw [closed?, Octets.getElem?_length_append]
  by_cases hclose : rest.head? = some Octet.closeBracket
  . obtain ⟨rest', rfl⟩ := List.head?_eq_some_iff.mp hclose
    exact .inl ⟨rest', rfl, readLegacy?_append h rest', if_pos hclose⟩
  . exact .inr ⟨hopen hclose, if_neg hclose⟩

def measureLegacy? (s : Octets) : Option (Option (Timestamp × Nat)) := do
  match Decimal.measure? s with
  | none => return none
  | some (sec, i) =>
    if i + 1 < s.length ∧ s[i]? = some Octet.dot then
      match Decimal.measure? (← s.from? (i + 1)) with
      | none => return none
      | some (usec, length) => return closed? s (i + 1 + length) (ofParts sec usec)
    else
      return closed? s i (ofParts sec 0)

theorem fraction_iff (text rest : Octets) :
    text.length + 1 < (text ++ rest).length ∧ rest.head? = some Octet.dot ↔
      ∃ b body, rest = Octet.dot :: b :: body := by
  match rest with
  | [] => simp
  | [b] => simp
  | c :: b :: body => simp

theorem readLegacy?_eq_none_of_seconds {s rest : Octets} {sec : UInt64} (hread : Decimal.read? s = some (sec, rest))
    (hdot : ¬∃ b body, rest = Octet.dot :: b :: body) (hclose : rest.head? ≠ some Octet.closeBracket) :
    readLegacy? s = none := by
  by_cases hhead : rest.head? = some Octet.dot
  . obtain ⟨body, rfl⟩ := List.head?_eq_some_iff.mp hhead
    cases body with
    | nil => exact readLegacy?_eq_none_of_read? hread (by simp [show Decimal.read? [] = none from rfl])
    | cons b body => exact absurd ⟨b, body, rfl⟩ hdot
  . exact readLegacy?_eq_none_of_head? hread hhead hclose

theorem measureLegacy?_cases (s : Octets) :
    (∃ t text rest, Numeral text t ∧ s = text ++ Octet.closeBracket :: rest ∧ readLegacy? s = some (t, rest) ∧
        measureLegacy? s = some (some (t, text.length + 1))) ∨
      readLegacy? s = none ∧ measureLegacy? s = some none := by
  unfold measureLegacy?
  rcases Decimal.measure?_cases s with ⟨hread, hmeasure⟩ | ⟨sec, text, rest, htext, rfl, hread, hmeasure⟩
  . rw [readLegacy?, hread, hmeasure]
    exact .inr ⟨rfl, rfl⟩
  rw [hmeasure]
  dsimp only
  rw [Octets.getElem?_length_append]
  by_cases hdot : ∃ b body, rest = Octet.dot :: b :: body
  . rw [if_pos ((fraction_iff text rest).mpr hdot)]
    obtain ⟨b, body, rfl⟩ := hdot
    rw [Octets.from?_append_cons]
    generalize b :: body = body at *
    dsimp only [Option.bind_eq_bind, Option.bind_some]
    rcases Decimal.measure?_cases body with ⟨hread', hmeasure⟩ | ⟨usec, text', rest, htext', rfl, hread', hmeasure⟩
    . rw [hmeasure]
      exact .inr ⟨readLegacy?_eq_none_of_read? hread (by simp [hread']), rfl⟩
    . rw [hmeasure]
      dsimp only
      have hopen : rest.head? ≠ some Octet.closeBracket →
          readLegacy? ((text ++ Octet.dot :: text') ++ rest) = none := by
        intro hclose
        rw [List.append_assoc, List.cons_append]
        apply readLegacy?_eq_none_of_read? hread
        rintro usec' rest' heq
        rw [hread'] at heq
        cases heq
        exact hclose rfl
      have hlength : (text ++ Octet.dot :: text').length = text.length + 1 + text'.length := by
        rw [List.length_append, List.length_cons, Nat.add_comm text'.length, Nat.add_assoc]
      have hcases := closed?_cases (.parts htext htext') hopen
      rw [List.append_assoc, List.cons_append, hlength] at hcases
      rcases hcases with ⟨rest, rfl, hsome, hclosed⟩ | ⟨hnone, hclosed⟩
      . refine .inl ⟨_, text ++ Octet.dot :: text', rest, .parts htext htext', by simp, hsome, ?_⟩
        rw [hclosed, hlength]
        rfl
      . exact .inr ⟨hnone, by rw [hclosed]; rfl⟩
  . rw [if_neg (mt (fraction_iff text rest).mp hdot)]
    rcases closed?_cases (.seconds htext) (readLegacy?_eq_none_of_seconds hread hdot) with
      ⟨rest, rfl, hsome, hclosed⟩ | ⟨hnone, hclosed⟩
    . exact .inl ⟨_, text, rest, .seconds htext, rfl, hsome, by rw [hclosed]; rfl⟩
    . exact .inr ⟨hnone, by rw [hclosed]; rfl⟩

theorem readLegacy?_octets (width : Nat) (t : Timestamp) (rest : Octets) :
    readLegacy? (t.octets width ++ Octet.closeBracket :: rest) = some (t, rest) := by
  have hsize : t.usec.val < UInt64.size := Nat.lt_trans t.usec.isLt (by decide)
  have hsec := Decimal.read?_padLeft_digits width t.sec
    (Octet.dot :: (Decimal.zeroed 6 t.usec.val ++ Octet.closeBracket :: rest)) (by rintro b ⟨⟩; rfl)
  have husec := Decimal.read?_zeroed 6 hsize (Octet.closeBracket :: rest) (by rintro b ⟨⟩; rfl)
  rw [octets, List.append_assoc, List.cons_append, readLegacy?_of_read? hsec husec, ofParts_usec]

theorem exists_octets_eq_cons (width : Nat) (t : Timestamp) :
    ∃ b body, t.octets width = b :: body ∧ (b = Octet.space ∨ Octet.isDigit b) := by
  obtain ⟨d, ds, hdigits⟩ := List.exists_cons_of_ne_nil (Decimal.digits_ne_nil t.sec.toNat)
  rw [octets, Decimal.padLeft]
  cases width - (Decimal.digits t.sec.toNat).length with
  | zero =>
    have hd := Decimal.isDigit_of_mem_digits t.sec.toNat d (by simp [hdigits])
    rw [hdigits]
    exact ⟨d, _, rfl, .inr hd⟩
  | succ n => exact ⟨Octet.space, _, rfl, .inl rfl⟩

end KernelLog.Timestamp
