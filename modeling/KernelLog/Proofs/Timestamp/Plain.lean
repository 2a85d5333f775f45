import KernelLog.Proofs.Timestamp
import KernelLog.Proofs.Timestamp.Micros
import Mathlib.Algebra.Order.Floor.Semifield
import Mathlib.Data.Rat.Floor
import Mathlib.Tactic.Positivity
import Mathlib.Tactic.Ring

/-!
This module relates times to numbers of seconds in plain digits, with a point among them. Main statements: such a text
is read as the number that it denotes, rounded down to the microsecond, and the text of a time is one that denotes it.
-/

namespace KernelLog

theorem dropWhile_append_of_not {p : Char → Bool} {cs ds : List Char} (hcs : ∀ c ∈ cs, p c)
    (hds : ∀ c ∈ ds, p c = false) (hne : ds ≠ []) (rest : List Char) :
    (cs ++ (ds ++ rest)).dropWhile p = ds ++ rest := by
  obtain ⟨d, ds', rfl⟩ := List.exists_cons_of_ne_nil hne
  have hd := hds d List.mem_cons_self
  rw [List.dropWhile_append_of_pos hcs, List.cons_append, List.dropWhile_cons_of_neg (by simp [hd])]

theorem trim_ofList {before text behind : List Char} (hbefore : ∀ c ∈ before, isWhiteSpace c)
    (hbehind : ∀ c ∈ behind, isWhiteSpace c) (htext : ∀ c ∈ text, isWhiteSpace c = false) (hne : text ≠ []) :
    trim (String.ofList (before ++ (text ++ behind))) = String.ofList text := by
  have hreverse : (behind.reverse ++ (text.reverse ++ [])).dropWhile isWhiteSpace = text.reverse ++ [] :=
    dropWhile_append_of_not (by simpa using hbehind) (by simpa using htext) (by simpa using hne) []
  rw [List.append_nil] at hreverse
  rw [trim, String.toList_ofList, dropWhile_append_of_not hbefore htext hne, List.reverse_append, hreverse,
    List.reverse_reverse]

theorem isWhiteSpace_of_isDigit {c : Char} (h : c.isDigit) : isWhiteSpace c = false := by
  obtain ⟨hlow, hhigh⟩ : 48 ≤ c.toNat ∧ c.toNat ≤ 57 := Char.isDigit_iff_toNat.mp h
  simp only [isWhiteSpace, Bool.or_eq_false_iff, Bool.and_eq_false_iff, decide_eq_false_iff_not, beq_eq_false_iff_ne]
  omega

theorem ne_of_isDigit {c d : Char} (h : c.isDigit) (hd : d.isDigit = false) : c ≠ d := by
  rintro rfl
  rw [h] at hd
  cases hd

namespace Decimal

theorem digitValue_toUInt8 {c : Char} (h : c.isDigit) : Octet.digitValue c.toUInt8 = c.toNat - '0'.toNat := by
  have hhigh : c.toNat ≤ 57 := (Char.isDigit_iff_toNat.mp h).2
  have hoctet : c.toUInt8.toNat = c.toNat := Nat.mod_eq_of_lt (Nat.lt_of_le_of_lt hhigh (by decide))
  rw [Octet.digitValue, hoctet]
  rfl

theorem le_ofDigitChars (cs : List Char) (n : Nat) : n ≤ Nat.ofDigitChars 10 cs n := by
  rw [Nat.ofDigitChars_eq_ofDigitChars_zero]
  have := Nat.le_mul_of_pos_left n (Nat.pow_pos (n := cs.length) (show 0 < 10 by decide))
  omega

theorem ofDigitChars_lt {cs : List Char} (h : ∀ c ∈ cs, c.isDigit) : Nat.ofDigitChars 10 cs 0 < 10 ^ cs.length := by
  induction cs with
  | nil => decide
  | cons c cs ih =>
    have hc := h c List.mem_cons_self
    have hlt := ih fun d hd => h d (List.mem_cons_of_mem c hd)
    have hdigit : c.toNat - '0'.toNat ≤ 9 := Nat.sub_le_sub_right (Char.isDigit_iff_toNat.mp hc).2 _
    have hmul := Nat.mul_le_mul_left (10 ^ cs.length) hdigit
    rw [Nat.ofDigitChars_cons, Nat.ofDigitChars_eq_ofDigitChars_zero, List.length_cons, pow_succ, Nat.mul_zero,
      Nat.zero_add]
    omega

theorem append_of_isDigit {v : UInt64} {c : Char} (hc : c.isDigit)
    (hlt : 10 * v.toNat + (c.toNat - '0'.toNat) < UInt64.size) :
    ∃ v', append v c = .ok v' ∧ v'.toNat = 10 * v.toNat + (c.toNat - '0'.toNat) := by
  refine ⟨UInt64.ofNat (10 * v.toNat + (c.toNat - '0'.toNat)), ?_, UInt64.toNat_ofNat_of_lt' hlt⟩
  rw [append, if_pos hc, push?, digitValue_toUInt8 hc, Nat.mul_comm _ 10, if_pos hlt]

theorem exists_foldlM_append_eq {cs : List Char} (h : ∀ c ∈ cs, c.isDigit) {v : UInt64}
    (hlt : Nat.ofDigitChars 10 cs v.toNat < UInt64.size) :
    ∃ v', cs.foldlM append v = .ok v' ∧ v'.toNat = Nat.ofDigitChars 10 cs v.toNat := by
  induction cs generalizing v with
  | nil => exact ⟨v, rfl, rfl⟩
  | cons c cs ih =>
    rw [Nat.ofDigitChars_cons] at hlt ⊢
    have hstep := Nat.lt_of_le_of_lt (le_ofDigitChars cs _) hlt
    obtain ⟨v', happend, hv'⟩ := append_of_isDigit (h c List.mem_cons_self) hstep
    rw [List.foldlM_cons, happend]
    rw [← hv'] at hlt ⊢
    exact ih (fun d hd => h d (List.mem_cons_of_mem c hd)) hlt

theorem exists_parse_ofList_eq {cs : List Char} (h : ∀ c ∈ cs, c.isDigit) (hne : cs ≠ [])
    (hlt : Nat.ofDigitChars 10 cs 0 < UInt64.size) :
    ∃ v, parse (String.ofList cs) = .ok v ∧ v.toNat = Nat.ofDigitChars 10 cs 0 := by
  obtain ⟨v, hfold, hv⟩ := exists_foldlM_append_eq h hlt (v := 0)
  refine ⟨v, ?_, hv⟩
  obtain ⟨c, cs', rfl⟩ := List.exists_cons_of_ne_nil hne
  have hplus : c ≠ '+' := ne_of_isDigit (h c List.mem_cons_self) rfl
  rw [parse, String.toList_ofList]
  split
  . contradiction
  . next heq => exact absurd (List.cons.inj heq).1 hplus
  . next heq => exact absurd (List.cons.inj heq).1 hplus
  . exact hfold

end Decimal

namespace Timestamp

theorem fractionMicros_eq {fraction : List Char} (h : ∀ c ∈ fraction, c.isDigit) :
    fractionMicros fraction = Nat.ofDigitChars 10 fraction 0 * 10 ^ 6 / 10 ^ fraction.length := by
  let filled := fraction ++ List.replicate 6 '0'
  have htake : fractionMicros fraction = Nat.ofDigitChars 10 (filled.take 6) 0 := by
    rw [fractionMicros, Nat.ofDigitChars_eq_foldl]
    simp only [Nat.mul_comm 10]
    rfl
  have hfilled : Nat.ofDigitChars 10 filled 0 = Nat.ofDigitChars 10 fraction 0 * 10 ^ 6 := by
    rw [Nat.ofDigitChars_append, Nat.ofDigitChars_replicate_zero, Nat.mul_comm]
  have hlength : (filled.drop 6).length = fraction.length := by
    simp [filled]
  have hdigits : ∀ c ∈ filled.drop 6, c.isDigit := by
    intro c hc
    rcases List.mem_append.mp (List.mem_of_mem_drop hc) with hc | hc
    . exact h c hc
    . rw [List.eq_of_mem_replicate hc]
      rfl
  have hlt := Decimal.ofDigitChars_lt hdigits
  have hsplit := Nat.ofDigitChars_append 0 (b := 10) (l := filled.take 6) (m := filled.drop 6)
  rw [hlength] at hlt
  rw [List.take_append_drop, Nat.ofDigitChars_eq_ofDigitChars_zero (l := filled.drop 6), hlength, ← htake] at hsplit
  rw [← hfilled, hsplit, Nat.mul_add_div (Nat.pow_pos (by decide)), Nat.div_eq_of_lt hlt, Nat.add_zero]

/--
A number of seconds in plain digits: whole seconds of at most 64 bits, and any digits of a fraction.
-/
structure Plain where
  whole : List Char
  fraction : List Char
  whole_ne_nil : whole ≠ []
  whole_isDigit : ∀ c ∈ whole, c.isDigit
  fraction_isDigit : ∀ c ∈ fraction, c.isDigit
  whole_lt : Nat.ofDigitChars 10 whole 0 < UInt64.size

namespace Plain

def fractional (p : Plain) : ℚ :=
  Nat.ofDigitChars 10 p.fraction 0 / 10 ^ p.fraction.length

def number (p : Plain) : ℚ :=
  Nat.ofDigitChars 10 p.whole 0 + p.fractional

/--
The texts of a number: there may be white space around it, and a number without a fraction may go without the point.
-/
inductive Spells (p : Plain) : String → Prop where
  | mk {before text behind : List Char} : (∀ c ∈ before, isWhiteSpace c) → (∀ c ∈ behind, isWhiteSpace c) →
    (text = p.whole ++ '.' :: p.fraction ∨ p.fraction = [] ∧ text = p.whole) →
    Spells p (String.ofList (before ++ (text ++ behind)))

variable {p : Plain}

theorem floor_fractional (p : Plain) : ⌊p.fractional * 10 ^ 6⌋₊ = fractionMicros p.fraction := by
  rw [fractionMicros_eq p.fraction_isDigit, ← Nat.floor_div_eq_div (K := ℚ), fractional, div_mul_eq_mul_div]
  simp only [Nat.cast_mul, Nat.cast_pow, Nat.cast_ofNat]

theorem fractionMicros_lt (p : Plain) : fractionMicros p.fraction < 1000000 := by
  rw [fractionMicros_eq p.fraction_isDigit, Nat.div_lt_iff_lt_mul (Nat.pow_pos (by decide)), Nat.mul_comm]
  exact Nat.mul_lt_mul_of_pos_left (Decimal.ofDigitChars_lt p.fraction_isDigit) (by decide)

theorem parts_of_text {text : List Char} (h : text = p.whole ++ '.' :: p.fraction ∨ p.fraction = [] ∧ text = p.whole) :
    text.takeWhile (· != '.') = p.whole ∧ (text.dropWhile (· != '.')).drop 1 = p.fraction ∧
      (∀ c ∈ text, isWhiteSpace c = false) ∧ text ≠ [] := by
  have hwhole : ∀ c ∈ p.whole, (c != '.') = true := by
    intro c hc
    simpa using ne_of_isDigit (p.whole_isDigit c hc) rfl
  rcases h with rfl | ⟨hfraction, rfl⟩
  . refine ⟨?_, ?_, ?_, by simp⟩
    . rw [List.takeWhile_append_of_pos hwhole, List.takeWhile_cons_of_neg (by simp), List.append_nil]
    . rw [List.dropWhile_append_of_pos hwhole, List.dropWhile_cons_of_neg (by simp), List.drop_one, List.tail_cons]
    . intro c hc
      rcases List.mem_append.mp hc with hc | hc
      . exact isWhiteSpace_of_isDigit (p.whole_isDigit c hc)
      . rcases List.mem_cons.mp hc with rfl | hc
        . rfl
        . exact isWhiteSpace_of_isDigit (p.fraction_isDigit c hc)
  . refine ⟨?_, ?_, fun c hc => isWhiteSpace_of_isDigit (p.whole_isDigit c hc), p.whole_ne_nil⟩
    . rw [← List.append_nil p.whole, List.takeWhile_append_of_pos hwhole, List.takeWhile_nil]
    . rw [← List.append_nil p.whole, List.dropWhile_append_of_pos hwhole, List.dropWhile_nil, hfraction, List.drop_nil]

theorem Spells.exists_parse_eq {s : String} (h : p.Spells s) :
    ∃ t, parse s = .ok t ∧ t.sec.toNat = Nat.ofDigitChars 10 p.whole 0 ∧ t.usec.val = fractionMicros p.fraction := by
  obtain ⟨hbefore, hbehind, htext⟩ := h
  obtain ⟨hwhole, hfraction, hshown, hne⟩ := parts_of_text htext
  obtain ⟨sec, hsec, hvalue⟩ := Decimal.exists_parse_ofList_eq p.whole_isDigit p.whole_ne_nil p.whole_lt
  let t : Timestamp := { sec, usec := ⟨fractionMicros p.fraction, p.fractionMicros_lt⟩ }
  refine ⟨t, ?_, hvalue, rfl⟩
  rw [parse, trim_ofList hbefore hbehind hshown hne, String.toList_ofList, ← ofParts_usec t]
  simp only [hwhole, hfraction, hsec]
  exact if_pos (List.all_eq_true.mpr p.fraction_isDigit)

theorem Spells.exists_elapsed_eq {s : String} (h : p.Spells s) :
    ∃ t, parse s = .ok t ∧ t.elapsed = ⌊p.number * 10 ^ 6⌋₊ := by
  obtain ⟨t, hparse, hsec, husec⟩ := h.exists_parse_eq
  refine ⟨t, hparse, ?_⟩
  have hfractional : 0 ≤ p.fractional * 10 ^ 6 := by
    rw [fractional]
    positivity
  have hnumber : p.number * 10 ^ 6 = p.fractional * 10 ^ 6 + ((Nat.ofDigitChars 10 p.whole 0 * 10 ^ 6 : ℕ) : ℚ) := by
    rw [number]
    push_cast
    ring
  rw [hnumber, Nat.floor_add_natCast hfractional, floor_fractional, elapsed, hsec, husec]
  omega

end Plain

def plain (t : Timestamp) : Plain where
  whole := Nat.toDigits 10 t.sec.toNat
  fraction := List.replicate (6 - (Nat.toDigits 10 t.usec.val).length) '0' ++ Nat.toDigits 10 t.usec.val
  whole_ne_nil := Nat.toDigits_ne_nil
  whole_isDigit _ hc := Nat.isDigit_of_mem_toDigits (by decide) (by decide) hc
  fraction_isDigit c hc := by
    rcases List.mem_append.mp hc with hc | hc
    . rw [List.eq_of_mem_replicate hc]
      rfl
    . exact Nat.isDigit_of_mem_toDigits (by decide) (by decide) hc
  whole_lt := by
    rw [Nat.ofDigitChars_ten_toDigits]
    exact t.sec.toNat_lt_size

theorem length_fraction_plain (t : Timestamp) : t.plain.fraction.length = 6 := by
  have hlength := (Nat.length_toDigits_le_iff (b := 10) (k := 6) (by decide) (by decide)).mpr t.usec.isLt
  simp only [plain, List.length_append, List.length_replicate]
  omega

theorem ofDigitChars_fraction_plain (t : Timestamp) : Nat.ofDigitChars 10 t.plain.fraction 0 = t.usec.val := by
  rw [plain, Nat.ofDigitChars_append, Nat.ofDigitChars_replicate_zero, Nat.mul_zero, Nat.ofDigitChars_ten_toDigits]

theorem text_eq (t : Timestamp) : t.text = String.ofList (t.plain.whole ++ '.' :: t.plain.fraction) := by
  have hoctets : octets 0 t = Utf8.encode (t.plain.whole ++ '.' :: t.plain.fraction) := by
    rw [octets, Decimal.padLeft, Nat.zero_sub, List.replicate_zero, List.nil_append, Utf8.encode_append,
      Utf8.encode_cons, Decimal.digits_eq_encode, Decimal.zeroed_eq_encode]
    rfl
  rw [text, hoctets, Utf8.lossy_encode]

theorem parse_of_spells_plain {t : Timestamp} {s : String} (h : t.plain.Spells s) : parse s = .ok t := by
  obtain ⟨t', hparse, hsec, husec⟩ := h.exists_parse_eq
  have hsec' : t'.elapsed = t.elapsed := by
    rw [fractionMicros_eq t.plain.fraction_isDigit, length_fraction_plain, ofDigitChars_fraction_plain,
      Nat.mul_div_cancel _ (by decide)] at husec
    rw [elapsed, hsec, husec, elapsed, plain, Nat.ofDigitChars_ten_toDigits]
  rw [hparse, eq_of_elapsed_eq hsec']

theorem parse_text (t : Timestamp) : parse t.text = .ok t := by
  apply parse_of_spells_plain
  rw [text_eq, ← List.append_nil (t.plain.whole ++ _), ← List.nil_append (_ ++ [])]
  exact .mk (by simp) (by simp) (.inl rfl)

end Timestamp
end KernelLog
