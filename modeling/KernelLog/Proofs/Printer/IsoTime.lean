import KernelLog.Printer.Line
import KernelLog.Proofs.Calendar
import KernelLog.Proofs.Number.Decimal
import KernelLog.Proofs.Timestamp.Micros

/-!
This module contains the reading of printed dates and times. Main statement: a time in the form of the international
standard is read back as the second in which the kernel was started and the time of the record, to the microsecond.
-/

namespace KernelLog

def Octets.behind? (b : UInt8) : Octets → Option Octets
  | [] => none
  | c :: rest => if c = b then some rest else none

@[simp]
theorem Octets.behind?_cons (b : UInt8) (rest : Octets) : behind? b (b :: rest) = some rest :=
  if_pos rfl

namespace Decimal

def run? (fits : Nat → Bool) (s : Octets) : Option (Nat × Octets) :=
  let ds := s.takeWhile Octet.isDigit
  if fits ds.length then some (value ds, s.dropWhile Octet.isDigit) else none

def sign? : Octets → Option (Int × Octets)
  | Octet.plus :: rest => some (1, rest)
  | Octet.minus :: rest => some (-1, rest)
  | _ => none

@[simp]
theorem sign?_plus (rest : Octets) : sign? (Octet.plus :: rest) = some (1, rest) :=
  rfl

@[simp]
theorem sign?_minus (rest : Octets) : sign? (Octet.minus :: rest) = some (-1, rest) :=
  rfl

section

variable {n width : Nat} {b : UInt8} (hb : Octet.isDigit b = false) (rest : Octets)
include hb

theorem run?_zeroed (fits : Nat → Bool) :
    run? fits (zeroed width n ++ b :: rest) =
      if fits (zeroed width n).length then some (n, b :: rest) else none := by
  have hrest : ∀ c ∈ (b :: rest).head?, Octet.isDigit c = false := by
    rintro c ⟨⟩
    exact hb
  obtain ⟨htake, hdrop⟩ := takeWhile_append_of_head? (isDigit_of_mem_zeroed width n) hrest
  rw [run?, htake, hdrop, value_zeroed]

theorem run?_le_zeroed : run? (width ≤ ·) (zeroed width n ++ b :: rest) = some (n, b :: rest) := by
  rw [run?_zeroed hb rest, if_pos (decide_eq_true (le_length_zeroed width n))]

theorem run?_eq_zeroed (hpos : 0 < width) (h : n < 10 ^ width) :
    run? (· = width) (zeroed width n ++ b :: rest) = some (n, b :: rest) := by
  rw [run?_zeroed hb rest, if_pos (decide_eq_true (length_zeroed hpos h))]

end

theorem sign?_zeroed (width n : Nat) (rest : Octets) : sign? (zeroed width n ++ rest) = none := by
  obtain ⟨d, ds, heq⟩ := List.exists_cons_of_ne_nil (zeroed_ne_nil width n)
  have hd : Octet.isDigit d := isDigit_of_mem_zeroed width n d (heq ▸ List.mem_cons_self)
  rw [heq]
  unfold sign?
  split
  . next hcons =>
    rw [(List.cons.inj hcons).1] at hd
    contradiction
  . next hcons =>
    rw [(List.cons.inj hcons).1] at hd
    contradiction
  . rfl

end Decimal

namespace Date

def readYear? (s : Octets) : Option (Int × Octets) :=
  match Decimal.sign? s with
  | some (sign, s) => (Decimal.run? (4 ≤ ·) s).map fun (n, s) => (sign * n, s)
  | none => (Decimal.run? (· = 4) s).map fun (n, s) => ((n : Int), s)

def readIso? (s : Octets) : Option (Date × Octets) := do
  let (year, s) ← readYear? s
  let s ← Octets.behind? Octet.minus s
  let (month, s) ← Decimal.run? (· = 2) s
  let s ← Octets.behind? Octet.minus s
  let (day, s) ← Decimal.run? (· = 2) s
  let date : Date := { year, month, day }
  if date.Valid then some (date, s) else none

variable {d : Date}

theorem readYear?_yearText (d : Date) {b : UInt8} (hb : Octet.isDigit b = false) (rest : Octets) :
    readYear? (d.yearText ++ b :: rest) = some (d.year, b :: rest) := by
  have hrun : Decimal.run? (4 ≤ ·) (Decimal.zeroed 4 d.year.natAbs ++ b :: rest) = some (d.year.natAbs, b :: rest) :=
    Decimal.run?_le_zeroed hb rest
  by_cases hneg : d.year < 0
  . have htext : d.yearText = Octet.minus :: Decimal.zeroed 4 d.year.natAbs := if_pos hneg
    have hyear : -1 * (d.year.natAbs : Int) = d.year := by omega
    simp only [htext, List.cons_append, readYear?, Decimal.sign?_minus, hrun, Option.map_some, hyear]
  . have hyear : (d.year.natAbs : Int) = d.year := by omega
    by_cases hlarge : 9999 < d.year
    . have htext : d.yearText = Octet.plus :: Decimal.zeroed 4 d.year.natAbs := by
        rw [yearText, if_neg hneg, if_pos hlarge]
      simp only [htext, List.cons_append, readYear?, Decimal.sign?_plus, hrun, Option.map_some, Int.one_mul, hyear]
    . have htext : d.yearText = Decimal.zeroed 4 d.year.natAbs := by
        rw [yearText, if_neg hneg, if_neg hlarge]
      have hrun : Decimal.run? (· = 4) (Decimal.zeroed 4 d.year.natAbs ++ b :: rest) = some (d.year.natAbs, b :: rest) :=
        Decimal.run?_eq_zeroed hb rest (by decide) (by omega)
      simp only [htext, readYear?, Decimal.sign?_zeroed, hrun, Option.map_some, hyear]

theorem readIso?_isoText (h : d.Valid) {b : UInt8} (hb : Octet.isDigit b = false) (rest : Octets) :
    readIso? (d.isoText ++ b :: rest) = some (d, b :: rest) := by
  have hyear := readYear?_yearText d (b := Octet.minus) rfl
  have hmonth : d.month < 10 ^ 2 := Nat.lt_of_le_of_lt h.month_le (by decide)
  have hday : d.day < 10 ^ 2 := Nat.lt_of_le_of_lt (Nat.le_trans h.day_le (monthLength_le _ _)) (by decide)
  have hmonthRun := fun rest => Decimal.run?_eq_zeroed (b := Octet.minus) rfl rest (by decide) hmonth
  have hdayRun := Decimal.run?_eq_zeroed hb rest (by decide) hday
  unfold readIso? isoText
  simp only [List.append_assoc, List.cons_append, hyear, Option.bind_eq_bind, Option.bind_some, Octets.behind?_cons,
    hmonthRun, hdayRun, h, ↓reduceIte]

end Date

namespace DateTime

def readIso? (s : Octets) : Option (DateTime × Octets) := do
  let (date, s) ← Date.readIso? s
  let s ← Octets.behind? Octet.upperT s
  let (hour, s) ← Decimal.run? (· = 2) s
  let s ← Octets.behind? Octet.colon s
  let (minute, s) ← Decimal.run? (· = 2) s
  let s ← Octets.behind? Octet.colon s
  let (second, s) ← Decimal.run? (· = 2) s
  let t : DateTime := { date, hour, minute, second }
  if t.Valid then some (t, s) else none

theorem readIso?_isoText {t : DateTime} (h : t.Valid) {b : UInt8} (hb : Octet.isDigit b = false) (rest : Octets) :
    readIso? (t.isoText ++ b :: rest) = some (t, b :: rest) := by
  have hdate := Date.readIso?_isoText h.date (b := Octet.upperT) rfl
  have hhour : t.hour < 10 ^ 2 := Nat.lt_trans h.hour_lt (by decide)
  have hminute : t.minute < 10 ^ 2 := Nat.lt_trans h.minute_lt (by decide)
  have hsecond : t.second < 10 ^ 2 := Nat.lt_trans h.second_lt (by decide)
  have hhourRun := fun rest => Decimal.run?_eq_zeroed (b := Octet.colon) rfl rest (by decide) hhour
  have hminuteRun := fun rest => Decimal.run?_eq_zeroed (b := Octet.colon) rfl rest (by decide) hminute
  have hsecondRun := Decimal.run?_eq_zeroed hb rest (by decide) hsecond
  unfold readIso? isoText timeText clockText
  simp only [List.append_assoc, List.cons_append, hdate, Option.bind_eq_bind, Option.bind_some, Octets.behind?_cons,
    hhourRun, hminuteRun, hsecondRun, h, ↓reduceIte]

end DateTime

namespace Offset

def read? (s : Octets) : Option (Int × Octets) := do
  let (sign, s) ← Decimal.sign? s
  let (hours, s) ← Decimal.run? (2 ≤ ·) s
  let s ← Octets.behind? Octet.colon s
  let (minutes, s) ← Decimal.run? (· = 2) s
  if minutes < 60 then some (sign * (hours * 60 + minutes) * 60, s) else none

theorem read?_text {offset : Int} (h : 60 ∣ offset) {b : UInt8} (hb : Octet.isDigit b = false) (rest : Octets) :
    read? (text offset ++ b :: rest) = some (offset, b :: rest) := by
  obtain ⟨minutes, hminutes⟩ : ∃ minutes, minutes = (offset.natAbs + 30) / 60 := ⟨_, rfl⟩
  have hexact : (minutes : Int) * 60 = offset.natAbs := by omega
  have hlt : minutes % 60 < 60 := Nat.mod_lt minutes (by decide)
  have hminute : minutes % 60 < 10 ^ 2 := Nat.lt_trans hlt (by decide)
  have hsign (s : Octets) : Decimal.sign? ((if offset < 0 then Octet.minus else Octet.plus) :: s) =
      some (if offset < 0 then -1 else 1, s) := by
    split
    . rfl
    . rfl
  have hhourRun (s : Octets) : Decimal.run? (2 ≤ ·) (Decimal.zeroed 2 (minutes / 60) ++ Octet.colon :: s) =
      some (minutes / 60, Octet.colon :: s) := Decimal.run?_le_zeroed rfl s
  have hminuteRun := Decimal.run?_eq_zeroed hb rest (by decide) hminute
  have hvalue : (if offset < 0 then -1 else 1) * ((minutes / 60 : Nat) * 60 + (minutes % 60 : Nat)) * 60 = offset := by
    split
    . omega
    . omega
  unfold read? text
  dsimp only
  rw [← hminutes]
  simp only [List.append_assoc, List.cons_append, hsign, Option.bind_eq_bind, Option.bind_some, Octets.behind?_cons,
    hhourRun, hminuteRun, hlt, ↓reduceIte, hvalue]

end Offset

structure IsoTime where
  civil : DateTime
  usec : Nat
  offset : Int
  deriving Repr, DecidableEq

namespace IsoTime

def text (t : IsoTime) : Octets :=
  t.civil.isoText ++ Octet.comma :: Decimal.zeroed 6 t.usec ++ Offset.text t.offset ++ [Octet.space]

def read? (s : Octets) : Option (IsoTime × Octets) := do
  let (civil, s) ← DateTime.readIso? s
  let s ← Octets.behind? Octet.comma s
  let (usec, s) ← Decimal.run? (· = 6) s
  let (offset, s) ← Offset.read? s
  let s ← Octets.behind? Octet.space s
  return ({ civil, usec, offset }, s)

def micros (t : IsoTime) : Int :=
  (t.civil.seconds - t.offset) * 1000000 + t.usec

theorem read?_text {t : IsoTime} (hcivil : t.civil.Valid) (husec : t.usec < 10 ^ 6) (hoffset : 60 ∣ t.offset)
    (rest : Octets) : read? (t.text ++ rest) = some (t, rest) := by
  have hcivilRun := DateTime.readIso?_isoText hcivil (b := Octet.comma) rfl
  obtain ⟨sign, s, hsign, htext⟩ : ∃ sign s, Octet.isDigit sign = false ∧ Offset.text t.offset = sign :: s :=
    ⟨_, _, by split <;> rfl, rfl⟩
  have husecRun := fun rest => Decimal.run?_eq_zeroed hsign rest (by decide) husec
  have hoffsetRun := Offset.read?_text hoffset (b := Octet.space) rfl
  rw [htext] at hoffsetRun
  unfold read? text
  rw [htext]
  simp only [List.append_assoc, List.cons_append, List.nil_append] at hoffsetRun ⊢
  simp only [hcivilRun, husecRun, hoffsetRun, Option.bind_eq_bind, Option.bind_some, Octets.behind?_cons, pure]

end IsoTime

def Instant.nanoseconds (t : Instant) : Int :=
  t.seconds * 1000000000 + t.nanos

namespace Layout

def iso (boot : Instant) (offset : Int) : Layout :=
  { mode := .decoded, format := .iso, boot := some boot, offset }

variable {boot : Instant} {offset : Int} {t : Timestamp}

theorem dateTime?_iso (h : ((iso boot offset).dateTime? t).isSome) :
    (iso boot offset).dateTime? t = some (DateTime.ofSeconds (boot.seconds + t.sec.toNat + offset)) := by
  change ((boot.after? t.sec).bind fun instant => some (instant.toLocal offset)).isSome at h
  change ((boot.after? t.sec).bind fun instant => some (instant.toLocal offset)) = _
  unfold Instant.after? at h ⊢
  dsimp only at h ⊢
  split at h
  . next hwithin =>
    rw [if_pos hwithin]
    rfl
  . cases h

theorem timePart_iso (last : Option Timestamp) (h : ((iso boot offset).dateTime? t).isSome) :
    (iso boot offset).timePart last t =
      IsoTime.text { civil := DateTime.ofSeconds (boot.seconds + t.sec.toNat + offset), usec := t.usec.val, offset } := by
  unfold timePart
  rw [dateTime?_iso h]
  rfl

theorem exists_read?_timePart (hnanos : boot.nanos < 1000000000) (hoffset : 60 ∣ offset) (last : Option Timestamp)
    (h : ((iso boot offset).dateTime? t).isSome) (rest : Octets) :
    ∃ time, IsoTime.read? ((iso boot offset).timePart last t ++ rest) = some (time, rest) ∧ time.offset = offset ∧
      time.micros = boot.nanoseconds / 1000000000 * 1000000 + t.elapsed := by
  have hboot : boot.nanoseconds / 1000000000 = boot.seconds := by
    rw [Instant.nanoseconds]
    omega
  rw [timePart_iso last h]
  refine ⟨_, IsoTime.read?_text (DateTime.valid_ofSeconds _) t.usec.isLt hoffset rest, rfl, ?_⟩
  rw [hboot, IsoTime.micros, DateTime.seconds_ofSeconds, Timestamp.elapsed]
  dsimp only
  omega

/--
A printed time denotes the second in which the kernel was started and the time of the record since then, whatever the
offset. Two printed times are therefore in the order of the records and as far from each other.
-/
theorem iso_exact (boot : Instant) (offset : Int) (hnanos : boot.nanos < 1000000000) (hoffset : 60 ∣ offset) :
    (∀ (last : Option Timestamp) (t : Timestamp) (rest : Octets), ((iso boot offset).dateTime? t).isSome →
      ∃ time, IsoTime.read? ((iso boot offset).timePart last t ++ rest) = some (time, rest) ∧ time.offset = offset ∧
        time.micros = boot.nanoseconds / 1000000000 * 1000000 + t.elapsed) ∧
    ∀ (last last' : Option Timestamp) (r r' : Record), ((iso boot offset).dateTime? r.time).isSome →
      ((iso boot offset).dateTime? r'.time).isSome →
      ∃ time time', IsoTime.read? ((iso boot offset).line last r).time = some (time, []) ∧
        IsoTime.read? ((iso boot offset).line last' r').time = some (time', []) ∧
        time'.micros - time.micros = r'.time.elapsed - r.time.elapsed ∧
        (time.micros < time'.micros ↔ r.time < r'.time) := by
  constructor
  . intro last t rest h
    exact exists_read?_timePart hnanos hoffset last h rest
  . intro last last' r r' h h'
    obtain ⟨time, hread, -, hmicros⟩ := exists_read?_timePart hnanos hoffset last h []
    obtain ⟨time', hread', -, hmicros'⟩ := exists_read?_timePart hnanos hoffset last' h' []
    rw [List.append_nil] at hread hread'
    refine ⟨time, time', hread, hread', ?_, ?_⟩
    . omega
    . rw [← Timestamp.elapsed_lt_elapsed_iff]
      omega

theorem iso_exact_leap_day :
    let layout := iso { seconds := -62288286305, nanos := 999999999 } 20700
    let r := { Record.ofMessage [] with timestamp := some { sec := 4, usec := ⟨999999, by decide⟩ } }
    let r' := { Record.ofMessage [] with timestamp := some { sec := 5, usec := ⟨0, by decide⟩ } }
    let text := Octets.ofString "-0004-02-29T23:59:59,999999+05:45 "
    let text' := Octets.ofString "-0004-03-01T00:00:00,000000+05:45 "
    (layout.line none r).time = text ∧ (layout.line (some r.time) r').time = text' ∧
      ∃ time time', IsoTime.read? text = some (time, []) ∧ IsoTime.read? text' = some (time', []) ∧
        time'.micros - time.micros = 1 ∧ time.micros < time'.micros := by
  intro layout r r' text text'
  have htext : (layout.line none r).time = text := by decide +kernel
  have htext' : (layout.line (some r.time) r').time = text' := by decide +kernel
  obtain ⟨time, time', hread, hread', hmicros, hlt⟩ := (iso_exact { seconds := -62288286305, nanos := 999999999 } 20700
    (by decide) (by decide)).2 none (some r.time) r r' (by decide +kernel) (by decide +kernel)
  rw [htext] at hread
  rw [htext'] at hread'
  have helapsed : (r'.time.elapsed : Int) - r.time.elapsed = 1 := by decide +kernel
  exact ⟨htext, htext', time, time', hread, hread', hmicros.trans helapsed, hlt.mpr (by decide)⟩

end Layout
end KernelLog
