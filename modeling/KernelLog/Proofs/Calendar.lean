import KernelLog.Calendar

/-!
This module contains the days of the proleptic Gregorian calendar, counted by the lengths of its years and months. Main
statement: the date and time of day of an instant exist, and are as many seconds from the beginning of 1970-01-01.
-/

namespace KernelLog

namespace Date

def IsLeap (year : Int) : Prop :=
  year % 4 = 0 ∧ (year % 100 = 0 → year % 400 = 0)

instance (year : Int) : Decidable (IsLeap year) :=
  inferInstanceAs (Decidable (_ ∧ (_ → _)))

def leapDays (year : Int) : Nat :=
  if IsLeap year then 1 else 0

def yearLength (year : Int) : Nat :=
  365 + leapDays year

def monthLength (year : Int) : (month : Nat) → Nat
  | 2 => 28 + leapDays year
  | 4 | 6 | 9 | 11 => 30
  | _ => 31

theorem monthLength_le (year : Int) (month : Nat) : monthLength year month ≤ 31 := by
  unfold monthLength leapDays
  split
  . split <;> decide
  all_goals decide

structure Valid (d : Date) : Prop where
  month_pos : 1 ≤ d.month
  month_le : d.month ≤ 12
  day_pos : 1 ≤ d.day
  day_le : d.day ≤ monthLength d.year d.month

instance (d : Date) : Decidable d.Valid :=
  decidable_of_iff (1 ≤ d.month ∧ d.month ≤ 12 ∧ 1 ≤ d.day ∧ d.day ≤ monthLength d.year d.month)
    ⟨fun h => ⟨h.1, h.2.1, h.2.2.1, h.2.2.2⟩, fun h => ⟨h.1, h.2, h.3, h.4⟩⟩

def daysFrom1970 : Nat → Nat
  | 0 => 0
  | n + 1 => daysFrom1970 n + yearLength (1970 + n)

def daysTo1970 : Nat → Nat
  | 0 => 0
  | n + 1 => daysTo1970 n + yearLength (1969 - n)

def daysOfMonths (year : Int) : Nat → Nat
  | 0 => 0
  | n + 1 => daysOfMonths year n + monthLength year (n + 1)

def days (d : Date) : Int :=
  daysFrom1970 (d.year - 1970).toNat - daysTo1970 (1970 - d.year).toNat +
    daysOfMonths d.year (d.month - 1) + (d.day - 1)

def daysToMarch (year : Int) : Int :=
  year / 400 * 146097 + (year % 400 * 365 + year % 400 / 4 - year % 400 / 100) - 719468

theorem daysToMarch_eq (year : Int) : daysToMarch year = daysToMarch (year - 1) + 365 + leapDays year := by
  unfold daysToMarch leapDays
  by_cases h : IsLeap year
  . rw [if_pos h]
    unfold IsLeap at h
    omega
  . rw [if_neg h]
    unfold IsLeap at h
    omega

theorem dayNumber_eq (d : Date) :
    d.dayNumber = daysToMarch (if d.month ≤ 2 then d.year - 1 else d.year) +
      ((153 * ((d.month + 9) % 12) + 2) / 5 : Nat) + d.day - 1 := by
  unfold dayNumber daysToMarch
  dsimp only
  omega

theorem daysToMarch_eq_days (year : Int) :
    daysToMarch (year - 1) + 306 = daysFrom1970 (year - 1970).toNat - daysTo1970 (1970 - year).toNat := by
  have hfrom (n : Nat) : daysToMarch (1970 + n - 1) + 306 = daysFrom1970 n := by
    induction n with
    | zero => decide
    | succ n ih =>
      have hstep := daysToMarch_eq (1970 + n)
      rw [show (1970 + (n + 1 : Nat) - 1 : Int) = 1970 + n by omega, daysFrom1970, yearLength]
      omega
  have hto (n : Nat) : daysToMarch (1970 - n - 1) + 306 = -daysTo1970 n := by
    induction n with
    | zero => decide
    | succ n ih =>
      have hstep := daysToMarch_eq (1969 - n)
      rw [show (1970 - n - 1 : Int) = 1969 - n by omega] at ih
      rw [show (1970 - (n + 1 : Nat) - 1 : Int) = 1969 - n - 1 by omega, daysTo1970, yearLength]
      omega
  by_cases h : 1970 ≤ year
  . have hyear := hfrom (year - 1970).toNat
    rw [show (1970 + (year - 1970).toNat : Int) = year by omega] at hyear
    rw [hyear, show (1970 - year).toNat = 0 by omega, daysTo1970]
    omega
  . have hyear := hto (1970 - year).toNat
    rw [show (1970 - (1970 - year).toNat : Int) = year by omega] at hyear
    rw [hyear, show (year - 1970).toNat = 0 by omega, daysFrom1970]
    omega

theorem daysOfMonths_eq (year : Int) {month : Nat} (hpos : 3 ≤ month) (hle : month ≤ 12) :
    daysOfMonths year (month - 1) = 59 + leapDays year + (153 * (month - 3) + 2) / 5 := by
  have hmonth : month = 3 ∨ month = 4 ∨ month = 5 ∨ month = 6 ∨ month = 7 ∨ month = 8 ∨ month = 9 ∨ month = 10 ∨
      month = 11 ∨ month = 12 := by omega
  rcases hmonth with rfl | rfl | rfl | rfl | rfl | rfl | rfl | rfl | rfl | rfl
  all_goals
    simp only [daysOfMonths, monthLength]
    omega

theorem dayNumber_eq_days {d : Date} (hpos : 1 ≤ d.month) (hle : d.month ≤ 12) : d.dayNumber = d.days := by
  obtain ⟨year, month, day⟩ := d
  have hyear := daysToMarch_eq_days year
  rw [dayNumber_eq, days]
  dsimp only at *
  by_cases h : month ≤ 2
  . have hmonths : daysOfMonths year (month - 1) = 31 * (month - 1) := by
      obtain rfl | rfl : month = 1 ∨ month = 2 := by omega
      . rfl
      . rfl
    rw [if_pos h]
    omega
  . have hmarch := daysToMarch_eq year
    have hmonths := daysOfMonths_eq year (Nat.lt_of_not_le h) hle
    rw [if_neg h]
    omega

/--
A day of an era, which are 400 years from the first of March on: centuries of 36524 days, spans of four years with a leap
day each, years of 365 days, and a day. Leap days come last, so the last century and the last year of a span may have
one day more.
-/
theorem exists_dayOfEra_eq {n : Nat} (h : n < 146097) :
    ∃ centuries spans years day, n = 36524 * centuries + 1461 * spans + 365 * years + day ∧ centuries ≤ 3 ∧ spans ≤ 24 ∧
      years ≤ 3 ∧ (day ≤ 364 ∨ day = 365 ∧ years = 3 ∧ (spans ≤ 23 ∨ centuries = 3)) := by
  obtain ⟨centuries, hcenturies⟩ : ∃ centuries, centuries = min (n / 36524) 3 := ⟨_, rfl⟩
  obtain ⟨r, hr⟩ : ∃ r, r = n - 36524 * centuries := ⟨_, rfl⟩
  have hlast : r ≤ 36523 ∨ r = 36524 ∧ centuries = 3 := by omega
  refine ⟨centuries, r / 1461, min (r % 1461 / 365) 3, r % 1461 - 365 * min (r % 1461 / 365) 3, ?_, ?_, ?_, ?_, ?_⟩
  all_goals omega

theorem yearOfEra_eq {n centuries spans years day : Nat}
    (hn : n = 36524 * centuries + 1461 * spans + 365 * years + day) (hcenturies : centuries ≤ 3) (hspans : spans ≤ 24)
    (hyears : years ≤ 3) (hday : day ≤ 364 ∨ day = 365 ∧ years = 3 ∧ (spans ≤ 23 ∨ centuries = 3)) :
    (n - n / 1460 + n / 36524 - n / 146096) / 365 = 100 * centuries + 4 * spans + years := by
  obtain ⟨r, hr⟩ : ∃ r, r = 1461 * spans + 365 * years + day := ⟨_, rfl⟩
  have hlast : r ≤ 36523 ∨ r = 36524 ∧ centuries = 3 := by omega
  -- only the last day of the era counts as one of a fifth century
  have hfifth : n / 36524 = centuries + n / 146096 := by
    have hsum : n = 36524 * centuries + r := by omega
    clear hn hday hr
    rcases hlast with hlast | ⟨hlast, rfl⟩
    . omega
    . subst hlast hsum
      rfl
  -- a leap day counts as one of the next year
  obtain ⟨leap, hleap⟩ : ∃ leap, leap = (24 * centuries + spans + 365 * years + day) / 1460 := ⟨_, rfl⟩
  have hleaps : n / 1460 = 25 * centuries + spans + leap := by
    have hsum : n = 1460 * (25 * centuries + spans) + (24 * centuries + spans + 365 * years + day) := by omega
    rw [hsum, Nat.mul_add_div (by decide), hleap]
  have hle : leap ≤ day ∧ day < 365 + leap := by
    clear hn hr hlast hfifth hleaps
    omega
  have hsum : n = 25 * centuries + spans + (36500 * centuries + 1460 * spans - centuries + 365 * years + day) := by
    clear hday hr hlast hfifth hleap hleaps hle
    omega
  rw [hleaps, hfifth]
  generalize n / 146096 = fifth
  clear hn hday hr hlast hfifth hleap hleaps
  have hdays : n - (25 * centuries + spans + leap) + (centuries + fifth) - fifth =
      365 * (100 * centuries + 4 * spans + years) + (day - leap) := by omega
  rw [hdays]
  clear hsum hdays
  omega

def ofMarch (year : Int) (day : Nat) : Date :=
  let month := (5 * day + 2) / 153
  { year := if month < 10 then year else year + 1
    month := if month < 10 then month + 3 else month - 9
    day := day - (153 * month + 2) / 5 + 1 }

theorem daysToMarch_era (era : Int) {yearOfEra : Nat} (h : yearOfEra < 400) :
    daysToMarch (era * 400 + yearOfEra) =
      era * 146097 + (365 * yearOfEra + yearOfEra / 4 - yearOfEra / 100 : Nat) - 719468 := by
  have hdiv : (era * 400 + yearOfEra : Int) / 400 = era := by omega
  have hmod : (era * 400 + yearOfEra : Int) % 400 = yearOfEra := by omega
  rw [daysToMarch, hdiv, hmod]
  omega

theorem exists_ofDayNumber_eq (n : Int) :
    ∃ year day, n = daysToMarch year + (day : Nat) ∧ day ≤ 364 + leapDays (year + 1) ∧ ofDayNumber n = ofMarch year day := by
  obtain ⟨era, hera⟩ : ∃ era, era = (n + 719468) / 146097 := ⟨_, rfl⟩
  obtain ⟨m, hm⟩ : ∃ m, m = ((n + 719468) % 146097).toNat := ⟨_, rfl⟩
  have hn : n + 719468 = era * 146097 + m ∧ m < 146097 := by omega
  obtain ⟨centuries, spans, years, day, hsum, hcenturies, hspans, hyears, hday⟩ := exists_dayOfEra_eq hn.2
  have hyear := yearOfEra_eq hsum hcenturies hspans hyears hday
  obtain ⟨yearOfEra, hyearOfEra⟩ : ∃ yearOfEra, yearOfEra = 100 * centuries + 4 * spans + years := ⟨_, rfl⟩
  rw [← hyearOfEra] at hyear
  have hfours : yearOfEra / 4 = 25 * centuries + spans := by
    clear hday hn hsum hera hm hyear
    omega
  have hhundreds : yearOfEra / 100 = centuries := by
    clear hday hn hsum hera hm hyear
    omega
  have hdayOfYear : m = 365 * yearOfEra + yearOfEra / 4 - yearOfEra / 100 + day := by
    rw [hfours, hhundreds]
    clear hday hn hera hm hyear
    omega
  refine ⟨era * 400 + yearOfEra, day, ?_, ?_, ?_⟩
  . rw [daysToMarch_era era (by omega)]
    omega
  . rcases hday with hday | ⟨rfl, rfl, hspans'⟩
    . omega
    . have hleap : IsLeap (era * 400 + yearOfEra + 1) := by
        clear hn hsum hera hm hyear hfours hhundreds hdayOfYear
        subst hyearOfEra
        constructor
        . omega
        . omega
      have hleapDays : leapDays (era * 400 + yearOfEra + 1) = 1 := if_pos hleap
      exact Nat.le_of_eq (congrArg (364 + ·) hleapDays.symm)
  . unfold ofDayNumber ofMarch
    dsimp only
    rw [← hm, ← hera, hyear, hdayOfYear, Nat.add_sub_cancel_left]

theorem monthLength_eq (year : Int) {month : Nat} (h : month ≤ 9) :
    (153 * month + 2) / 5 + monthLength year (month + 3) = (153 * (month + 1) + 2) / 5 := by
  have hmonth : month = 0 ∨ month = 1 ∨ month = 2 ∨ month = 3 ∨ month = 4 ∨ month = 5 ∨ month = 6 ∨ month = 7 ∨
      month = 8 ∨ month = 9 := by omega
  rcases hmonth with rfl | rfl | rfl | rfl | rfl | rfl | rfl | rfl | rfl | rfl
  all_goals rfl

theorem valid_ofMarch {year : Int} {day : Nat} (h : day ≤ 364 + leapDays (year + 1)) :
    (ofMarch year day).Valid ∧ (ofMarch year day).dayNumber = daysToMarch year + day := by
  obtain ⟨month, hmonth⟩ : ∃ month, month = (5 * day + 2) / 153 := ⟨_, rfl⟩
  have hbegun : (153 * month + 2) / 5 ≤ day := by omega
  rw [dayNumber_eq, ofMarch, ← hmonth]
  dsimp only
  by_cases hlt : month < 10
  . have hlength := monthLength_eq year (Nat.le_of_lt_succ hlt)
    have hnot : ¬ month + 3 ≤ 2 := by omega
    have hturn : (month + 3 + 9) % 12 = month := by omega
    rw [if_pos hlt, if_pos hlt, if_neg hnot, hturn]
    refine ⟨?_, by omega⟩
    constructor
    all_goals
      dsimp only
      omega
  . have hleap : leapDays (year + 1) ≤ 1 := by
      unfold leapDays
      split <;> decide
    have hlength : month = 10 ∧ monthLength (year + 1) (month - 9) = 31 ∨
        month = 11 ∧ monthLength (year + 1) (month - 9) = 28 + leapDays (year + 1) := by
      obtain rfl | rfl : month = 10 ∨ month = 11 := by omega
      . exact .inl ⟨rfl, rfl⟩
      . exact .inr ⟨rfl, rfl⟩
    have hle : month - 9 ≤ 2 := by omega
    have hturn : (month - 9 + 9) % 12 = month := by omega
    rw [if_neg hlt, if_neg hlt, if_pos hle, hturn, Int.add_sub_cancel]
    refine ⟨?_, by omega⟩
    constructor
    all_goals
      dsimp only
      omega

theorem valid_ofDayNumber (n : Int) : (ofDayNumber n).Valid := by
  obtain ⟨year, day, -, hday, hdate⟩ := exists_ofDayNumber_eq n
  rw [hdate]
  exact (valid_ofMarch hday).1

theorem days_ofDayNumber (n : Int) : (ofDayNumber n).days = n := by
  obtain ⟨year, day, hn, hday, hdate⟩ := exists_ofDayNumber_eq n
  obtain ⟨hvalid, hnumber⟩ := valid_ofMarch hday
  rw [← dayNumber_eq_days (valid_ofDayNumber n).month_pos (valid_ofDayNumber n).month_le, hdate, hnumber, hn]

end Date

namespace DateTime

structure Valid (t : DateTime) : Prop where
  date : t.date.Valid
  hour_lt : t.hour < 24
  minute_lt : t.minute < 60
  second_lt : t.second < 60

instance (t : DateTime) : Decidable t.Valid :=
  decidable_of_iff (t.date.Valid ∧ t.hour < 24 ∧ t.minute < 60 ∧ t.second < 60)
    ⟨fun h => ⟨h.1, h.2.1, h.2.2.1, h.2.2.2⟩, fun h => ⟨h.1, h.2, h.3, h.4⟩⟩

def seconds (t : DateTime) : Int :=
  t.date.days * 86400 + t.hour * 3600 + t.minute * 60 + t.second

theorem valid_ofSeconds (n : Int) : (ofSeconds n).Valid := by
  refine ⟨Date.valid_ofDayNumber _, ?_, ?_, ?_⟩
  all_goals
    unfold ofSeconds
    dsimp only
    omega

theorem seconds_ofSeconds (n : Int) : (ofSeconds n).seconds = n := by
  have hdays : (ofSeconds n).date.days = n / 86400 := Date.days_ofDayNumber _
  rw [seconds, hdays]
  unfold ofSeconds
  dsimp only
  omega

end DateTime
end KernelLog
