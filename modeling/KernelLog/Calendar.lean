import KernelLog.Number.Decimal
import KernelLog.Text.Utf8

/-!
This module contains civil time: instants, the proleptic Gregorian calendar, and the texts in which dates,
times and offsets are written.
-/

namespace KernelLog

/--
A date of the proleptic Gregorian calendar. Months and days count from 1; the year before year 1 is 0.
-/
structure Date where
  year : Int
  month : Nat
  day : Nat
  deriving Repr, DecidableEq

namespace Date

/--
The number of days from 1970-01-01 to a date. Years are counted from March, so that a leap day is the last
day of its year.
-/
def dayNumber (d : Date) : Int :=
  let year := if d.month ≤ 2 then d.year - 1 else d.year
  let month := (d.month + 9) % 12
  let yearOfEra := year % 400
  let dayOfYear : Int := (153 * month + 2) / 5 + d.day - 1
  year / 400 * 146097 + (yearOfEra * 365 + yearOfEra / 4 - yearOfEra / 100 + dayOfYear) - 719468

def ofDayNumber (n : Int) : Date :=
  let n := n + 719468
  let dayOfEra := (n % 146097).toNat
  let yearOfEra := (dayOfEra - dayOfEra / 1460 + dayOfEra / 36524 - dayOfEra / 146096) / 365
  let dayOfYear := dayOfEra - (365 * yearOfEra + yearOfEra / 4 - yearOfEra / 100)
  let month := (5 * dayOfYear + 2) / 153
  let year := n / 146097 * 400 + yearOfEra
  { year := if month < 10 then year else year + 1
    month := if month < 10 then month + 3 else month - 9
    day := dayOfYear - (153 * month + 2) / 5 + 1 }

def weekday (d : Date) : Nat :=
  ((d.dayNumber + 4) % 7).toNat

def dayOfYear (d : Date) : Nat :=
  (d.dayNumber - dayNumber { year := d.year, month := 1, day := 1 }).toNat

def weekdayName (d : Date) : String :=
  ["Sun", "Mon", "Tue", "Wed", "Thu", "Fri", "Sat"].getD d.weekday ""

def monthName (d : Date) : String :=
  ["Jan", "Feb", "Mar", "Apr", "May", "Jun", "Jul", "Aug", "Sep", "Oct", "Nov", "Dec"].getD
    (d.month - 1) ""

def yearText (d : Date) : Octets :=
  let digits := Decimal.zeroed 4 d.year.natAbs
  if d.year < 0 then
    Octet.minus :: digits
  else if 9999 < d.year then
    Octet.plus :: digits
  else
    digits

def isoText (d : Date) : Octets :=
  d.yearText ++ Octet.minus :: Decimal.zeroed 2 d.month ++ Octet.minus :: Decimal.zeroed 2 d.day

end Date

structure DateTime where
  date : Date
  hour : Nat
  minute : Nat
  second : Nat
  deriving Repr, DecidableEq

namespace DateTime

def ofSeconds (n : Int) : DateTime :=
  let second := (n % 86400).toNat
  { date := Date.ofDayNumber (n / 86400)
    hour := second / 3600
    minute := second / 60 % 60
    second := second % 60 }

def clockText (t : DateTime) : Octets :=
  Decimal.zeroed 2 t.hour ++ Octet.colon :: Decimal.zeroed 2 t.minute

def timeText (t : DateTime) : Octets :=
  t.clockText ++ Octet.colon :: Decimal.zeroed 2 t.second

def dayText (t : DateTime) : Octets :=
  Decimal.padLeft 2 Octet.space (Decimal.digits t.date.day)

def fullText (t : DateTime) : Octets :=
  Octets.ofString t.date.weekdayName ++ Octet.space :: Octets.ofString t.date.monthName ++
    Octet.space :: t.dayText ++ Octet.space :: t.timeText ++ Octet.space :: t.date.yearText

def shortText (t : DateTime) : Octets :=
  Octets.ofString t.date.monthName ++ t.dayText ++ Octet.space :: t.clockText

def isoText (t : DateTime) : Octets :=
  t.date.isoText ++ Octet.upperT :: t.timeText

end DateTime

/--
A point in time: whole seconds since the beginning of 1970-01-01 in universal time, and nanoseconds.
-/
structure Instant where
  seconds : Int
  nanos : Nat
  deriving Repr, DecidableEq

namespace Instant

def first : Int :=
  Date.dayNumber { year := -262143, month := 1, day := 1 } * 86400

def last : Int :=
  Date.dayNumber { year := 262142, month := 12, day := 31 } * 86400 + 86399

/--
The instant a number of seconds later. A span is at most as many milliseconds as a signed 64-bit number
holds, and the instant has to be within the calendar.
-/
def after? (t : Instant) (sec : UInt64) : Option Instant :=
  let seconds := t.seconds + sec.toNat
  if sec.toNat * 1000 < 1 <<< 63 ∧ first ≤ seconds ∧ seconds ≤ last then
    some { t with seconds }
  else
    none

def toLocal (t : Instant) (offset : Int) : DateTime :=
  DateTime.ofSeconds (t.seconds + offset)

def fractionText (nanos : Nat) : Octets :=
  if nanos = 0 then
    []
  else if nanos % 1000000 = 0 then
    Octet.dot :: Decimal.zeroed 3 (nanos / 1000000)
  else if nanos % 1000 = 0 then
    Octet.dot :: Decimal.zeroed 6 (nanos / 1000)
  else
    Octet.dot :: Decimal.zeroed 9 nanos

def inspect (t : Instant) : String :=
  Utf8.lossy ((t.toLocal 0).isoText ++ fractionText t.nanos) ++ "Z"

end Instant

namespace Offset

/--
The form `+05:45` of an offset in seconds, rounded to the nearest minute; half a minute counts as one.
-/
def text (offset : Int) : Octets :=
  let minutes := (offset.natAbs + 30) / 60
  (if offset < 0 then Octet.minus else Octet.plus) ::
    (Decimal.zeroed 2 (minutes / 60) ++ Octet.colon :: Decimal.zeroed 2 (minutes % 60))

def inspect (offset : Int) : String :=
  let n := offset.natAbs
  let seconds := if n % 60 = 0 then [] else Octet.colon :: Decimal.zeroed 2 (n % 60)
  Utf8.lossy <| (if offset < 0 then Octet.minus else Octet.plus) ::
    (Decimal.zeroed 2 (n / 3600) ++ Octet.colon :: Decimal.zeroed 2 (n / 60 % 60)) ++ seconds

end Offset
end KernelLog
