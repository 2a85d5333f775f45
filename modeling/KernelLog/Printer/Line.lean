import KernelLog.Escape.Terminal
import KernelLog.Number.Fixed
import KernelLog.Printer.TimeFormat
import KernelLog.Record

/-!
This module contains the composition of printed lines: what is printed for a record, as a function of the
settings, of the record, and of the time of the record before it.
-/

namespace KernelLog

structure Layout where
  mode : OutputMode
  format : TimeFormat
  boot : Option Instant
  offset : Int
  deriving Repr, DecidableEq

/--
The parts of a printed line. The time is new if it is shown because the minute, the hour or the day has
changed; a line is an alert if its record is an error or more severe.
-/
structure Line where
  label : Octets
  time : Octets
  isNewTime : Bool
  body : Octets
  isAlert : Bool
  deriving Repr, DecidableEq

namespace Layout

def resolve (layout : Layout) : Layout :=
  { layout with format := layout.format.resolve layout.boot }

def dateTime? (layout : Layout) (t : Timestamp) : Option DateTime := do
  let boot ← layout.boot
  let instant ← boot.after? t.sec
  return instant.toLocal layout.offset

def timeBreak? (layout : Layout) (t : Timestamp) : Option (Nat × Nat × Nat) :=
  (layout.dateTime? t).map fun now => (now.minute, now.hour, now.date.dayOfYear)

def deltaSince (last : Option Timestamp) (t : Timestamp) : Float :=
  match last with
  | some last => t.delta last
  | none => 0.0

def secondsText (width : Nat) (showPlus : Bool) (x : Float) : Octets :=
  Decimal.padLeft width Octet.space ((Dyadic.ofBits x.toBits).fixed 6 showPlus)

def bracketed (s : Octets) : Octets :=
  Octet.openBracket :: s ++ [Octet.closeBracket, Octet.space]

def deltaText (last : Option Timestamp) (t : Timestamp) : Octets :=
  Octet.less :: secondsText 12 false (deltaSince last t) ++ [Octet.greater]

def stampText (t : Timestamp) : Octets :=
  bracketed (t.octets 5)

/--
The time part of a line. A record whose date and time are not known is shown with its time since the start
of the kernel instead.
-/
def timePart (layout : Layout) (last : Option Timestamp) (t : Timestamp) : Octets :=
  match layout.format with
  | .noTime => []
  | .time => stampText t
  | .ctime =>
    match layout.dateTime? t with
    | some now => bracketed now.fullText
    | none => stampText t
  | .ctimeDelta =>
    match layout.dateTime? t with
    | some now => bracketed (now.fullText ++ Octet.space :: deltaText last t)
    | none => bracketed (t.octets 5 ++ Octet.space :: deltaText last t)
  | .delta => bracketed (deltaText last t)
  | .timeDelta => bracketed (t.octets 5 ++ Octet.space :: deltaText last t)
  | .reltime =>
    match layout.dateTime? t with
    | some now =>
      if last.bind layout.timeBreak? = layout.timeBreak? t then
        elapsed
      else
        bracketed now.shortText
    | none => elapsed
  | .iso =>
    match layout.dateTime? t with
    | some now =>
      now.isoText ++ Octet.comma :: Decimal.zeroed 6 t.usec.val ++ Offset.text layout.offset ++
        [Octet.space]
    | none => stampText t
where
  elapsed : Octets :=
    let delta := deltaSince last t
    if delta < 10.0 then
      bracketed (Octet.space :: Octet.space :: secondsText 8 true delta)
    else
      bracketed (Octet.space :: secondsText 9 true delta)

def isNewTime (layout : Layout) (last : Option Timestamp) (t : Timestamp) : Bool :=
  layout.format = .reltime ∧ (layout.timeBreak? t).isSome ∧
    last.bind layout.timeBreak? ≠ layout.timeBreak? t

def absent : Octets :=
  [Octet.minus]

def decodedLabel (r : Record) : Octets :=
  let name (naming : Option Naming) : Octets :=
    Decimal.padRight 6 Octet.space ((naming.map fun n => Octets.ofString n.name).getD absent)
  let number (n : Option Nat) : Octets :=
    (n.map Decimal.digits).getD absent
  name (r.facility.bind Facility.naming?) ++ Octet.colon :: name (r.level.bind Level.naming?) ++
    Octets.ofString "(" ++ number r.facility ++ Octet.colon :: number r.level ++ Octets.ofString ") "

def rawLabel (r : Record) : Octets :=
  let priority :=
    match r.priority with
    | some p => Octet.less :: Decimal.digits p.toNat ++ [Octet.greater]
    | none => []
  let time :=
    match r.timestamp with
    | some t => stampText t
    | none => []
  priority ++ time

def closed (s : Octets) : Octets :=
  if s.getLast? = some Octet.newline then s else s ++ [Octet.newline]

/--
The line of a record with a message, after a record with the time `last`. Further lines of the message are
indented to the width of the prefix.
-/
def line (layout : Layout) (last : Option Timestamp) (r : Record) : Line :=
  let (label, time, isNewTime) :=
    match layout.mode with
    | .raw => (rawLabel r, [], false)
    | .decoded => (decodedLabel r, layout.timePart last r.time, layout.isNewTime last r.time)
  { label
    time
    isNewTime
    body := closed (Escape.terminal (label.length + time.length) r.message)
    isAlert := r.level.any (· ≤ Level.error) }

def remember (layout : Layout) (last : Option Timestamp) (r : Record) : Option Timestamp :=
  match layout.mode with
  | .raw => last
  | .decoded => if layout.format.usesDelta then some r.time else last

end Layout
end KernelLog
