import KernelLog.Record

/-!
This module contains the decoding of records in the legacy encoding, `<priority>[seconds.microseconds]` and
the message.
-/

namespace KernelLog.Legacy

/--
Which prefixes are parsed. A prefix that is not parsed is stepped over, and its fields are absent.
-/
structure Decode where
  priority : Bool
  timestamp : Bool
  deriving Repr, DecidableEq

def Decode.full : Decode :=
  { priority := true, timestamp := true }

def after? (b : UInt8) (s : Octets) : Option Octets :=
  match s.dropWhile (· != b) with
  | [] => none
  | _ :: rest => some rest

def dropSpace : Octets → Octets
  | Octet.space :: rest => rest
  | s => s

/--
The priority of a line, and what is behind it. A malformed prefix is part of what is behind. A prefix that is
stepped over ends at the first closing angle bracket, or else with the line.
-/
def readPriority (parse : Bool) (line : Octets) : Option Priority × Octets :=
  match line with
  | Octet.less :: body =>
    if parse then
      match Decimal.read? body with
      | some (p, Octet.greater :: rest) => (some p, rest)
      | _ => (none, line)
    else
      (none, (after? Octet.greater body).getD [])
  | _ => (none, line)

theorem readPriority_less (body : Octets) :
    readPriority true (Octet.less :: body) =
      match Decimal.read? body with
      | some (p, Octet.greater :: rest) => (some p, rest)
      | _ => (none, Octet.less :: body) :=
  rfl

/--
The time of a line, and what is behind it and behind one further space. A bracket begins a time only before a
space or a digit. A malformed prefix is part of what is behind; so is one that is stepped over and has no
closing bracket.
-/
def readTimestamp (parse : Bool) (line : Octets) : Option Timestamp × Octets :=
  match line with
  | Octet.openBracket :: b :: body =>
    if b = Octet.space ∨ Octet.isDigit b then
      if parse then
        match Timestamp.readLegacy? (b :: body) with
        | some (t, rest) => (some t, dropSpace rest)
        | none => (none, line)
      else
        (none, ((after? Octet.closeBracket body).map dropSpace).getD line)
    else
      (none, line)
  | _ => (none, line)

theorem readTimestamp_openBracket {b : UInt8} (body : Octets) (h : b = Octet.space ∨ Octet.isDigit b) :
    readTimestamp true (Octet.openBracket :: b :: body) =
      match Timestamp.readLegacy? (b :: body) with
      | some (t, rest) => (some t, dropSpace rest)
      | none => (none, Octet.openBracket :: b :: body) :=
  if_pos h

def decode (which : Decode) (line : Octets) : Record :=
  let (priority, rest) := readPriority which.priority line
  let (timestamp, message) := readTimestamp which.timestamp rest
  let record := { Record.ofMessage message with timestamp }
  match priority with
  | some p => record.withPriority p
  | none => record

end KernelLog.Legacy
