import KernelLog.Escape.Hex
import KernelLog.Record

/-!
This module contains the decoding of device records: `priority,sequence,microseconds,flag` and further fields,
a semicolon, the message, and behind a newline what does not belong to the message.
-/

namespace KernelLog.Kmsg

structure Header where
  priority : Option Priority
  level : Option Level
  facility : Option Facility
  sequence : Option UInt64
  timestamp : Option Timestamp
  flag : Flag
  deriving Repr, DecidableEq

namespace Header

def empty : Header :=
  { priority := none
    level := none
    facility := none
    sequence := none
    timestamp := none
    flag := .flush }

def withPriority (h : Header) (p : Priority) : Header :=
  { h with priority := some p, level := some p.level, facility := p.facility? }

def readField? (s : Octets) : Option (UInt64 × Octets) := do
  let (n, rest) ← Decimal.read? s
  match rest with
  | Octet.comma :: rest | Octet.semicolon :: rest => return (n, rest)
  | _ => none

/--
Read the fields of a header, with the semicolon at its end. The first field that is malformed leaves itself
and all fields behind it absent.
-/
def read (s : Octets) : Header :=
  match readField? s with
  | none => empty
  | some (p, s) =>
    let header := empty.withPriority p
    match readField? s with
    | none => header
    | some (sequence, s) =>
      let header := { header with sequence := some sequence }
      match Timestamp.readMicros? s with
      | none => header
      | some (t, s) => { header with timestamp := some t, flag := .ofOctet? (s.drop 1).head? }

def inspect (h : Header) : String :=
  Inspect.fields "KmsgHeader"
    [("priority", Inspect.option (fun p => toString p.toNat) h.priority),
     ("level", Inspect.option toString h.level),
     ("facility", Inspect.option toString h.facility),
     ("sequence", Inspect.option (fun n => toString n.toNat) h.sequence),
     ("timestamp", Inspect.option Timestamp.inspect h.timestamp),
     ("flag", h.flag.name)]

def toRecord (h : Header) (message : Octets) : Record :=
  { message
    priority := h.priority
    level := h.level
    facility := h.facility
    timestamp := h.timestamp
    sequence := h.sequence
    flag := h.flag }

end Header

/--
One record as the device gives it: the header, the number of octets in front of the message, and the message
with the kernel's escapes.
-/
structure Physical where
  header : Header
  start : Nat
  escaped : Octets
  deriving Repr, DecidableEq

namespace Physical

/--
Decode what the device gave. The header ends at the first semicolon; without one there is no header, and the
message starts at the beginning. The message ends at its first newline.
-/
def decode (raw : Octets) : Physical :=
  let fields := raw.takeWhile (· != Octet.semicolon)
  match raw.dropWhile (· != Octet.semicolon) with
  | [] => { header := .empty, start := 0, escaped := raw.takeWhile (· != Octet.newline) }
  | _ :: body =>
    { header := .read (fields ++ [Octet.semicolon])
      start := fields.length + 1
      escaped := body.takeWhile (· != Octet.newline) }

def stop (p : Physical) : Nat :=
  p.start + p.escaped.length

def message (p : Physical) : Octets :=
  Escape.unhex p.escaped

def toRecord (p : Physical) : Record :=
  p.header.toRecord p.message

end Physical
end KernelLog.Kmsg
