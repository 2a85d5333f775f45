import KernelLog.Number.Decimal
import KernelLog.Text.Blank
import KernelLog.Text.Inspect
import KernelLog.Text.Quoted
import KernelLog.Text.Utf8
import KernelLog.Timestamp.Basic

/-!
This module contains the written forms of a time: the plain text `seconds.microseconds`, the bracketed form
of the legacy encoding, and the microseconds of the device encoding.
-/

namespace KernelLog.Timestamp

def octets (width : Nat) (t : Timestamp) : Octets :=
  Decimal.padLeft width Octet.space (Decimal.digits t.sec.toNat) ++
    Octet.dot :: Decimal.zeroed 6 t.usec.val

def text (t : Timestamp) : String :=
  Utf8.lossy (octets 0 t)

def inspect (t : Timestamp) : String :=
  Inspect.fields "Timestamp" [("sec", toString t.sec.toNat), ("usec", toString t.usec.val)]

inductive Malformed where
  | seconds (text : String) (reason : Decimal.Malformed)
  | fraction (text : String)
  deriving Repr, DecidableEq

def Malformed.message : Malformed → String
  | .seconds text reason => "invalid seconds " ++ quote text ++ ": " ++ reason.message
  | .fraction text => "invalid fraction " ++ quote text

def fractionMicros (fraction : List Char) : Nat :=
  ((fraction ++ List.replicate 6 '0').take 6).foldl (fun n c => n * 10 + (c.toNat - 48)) 0

/--
Read `seconds` or `seconds.fraction`, with white space around it. The text ends the seconds at its first
point; digits of the fraction past the sixth count for nothing.
-/
def parse (s : String) : Except Malformed Timestamp :=
  let cs := (trim s).toList
  let whole := cs.takeWhile (· != '.')
  let fraction := (cs.dropWhile (· != '.')).drop 1
  match Decimal.parse (String.ofList whole) with
  | .error reason => .error (.seconds (String.ofList whole) reason)
  | .ok sec =>
    if fraction.all Char.isDigit then
      .ok (ofParts sec (UInt64.ofNat (fractionMicros fraction)))
    else
      .error (.fraction (String.ofList fraction))

/--
Read `seconds]` or `seconds.microseconds]`, as it follows the opening bracket of a legacy record. What
follows the closing bracket comes with the time.
-/
def readLegacy? (s : Octets) : Option (Timestamp × Octets) := do
  let (sec, rest) ← Decimal.read? s
  match rest with
  | Octet.closeBracket :: rest => return (ofParts sec 0, rest)
  | Octet.dot :: rest =>
    match ← Decimal.read? rest with
    | (usec, Octet.closeBracket :: rest) => return (ofParts sec usec, rest)
    | _ => none
  | _ => none

def readMicros? (s : Octets) : Option (Timestamp × Octets) := do
  let (micros, rest) ← Decimal.read? s
  match rest with
  | Octet.comma :: _ | Octet.semicolon :: _ => return (ofMicros micros, rest)
  | _ => none

end KernelLog.Timestamp
