import KernelLog.Text.Octet

/-!
This module contains decimal numerals: their writing, their reading at the start of octets, and their
reading as a whole text.
-/

namespace KernelLog.Decimal

def digits (n : Nat) : Octets :=
  if n < 10 then
    [Octet.digit n]
  else
    digits (n / 10) ++ [Octet.digit (n % 10)]

def padLeft (width : Nat) (fill : UInt8) (s : Octets) : Octets :=
  List.replicate (width - s.length) fill ++ s

def padRight (width : Nat) (fill : UInt8) (s : Octets) : Octets :=
  s ++ List.replicate (width - s.length) fill

def zeroed (width n : Nat) : Octets :=
  padLeft width Octet.zero (digits n)

def value (ds : Octets) : Nat :=
  ds.foldl (fun v d => v * 10 + Octet.digitValue d) 0

def push? (v : UInt64) (d : UInt8) : Option UInt64 :=
  let n := v.toNat * 10 + Octet.digitValue d
  if n < UInt64.size then some (UInt64.ofNat n) else none

/--
Read a number at the start of octets: blanks, at most one plus sign, and at least one digit. The longest
run of digits is taken; a run that needs more than 64 bits is no number. The rest comes with the number.
-/
def read? (s : Octets) : Option (UInt64 × Octets) :=
  let s := s.dropWhile Octet.isBlank
  let s :=
    match s with
    | Octet.plus :: rest => rest
    | _ => s
  let ds := s.takeWhile Octet.isDigit
  if ds.isEmpty then
    none
  else
    (ds.foldlM push? 0).map (·, s.dropWhile Octet.isDigit)

inductive Malformed where
  | empty
  | invalidDigit
  | tooLarge
  deriving Repr, DecidableEq

def Malformed.message : Malformed → String
  | .empty => "cannot parse integer from empty string"
  | .invalidDigit => "invalid digit found in string"
  | .tooLarge => "number too large to fit in target type"

def append (v : UInt64) (c : Char) : Except Malformed UInt64 :=
  if c.isDigit then
    match push? v c.toUInt8 with
    | some v => .ok v
    | none => .error .tooLarge
  else
    .error .invalidDigit

/--
Read a whole text as a number of 64 bits: at most one plus sign and at least one digit, nothing else.
Of two faults the one further to the left is reported.
-/
def parse (s : String) : Except Malformed UInt64 :=
  match s.toList with
  | [] => .error .empty
  | ['+'] => .error .invalidDigit
  | '+' :: rest => rest.foldlM append 0
  | cs => cs.foldlM append 0

end KernelLog.Decimal
