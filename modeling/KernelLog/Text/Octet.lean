/-!
This module contains the octets that the log formats name and the ASCII classes of octets.
-/

namespace KernelLog

abbrev Octets := List UInt8

def Octets.ofString (s : String) : Octets :=
  s.toUTF8.toList

def Octets.from? (s : Octets) (i : Nat) : Option Octets :=
  if i ≤ s.length then some (s.drop i) else none

namespace Octet

@[match_pattern] abbrev nul : UInt8 := 0
@[match_pattern] abbrev newline : UInt8 := 10
@[match_pattern] abbrev space : UInt8 := 32
@[match_pattern] abbrev plus : UInt8 := 43
@[match_pattern] abbrev comma : UInt8 := 44
@[match_pattern] abbrev minus : UInt8 := 45
@[match_pattern] abbrev dot : UInt8 := 46
@[match_pattern] abbrev zero : UInt8 := 48
@[match_pattern] abbrev colon : UInt8 := 58
@[match_pattern] abbrev semicolon : UInt8 := 59
@[match_pattern] abbrev less : UInt8 := 60
@[match_pattern] abbrev greater : UInt8 := 62
@[match_pattern] abbrev upperT : UInt8 := 84
@[match_pattern] abbrev openBracket : UInt8 := 91
@[match_pattern] abbrev backslash : UInt8 := 92
@[match_pattern] abbrev closeBracket : UInt8 := 93
@[match_pattern] abbrev lowerC : UInt8 := 99
@[match_pattern] abbrev lowerX : UInt8 := 120

/--
Blanks in front of a number: tab, line feed, form feed, carriage return and space. The vertical tab
is none of them.
-/
def isBlank (b : UInt8) : Bool :=
  b == 9 || b == 10 || b == 12 || b == 13 || b == 32

def isDigit (b : UInt8) : Bool :=
  48 ≤ b && b ≤ 57

def digitValue (b : UInt8) : Nat :=
  b.toNat - 48

def digit (n : Nat) : UInt8 :=
  UInt8.ofNat (48 + n)

def hexValue? (b : UInt8) : Option UInt8 :=
  if 48 ≤ b && b ≤ 57 then
    some (b - 48)
  else if 97 ≤ b && b ≤ 102 then
    some (b - 97 + 10)
  else if 65 ≤ b && b ≤ 70 then
    some (b - 65 + 10)
  else
    none

def hexDigit (n : UInt8) : UInt8 :=
  if n < 10 then 48 + n else 87 + n

/--
An octet that a terminal may be sent as it is: a graphic ASCII character, a space, or one of tab, line
feed, vertical tab, form feed and carriage return.
-/
def isPrintable (b : UInt8) : Bool :=
  (32 ≤ b && b ≤ 126) || (9 ≤ b && b ≤ 13)

end Octet
end KernelLog
