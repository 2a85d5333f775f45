import KernelLog.Text.Octet

/-!
This module contains the hexadecimal escapes `\xHH` in which the kernel writes octets that do not print,
and their reversal, once for a list and once in place.
-/

namespace KernelLog.Escape

def hex (b : UInt8) : Octets :=
  [Octet.backslash, Octet.lowerX, Octet.hexDigit (b / 16), Octet.hexDigit (b % 16)]

def hexPair? (high low : UInt8) : Option UInt8 := do
  let high ← Octet.hexValue? high
  let low ← Octet.hexValue? low
  return high * 16 + low

/--
Replace every escape by the octet it denotes, from left to right. Anything else is kept, also a backslash
that begins no escape.
-/
def unhex (s : Octets) : Octets :=
  match s with
  | [] => []
  | Octet.backslash :: Octet.lowerX :: high :: low :: rest =>
    match hexPair? high low with
    | some b => b :: unhex rest
    | none => Octet.backslash :: unhex (Octet.lowerX :: high :: low :: rest)
  | b :: rest => b :: unhex rest

def hexAt? (buffer : Array UInt8) (i : Nat) : Option UInt8 := do
  guard (buffer[i]? = some Octet.backslash)
  guard (buffer[i + 1]? = some Octet.lowerX)
  let high ← buffer[i + 2]?
  let low ← buffer[i + 3]?
  hexPair? high low

/--
Replace every escape within the buffer that holds them. The result stands at the front of the buffer; its
length comes with it, and what is behind is left over.
-/
def unhexInPlace (buffer : Array UInt8) : Array UInt8 × Nat :=
  go buffer 0 0
where
  go (buffer : Array UInt8) (source target : Nat) : Array UInt8 × Nat :=
    if h : source < buffer.size then
      match hexAt? buffer source with
      | some b => go (buffer.setIfInBounds target b) (source + 4) (target + 1)
      | none => go (buffer.setIfInBounds target buffer[source]) (source + 1) (target + 1)
    else
      (buffer, target)
  termination_by buffer.size - source
  decreasing_by all_goals simp only [Array.size_setIfInBounds]; omega

end KernelLog.Escape
