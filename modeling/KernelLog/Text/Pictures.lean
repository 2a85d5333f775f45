import KernelLog.Text.Utf8

/-!
This module contains the picture form of octets: text in which each control character of ASCII is replaced
by its sign from the block of control pictures, so that every character takes one column.
-/

namespace KernelLog

def picture (c : Char) : Char :=
  if c.toNat ≤ 0x1F then
    Char.ofNat (0x2400 + c.toNat)
  else if c.toNat = 0x7F then
    '\u2421'
  else
    c

def pictures (s : Octets) : String :=
  String.ofList ((Utf8.lossy s).toList.map picture)

end KernelLog
