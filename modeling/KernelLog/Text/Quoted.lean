import KernelLog.Text.Extender
import KernelLog.Text.Ungraphic

/-!
This module contains the quoted form of a text, as messages show the text that they are about.
-/

namespace KernelLog

def hexDigits (n : Nat) : List Char :=
  Nat.toDigits 16 n

def isHalfwidthMark (c : Char) : Bool :=
  c == '\uFF9E' || c == '\uFF9F'

/--
A filler, which stands in the place of a Hangul letter. It is a letter itself, and shows nothing.
-/
def isFiller (c : Char) : Bool :=
  c == '\u115F' || c == '\u1160' || c == '\u3164' || c == '\uFFA0'

def isHidden (c : Char) : Bool :=
  isUngraphic c || isFiller c || (isExtender c && !isHalfwidthMark c)

def quoteChar (c : Char) : List Char :=
  match c with
  | '\x00' => ['\\', '0']
  | '\t' => ['\\', 't']
  | '\n' => ['\\', 'n']
  | '\r' => ['\\', 'r']
  | '"' => ['\\', '"']
  | '\\' => ['\\', '\\']
  | c =>
    if isHidden c then
      ['\\', 'u', '\x7b'] ++ hexDigits c.toNat ++ ['\x7d']
    else
      [c]

def quote (s : String) : String :=
  String.ofList ('"' :: s.toList.flatMap quoteChar ++ ['"'])

end KernelLog
