import KernelLog.Escape.Hex
import KernelLog.Text.Utf8

/-!
This module contains the form of a message that is safe to send to a terminal, once as a list and once appended
to a buffer.
-/

namespace KernelLog.Escape

def isHighControl (c : Char) : Bool :=
  0x80 ≤ c.toNat && c.toNat ≤ 0x9F

def continues : List Utf8.Piece → Bool
  | [] => false
  | p :: _ => p.octets.head? != some Octet.nul

def terminalPieces (indent : Nat) : List Utf8.Piece → Octets
  | [] => []
  | .broken octets :: rest => octets.flatMap hex ++ terminalPieces indent rest
  | .char _ [b] :: rest =>
    if b = Octet.nul then
      []
    else if !Octet.isPrintable b then
      hex b ++ terminalPieces indent rest
    else if b = Octet.newline ∧ continues rest then
      b :: (List.replicate indent Octet.space ++ terminalPieces indent rest)
    else
      b :: terminalPieces indent rest
  | .char c octets :: rest =>
    if isHighControl c then
      octets.flatMap hex ++ terminalPieces indent rest
    else
      octets ++ terminalPieces indent rest

/--
The safe form of a message. The octets of broken sequences and of control characters are escaped, a newline
before further text is followed by `indent` spaces, and a NUL ends the message.
-/
def terminal (indent : Nat) (message : Octets) : Octets :=
  terminalPieces indent (Utf8.pieces message)

def pushHex (out : Array UInt8) (octets : Octets) : Array UInt8 :=
  octets.foldl (fun out b => out ++ hex b) out

def pushPieces (indent : Nat) (out : Array UInt8) : List Utf8.Piece → Array UInt8
  | [] => out
  | .broken octets :: rest => pushPieces indent (pushHex out octets) rest
  | .char _ [b] :: rest =>
    if b = Octet.nul then
      out
    else if !Octet.isPrintable b then
      pushPieces indent (pushHex out [b]) rest
    else if b = Octet.newline ∧ continues rest then
      pushPieces indent (out.push b ++ Array.replicate indent Octet.space) rest
    else
      pushPieces indent (out.push b) rest
  | .char c octets :: rest =>
    if isHighControl c then
      pushPieces indent (pushHex out octets) rest
    else
      pushPieces indent (out ++ octets) rest

def pushTerminal (indent : Nat) (message : Octets) (out : Array UInt8) : Array UInt8 :=
  pushPieces indent out (Utf8.pieces message)

@[simp]
theorem toList_pushHex (out : Array UInt8) (octets : Octets) :
    (pushHex out octets).toList = out.toList ++ octets.flatMap hex := by
  unfold pushHex
  induction octets generalizing out with
  | nil => simp
  | cons b octets ih => simp [ih]

theorem toList_pushPieces (indent : Nat) (out : Array UInt8) (ps : List Utf8.Piece) :
    (pushPieces indent out ps).toList = out.toList ++ terminalPieces indent ps := by
  fun_induction pushPieces indent out ps <;> simp_all [terminalPieces]

theorem toList_pushTerminal (indent : Nat) (message : Octets) (out : Array UInt8) :
    (pushTerminal indent message out).toList = out.toList ++ terminal indent message :=
  toList_pushPieces indent out _

end KernelLog.Escape
