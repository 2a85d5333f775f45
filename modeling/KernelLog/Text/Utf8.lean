import KernelLog.Text.Octet

/-!
This module contains the splitting of octets into UTF-8 characters and broken sequences. A broken
sequence is a maximal one: the longest run of octets that could still have begun a character, or a
single octet if it cannot begin one.
-/

namespace KernelLog.Utf8

inductive Piece where
  | char (c : Char) (octets : Octets)
  | broken (octets : Octets)
  deriving Repr, DecidableEq

def Piece.octets : Piece → Octets
  | .char _ octets => octets
  | .broken octets => octets

/--
What a first octet announces: its own bits of the character, how many octets follow, and the range of
the first of them. Every further one is in `80..BF`.
-/
structure Lead where
  bits : Nat
  follow : Nat
  low : UInt8
  high : UInt8

/--
The first octets of well-formed sequences. The narrowed ranges keep out overlong forms, surrogates and
numbers past the last character.
-/
def lead? (b : UInt8) : Option Lead :=
  if b < 0x80 then
    some ⟨b.toNat, 0, 0x80, 0xBF⟩
  else if b < 0xC2 then
    none
  else if b < 0xE0 then
    some ⟨b.toNat - 0xC0, 1, 0x80, 0xBF⟩
  else if b = 0xE0 then
    some ⟨0, 2, 0xA0, 0xBF⟩
  else if b = 0xED then
    some ⟨0xD, 2, 0x80, 0x9F⟩
  else if b < 0xF0 then
    some ⟨b.toNat - 0xE0, 2, 0x80, 0xBF⟩
  else if b = 0xF0 then
    some ⟨0, 3, 0x90, 0xBF⟩
  else if b < 0xF4 then
    some ⟨b.toNat - 0xF0, 3, 0x80, 0xBF⟩
  else if b = 0xF4 then
    some ⟨4, 3, 0x80, 0x8F⟩
  else
    none

def continuation : (follow : Nat) → (low high : UInt8) → Octets → Octets
  | 0, _, _, _ => []
  | _ + 1, _, _, [] => []
  | follow + 1, low, high, b :: rest =>
    if low ≤ b ∧ b ≤ high then
      b :: continuation follow 0x80 0xBF rest
    else
      []

def scalar (bits : Nat) (octets : Octets) : Nat :=
  octets.foldl (fun n b => n * 64 + (b.toNat - 0x80)) bits

def piece (b : UInt8) (rest : Octets) : Piece :=
  match lead? b with
  | none => .broken [b]
  | some lead =>
    let tail := continuation lead.follow lead.low lead.high rest
    if tail.length = lead.follow then
      .char (Char.ofNat (scalar lead.bits tail)) (b :: tail)
    else
      .broken (b :: tail)

def pieces : Octets → List Piece
  | [] => []
  | b :: rest =>
    let first := piece b rest
    first :: pieces (rest.drop (first.octets.length - 1))
termination_by s => s.length
decreasing_by simp only [List.length_cons, List.length_drop]; omega

def lossy (s : Octets) : String :=
  String.ofList <| (pieces s).map fun
    | .char c _ => c
    | .broken _ => '\uFFFD'

theorem continuation_eq_take (follow : Nat) (low high : UInt8) (s : Octets) :
    continuation follow low high s = s.take (continuation follow low high s).length := by
  fun_induction continuation follow low high s with
  | case1 => simp
  | case2 => simp
  | case3 follow low high b rest h ih => simpa using ih
  | case4 => simp

theorem octets_piece (b : UInt8) (rest : Octets) :
    (piece b rest).octets = b :: rest.take ((piece b rest).octets.length - 1) := by
  unfold piece
  split
  . simp [Piece.octets]
  . next lead _ =>
    have h := continuation_eq_take lead.follow lead.low lead.high rest
    dsimp only
    split <;> simpa [Piece.octets] using h

end KernelLog.Utf8
