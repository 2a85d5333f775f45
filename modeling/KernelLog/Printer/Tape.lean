import KernelLog.Printer.Sink

/-!
This module contains a sink that keeps what is written, up to a limit, and fails as it is told to.
-/

namespace KernelLog

/--
A sink that keeps what is written. It takes `limit` octets in all and refuses any further one with the
fault `refusal`; with `color`, the codes of a terminal are written for colors. Flushing and the setting and
resetting of colors fail if they have a fault of their own.
-/
structure Tape where
  color : Bool
  limit : Option Nat
  refusal : Fault
  flushFault : Option Fault
  styleFault : Option Fault
  resetFault : Option Fault
  chunks : List Octets
  size : Nat

namespace Tape

def blank : Tape :=
  { color := false
    limit := none
    refusal := .ofKind .other
    flushFault := none
    styleFault := none
    resetFault := none
    chunks := []
    size := 0 }

def contents (t : Tape) : Octets :=
  t.chunks.reverse.flatten

def write (s : Octets) (t : Tape) : Except Fault Unit × Tape :=
  let room := (t.limit.map (· - t.size)).getD s.length
  let kept := s.take room
  let t := { t with chunks := kept :: t.chunks, size := t.size + kept.length }
  if s.length ≤ room then (.ok (), t) else (.error t.refusal, t)

def resetCode : Octets :=
  Octets.ofString "\x1b[0m"

def styleCode : Style → Octets
  | .time => resetCode ++ Octets.ofString "\x1b[32m"
  | .newTime => resetCode ++ Octets.ofString "\x1b[1m" ++ Octets.ofString "\x1b[32m"
  | .alert => resetCode ++ Octets.ofString "\x1b[31m"

def writeCode (fault : Option Fault) (code : Octets) (t : Tape) : Except Fault Unit × Tape :=
  match fault with
  | some fault => (.error fault, t)
  | none => if t.color then t.write code else (.ok (), t)

instance : Sink Tape where
  write := write
  flush t :=
    match t.flushFault with
    | some fault => (.error fault, t)
    | none => (.ok (), t)
  setStyle style t := t.writeCode t.styleFault (styleCode style)
  resetStyle t := t.writeCode t.resetFault resetCode

end Tape
end KernelLog
