import KernelLog.Fault
import KernelLog.Text.Octet

/-!
This module contains what printers write to: the operations of a sink, and the writing of a sequence of
strokes that ends at the first fault.
-/

namespace KernelLog

inductive Style where
  | time
  | newTime
  | alert
  deriving Repr, DecidableEq

/--
A sink for text in colors. Each operation either succeeds or reports a fault, and leaves the sink in a new
state both ways.
-/
class Sink (ω : Type) where
  write : Octets → ω → Except Fault Unit × ω
  flush : ω → Except Fault Unit × ω
  setStyle : Style → ω → Except Fault Unit × ω
  resetStyle : ω → Except Fault Unit × ω

inductive Stroke where
  | text (octets : Octets)
  | style (style : Style)
  | plain
  deriving Repr, DecidableEq

namespace Stroke

def size : Stroke → Nat
  | .text s => s.length
  | .style _ => 0
  | .plain => 0

def totalSize : List Stroke → Nat
  | [] => 0
  | stroke :: rest => stroke.size + totalSize rest

def apply {ω : Type} [Sink ω] (stroke : Stroke) (out : ω) : Except Fault Unit × ω :=
  match stroke with
  | .text s => Sink.write s out
  | .style s => Sink.setStyle s out
  | .plain => Sink.resetStyle out

def applyAll {ω : Type} [Sink ω] (strokes : List Stroke) (out : ω) : Except Fault Unit × ω :=
  match strokes with
  | [] => (.ok (), out)
  | stroke :: rest =>
    match stroke.apply out with
    | (.ok (), out) => applyAll rest out
    | (.error fault, out) => (.error fault, out)

end Stroke
end KernelLog
