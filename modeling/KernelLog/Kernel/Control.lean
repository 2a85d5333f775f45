import KernelLog.Fault
import KernelLog.Kernel.Snapshot

/-!
This module contains the calls that read and clear the kernel's ring buffer.
-/

namespace KernelLog

inductive ControlAction where
  | readAll
  | readClear
  | clear
  | size
  deriving Repr, DecidableEq

namespace ControlAction

def number : ControlAction → Nat
  | .readAll => 3
  | .readClear => 4
  | .clear => 5
  | .size => 10

end ControlAction

/--
The answer of the kernel: a count, and what it wrote to the beginning of the buffer that it was given.
-/
structure Reply where
  count : UInt64
  written : Octets
  deriving Repr, DecidableEq

/--
A kernel that answers calls. `room` is the size of the buffer that it may write to.
-/
class Control (κ : Type) where
  control : ControlAction → (room : Nat) → κ → Except Fault Reply × κ

inductive ReadAction where
  | readAll
  | readClear
  deriving Repr, DecidableEq

namespace ReadAction

def name : ReadAction → String
  | .readAll => "read-all"
  | .readClear => "read-clear"

def action : ReadAction → ControlAction
  | .readAll => .readAll
  | .readClear => .readClear

end ReadAction

namespace Control

variable {κ : Type} [Control κ]

def firstRoom : Nat := 16392

/--
A read larger than this is not tried again with a larger one.
-/
def largestRoom : Nat := 1 <<< 28

def padding : UInt64 := 8

/--
A buffer has at most as many octets as a signed machine word counts.
-/
def largestBuffer : Nat := 1 <<< 63 - 1

/--
The room of a read with a known size. The sum has to fit into a machine word, and a buffer of that size has to exist.
-/
def room (size : UInt64) : Except Fault Nat :=
  let n := size.toNat + padding.toNat
  if UInt64.size ≤ n then
    .error { kind := .overflow, message := "attempt to add with overflow" }
  else if largestBuffer < n then
    .error (.ofKind .overflow)
  else
    .ok n

def bufferSize? (kernel : κ) : Option UInt64 × κ :=
  match control .size 0 kernel with
  | (.ok reply, kernel) => (if reply.count = 0 then none else some reply.count, kernel)
  | (.error _, kernel) => (none, kernel)

/--
Read everything, with four times the room whenever a read fills its room. The last room and the last answer
are returned.
-/
def grow (room : Nat) (hroom : 0 < room) (kernel : κ) : Except Fault (Nat × Reply) × κ :=
  match control .readAll room kernel with
  | (.error fault, kernel) => (.error fault, kernel)
  | (.ok reply, kernel) =>
    if reply.count.toNat ≠ room ∨ largestRoom < room then
      (.ok (room, reply), kernel)
    else
      grow (4 * room) (by omega) kernel
termination_by largestRoom + 1 - room

/--
Read the buffer without knowing its size. If it is to be cleared, it is read once more into the same room, and
cleared with that.
-/
def readGrowing (action : ReadAction) (kernel : κ) : Except Fault Snapshot × κ :=
  match grow firstRoom (by decide) kernel with
  | (.error fault, kernel) => (.error fault, kernel)
  | (.ok (room, reply), kernel) =>
    let buffer := (Snapshot.zeros room).overwrite reply.written
    if action = .readClear ∧ 0 < reply.count then
      match control .readClear room kernel with
      | (.error fault, kernel) => (.error fault, kernel)
      | (.ok reply, kernel) =>
        (.ok ((buffer.overwrite reply.written).truncate reply.count.toNat), kernel)
    else
      (.ok (buffer.truncate reply.count.toNat), kernel)

def read (action : ReadAction) (size : Option UInt64) (kernel : κ) : Except Fault Snapshot × κ :=
  match size with
  | none => readGrowing action kernel
  | some size =>
    if size = 0 then
      readGrowing action kernel
    else
      match room size with
      | .error fault => (.error fault, kernel)
      | .ok room =>
        match control action.action room kernel with
        | (.error fault, kernel) => (.error fault, kernel)
        | (.ok reply, kernel) =>
          (.ok (((Snapshot.zeros room).overwrite reply.written).truncate reply.count.toNat), kernel)

def clear (kernel : κ) : Except Fault Unit × κ :=
  match control .clear 0 kernel with
  | (.ok _, kernel) => (.ok (), kernel)
  | (.error fault, kernel) => (.error fault, kernel)

end Control
end KernelLog
