import KernelLog.Kernel.Control

/-!
This module contains a kernel whose ring buffer nobody else writes to.
-/

namespace KernelLog

/--
A ring buffer: its text, the size that it claims to have, the number of reads to which it claims to fill the
room without writing anything, the faults of actions, and the calls made so far.
-/
structure RingBuffer where
  text : Octets
  size : UInt64
  full : Nat
  faults : List (ControlAction × Fault)
  calls : List (ControlAction × Nat)
  deriving Repr, DecidableEq

namespace RingBuffer

def copy (k : RingBuffer) (room : Nat) : Reply :=
  let (written, _) := k.text.splitAt room
  { count := UInt64.ofNat written.length, written }

def control (action : ControlAction) (room : Nat) (k : RingBuffer) : Except Fault Reply × RingBuffer :=
  let k := { k with calls := k.calls ++ [(action, room)] }
  match k.faults.lookup action with
  | some fault => (.error fault, k)
  | none =>
    match action with
    | .size => (.ok { count := k.size, written := [] }, k)
    | .clear => (.ok { count := 0, written := [] }, { k with text := [] })
    | .readAll | .readClear =>
      if 0 < k.full then
        (.ok { count := UInt64.ofNat room, written := [] }, { k with full := k.full - 1 })
      else
        (.ok (k.copy room), if action = .readClear then { k with text := [] } else k)

instance : Control RingBuffer where
  control := control

end RingBuffer

structure NoControl where
  deriving Repr, DecidableEq

instance : Control NoControl where
  control _ _ k := (.error { kind := .unsupported, message := "Function not implemented (os error 38)" }, k)

end KernelLog
