import KernelLog.Fault
import KernelLog.Text.Octet

/-!
This module contains the kernel's message device: what a reader asks of it, and three devices. One follows a
script, one reads a file, and one can be closed.
-/

namespace KernelLog.Kmsg

/--
What a read means to a reader. An empty read and one that would block both say that there is nothing now; a
record that was overwritten while it was read, and a read that was interrupted, are tried again.
-/
inductive Arrival where
  | record (raw : Octets)
  | dry
  | retry
  | failed (fault : Fault)
  deriving Repr, DecidableEq

namespace Arrival

def ofRead : Except Fault Octets → Arrival
  | .ok [] => .dry
  | .ok raw => .record raw
  | .error fault =>
    match fault.kind with
    | .wouldBlock => .dry
    | .brokenPipe | .interrupted => .retry
    | _ => .failed fault

def goesOn : Arrival → Bool
  | .record _ | .retry => true
  | .dry | .failed _ => false

end Arrival

/--
A message device. `read` gives one record of at most `room` octets; `wait` tells whether a record becomes
readable before long. The backlog bounds the number of reads after which the device may have more.
-/
class Device (δ : Type) where
  read : (room : Nat) → δ → Except Fault Octets × δ
  wait : δ → Except Fault Bool × δ
  backlog : δ → Nat
  backlog_read_le (room : Nat) (d : δ) : backlog (read room d).2 ≤ backlog d
  backlog_read_lt (room : Nat) (d : δ) :
    (Arrival.ofRead (read room d).1).goesOn → backlog (read room d).2 < backlog d
  backlog_wait_le (d : δ) : backlog (wait d).2 ≤ backlog d

/--
A device that follows a script of reads and of waits. Behind its end a read would block, and a wait tells
whether there are reads left. It counts the calls that it gets.
-/
structure Script where
  reads : List (Except Fault Octets)
  waits : List (Except Fault Bool)
  readCalls : Nat
  waitCalls : Nat

namespace Script

def ofLists (reads : List (Except Fault Octets)) (waits : List (Except Fault Bool)) : Script :=
  { reads, waits, readCalls := 0, waitCalls := 0 }

def append (s : Script) (reads : List (Except Fault Octets)) (waits : List (Except Fault Bool)) : Script :=
  { s with reads := s.reads ++ reads, waits := s.waits ++ waits }

def read (room : Nat) (s : Script) : Except Fault Octets × Script :=
  let counted := { s with readCalls := s.readCalls + 1 }
  match s.reads with
  | [] => (.error (.ofKind .wouldBlock), counted)
  | .ok raw :: reads => (.ok (raw.take room), { counted with reads })
  | .error fault :: reads => (.error fault, { counted with reads })

def wait (s : Script) : Except Fault Bool × Script :=
  let counted := { s with waitCalls := s.waitCalls + 1 }
  match s.waits with
  | [] => (.ok (!s.reads.isEmpty), counted)
  | outcome :: waits => (outcome, { counted with waits })

instance : Device Script where
  read := read
  wait := wait
  backlog s := s.reads.length
  backlog_read_le room s := by
    unfold read
    split <;> simp [*]
  backlog_read_lt room s := by
    unfold read
    split <;> simp [*, Arrival.ofRead, Arrival.goesOn, Fault.ofKind]
  backlog_wait_le s := by
    unfold wait
    split <;> simp

end Script

/--
A device over a file that is no message device: each read takes what there is room for, and a directory
cannot be read. Both are always readable.
-/
inductive FileDevice where
  | file (rest : Octets)
  | directory
  deriving Repr, DecidableEq

namespace FileDevice

def read (room : Nat) : FileDevice → Except Fault Octets × FileDevice
  | .file rest => (.ok (rest.take room), .file (rest.drop room))
  | .directory =>
    (.error { kind := .isADirectory, message := "Is a directory (os error 21)" }, .directory)

def backlog : FileDevice → Nat
  | .file rest => rest.length
  | .directory => 0

instance : Device FileDevice where
  read := read
  wait d := (.ok true, d)
  backlog := backlog
  backlog_read_le room d := by
    cases d <;> simp [read, backlog]
  backlog_read_lt room d := by
    cases d with
    | file rest =>
      intro h
      have hne : rest.take room ≠ [] := by
        intro hnil
        simp [read, hnil, Arrival.ofRead, Arrival.goesOn] at h
      have := List.length_pos_iff.mpr hne
      simp only [read, backlog, List.length_drop, List.length_take] at *
      omega
    | directory => simp [read, Arrival.ofRead, Arrival.goesOn]
  backlog_wait_le _ := Nat.le_refl _

end FileDevice

inductive Closable (δ : Type) where
  | opened (device : δ)
  | closed

namespace Closable

variable {δ : Type}

def isClosed : Closable δ → Bool
  | .opened _ => false
  | .closed => true

def close (_ : Closable δ) : Closable δ :=
  .closed

def fault : Fault :=
  { kind := .notConnected, message := "kmsg device is closed" }

instance [Device δ] : Device (Closable δ) where
  read room
    | .opened d => let (result, d) := Device.read room d; (result, .opened d)
    | .closed => (.error fault, .closed)
  wait
    | .opened d => let (result, d) := Device.wait d; (result, .opened d)
    | .closed => (.error fault, .closed)
  backlog
    | .opened d => Device.backlog d
    | .closed => 0
  backlog_read_le room d := by
    cases d with
    | opened d => exact Device.backlog_read_le room d
    | closed => exact Nat.le_refl _
  backlog_read_lt room d := by
    cases d with
    | opened d => exact Device.backlog_read_lt room d
    | closed => simp [Arrival.ofRead, Arrival.goesOn, fault]
  backlog_wait_le d := by
    cases d with
    | opened d => exact Device.backlog_wait_le d
    | closed => exact Nat.le_refl _

end Closable
end KernelLog.Kmsg
