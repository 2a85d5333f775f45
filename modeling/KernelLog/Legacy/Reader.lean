import KernelLog.Kernel.Snapshot
import KernelLog.Legacy.MappedFile
import KernelLog.Legacy.Record
import KernelLog.Source

/-!
This module contains the reader of records in the legacy encoding, over a snapshot of the kernel's buffer or
over a mapped file.

A record ends at a newline directly before an opening angle bracket, or at the end of the buffer.
-/

namespace KernelLog.Legacy

inductive Buffer where
  | owned (snapshot : Snapshot)
  | mapped (file : MappedFile)
  deriving Repr, DecidableEq

structure Span where
  start : Nat
  stop : Nat
  next : Nat
  deriving Repr, DecidableEq

def boundary? (s : Octets) : Option Nat :=
  go 0 s
where
  go (i : Nat) : Octets → Option Nat
    | Octet.newline :: Octet.less :: _ => some i
    | _ :: rest => go (i + 1) rest
    | [] => none

def dropTrailingZeros (s : Octets) : Octets :=
  (s.reverse.dropWhile (· == Octet.nul)).reverse

namespace Buffer

def length : Buffer → Nat
  | .owned snapshot => snapshot.length
  | .mapped file => file.length

/--
The octets from an offset to the end. The padding of a snapshot is left out: zeros at the end are no part of
any record.
-/
def octetsFrom (buffer : Buffer) (offset : Nat) : Octets :=
  match buffer with
  | .owned snapshot => snapshot.text.drop offset
  | .mapped file => file.octetsFrom offset

/--
Give back the memory behind a cursor. Only a mapped file has pages to give back to the system.
-/
def release (buffer : Buffer) (granted : Bool) (cursor : Nat) : Buffer :=
  match buffer with
  | .owned snapshot => .owned snapshot
  | .mapped file => .mapped (file.release granted cursor)

def pagesReleased : Buffer → Nat
  | .owned _ => 0
  | .mapped file => file.pagesReleased

/--
The next record that is not empty, from an offset on. Zeros before it are stepped over. The last record of a
buffer keeps its newline and loses the zeros behind it.
-/
def span? (buffer : Buffer) (offset : Nat) : Option Span :=
  if buffer.length ≤ offset then
    none
  else
    let rest := buffer.octetsFrom offset
    let start := offset + (rest.takeWhile (· == Octet.nul)).length
    let text := rest.dropWhile (· == Octet.nul)
    if text.isEmpty then
      none
    else
      match boundary? text with
      | some 0 => span? buffer (start + 1)
      | some n => some { start, stop := start + n, next := start + n + 1 }
      | none =>
        some { start, stop := start + (dropTrailingZeros text).length, next := buffer.length }
termination_by buffer.length - offset

@[simp]
theorem length_release (buffer : Buffer) (granted : Bool) (cursor : Nat) :
    (buffer.release granted cursor).length = buffer.length := by
  cases buffer with
  | owned => rfl
  | mapped file => exact file.length_release granted cursor

theorem lt_next_of_span? (buffer : Buffer) (offset : Nat) (span : Span)
    (h : buffer.span? offset = some span) : offset < buffer.length ∧ offset < span.next := by
  fun_induction span? buffer offset with
  | case1 => simp at h
  | case2 => simp at h
  | case3 offset hlen rest start text _ _ ih =>
    have := ih h
    omega
  | case4 offset hlen rest start text _ n _ _ =>
    cases h
    dsimp only
    omega
  | case5 offset hlen =>
    cases h
    dsimp only
    omega

end Buffer

structure Reader where
  buffer : Buffer
  cursor : Nat
  decode : Decode
  records : Nat
  deriving Repr, DecidableEq

namespace Reader

def new (buffer : Buffer) (decode : Decode) : Reader :=
  { buffer, cursor := 0, decode, records := 0 }

def pullGranted (r : Reader) (granted : Bool) : Pull Record Fault × Reader :=
  let buffer := r.buffer.release granted r.cursor
  match buffer.span? r.cursor with
  | some span =>
    let line := (buffer.octetsFrom span.start).take (span.stop - span.start)
    (.found (Legacy.decode r.decode line),
      { r with buffer, cursor := span.next, records := r.records + 1 })
  | none => (.done, { r with buffer, cursor := buffer.length })

def pull (r : Reader) : Pull Record Fault × Reader :=
  r.pullGranted true

def backlog (r : Reader) : Nat :=
  r.buffer.length - r.cursor

theorem backlog_pull_lt (r : Reader) (h : r.pull.1.isFound) : r.pull.2.backlog < r.backlog := by
  unfold pull pullGranted at *
  dsimp only at *
  split at h
  . next span hspan =>
    have := Buffer.lt_next_of_span? _ _ _ hspan
    simp only [hspan, backlog, Buffer.length_release] at *
    omega
  . simp [Pull.isFound] at h

instance : Source Reader where
  pull := pull
  backlog := backlog
  backlog_pull_lt := backlog_pull_lt

end Reader
end KernelLog.Legacy
