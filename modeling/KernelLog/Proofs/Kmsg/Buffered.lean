import KernelLog.Kmsg.Reader
import KernelLog.Proofs.Kmsg.Header
import Mathlib.Data.Nat.PSub

/-!
This module contains a reader with buffers of a fixed size. It reads into the same buffer each time, reverses the
escapes of a message where it stands, and joins lines in another buffer. It takes octets at indices only, and there is
no result if one of them is out of range.
-/

namespace KernelLog

namespace Octets

def slice? (s : Octets) (start stop : Nat) : Option Octets :=
  if start ≤ stop ∧ stop ≤ s.length then some ((s.take stop).drop start) else none

def overwrite? (s front : Octets) : Option Octets :=
  (s.from? front.length).map (front ++ ·)

end Octets

namespace Kmsg

variable {δ : Type}

/--
A reader with buffers. The first `length` octets of `buffer` are the record that was read last, and behind them stands
what earlier records have left. `fragment` holds what has been joined so far; there is a fragment if there is a
`header`.
-/
structure Buffered (δ : Type) where
  device : δ
  follow : Bool
  buffer : Octets
  length : Nat
  saved : Option Octets
  fragment : Octets
  header : Option Header
  returned : Bool
  parked : Option Fault
  reads : Nat
  retries : Nat
  fragments : Nat
  overflows : Nat
  records : Nat

inductive Next where
  | physical (header : Header) (start stop : Nat)
  | fragment
  | done
  | failed (fault : Fault)
  deriving Repr, DecidableEq

namespace Buffered

def new (device : δ) (follow : Bool) : Buffered δ :=
  { device
    follow
    buffer := List.replicate bufferSize 0
    length := 0
    saved := none
    fragment := []
    header := none
    returned := false
    parked := none
    reads := 0
    retries := 0
    fragments := 0
    overflows := 0
    records := 0 }

def load? (b : Buffered δ) (raw : Octets) : Option (Buffered δ) := do
  let buffer ← b.buffer.overwrite? raw
  return { b with buffer, length := raw.length }

def unescape? (b : Buffered δ) (start stop : Nat) : Option (Nat × Buffered δ) := do
  let escaped ← b.buffer.slice? start stop
  let (unescaped, length) := Escape.unhexInPlace escaped.toArray
  return (start + length, { b with buffer := b.buffer.take start ++ unescaped.toList ++ b.buffer.drop stop })

def append? (b : Buffered δ) (header : Header) (start stop : Nat) : Option (Buffered δ) := do
  let (stop, b) ← b.unescape? start stop
  let room ← Nat.psub bufferSize b.fragment.length
  let length ← Nat.psub stop start
  let message ← b.buffer.slice? start (start + min length room)
  return { b with
    fragment := b.fragment ++ message
    header := some (b.header.getD header)
    fragments := b.fragments + 1
    overflows := if room < length then b.overflows + 1 else b.overflows }

def takeIn? (b : Buffered δ) : Option (Option Next × Buffered δ) := do
  let raw ← b.buffer.slice? 0 b.length
  let (header, start, stop) ← Physical.walk? raw
  match header.flag, b.header with
  | .start, _ | .more, _ => return (none, ← b.append? header start stop)
  | .last, some _ => return (some .fragment, ← b.append? header start stop)
  | .flush, some _ => return (some .fragment, { b with saved := some raw })
  | .last, none | .flush, none =>
    let (stop, b) ← b.unescape? start stop
    return (some (.physical header start stop), b)

def atEnd (b : Buffered δ) : Next :=
  match b.header with
  | some _ => .fragment
  | none => .done

def onFault (b : Buffered δ) (fault : Fault) : Next × Buffered δ :=
  match b.header with
  | some _ => (.fragment, { b with parked := some fault })
  | none => (.failed fault, b)

def awaitRest [Device δ] (b : Buffered δ) : Option Next × Buffered δ :=
  match b.follow, b.header with
  | true, some _ =>
    let (outcome, device) := Device.wait b.device
    let b := { b with device }
    match outcome with
    | .ok true => (none, b)
    | .ok false => (some .fragment, b)
    | .error fault => (some .fragment, { b with parked := some fault })
  | _, _ => (none, b)

def receive? (b : Buffered δ) : Arrival → Option (Option Next × Buffered δ)
  | .record raw => do (← { b with reads := b.reads + 1 }.load? raw).takeIn?
  | .retry => some (none, { b with retries := b.retries + 1 })
  | .dry => some (some b.atEnd, b)
  | .failed fault =>
    let (next, b) := b.onFault fault
    some (some next, b)

/--
Read into the buffer. `litter` is what the call leaves in the buffer besides the record that it gives.
-/
def readOnce? [Device δ] (litter : δ → Octets → Octets) (b : Buffered δ) : Option (Option Next × Buffered δ) :=
  let (outcome, device) := Device.read b.buffer.length b.device
  { b with device, buffer := litter b.device b.buffer }.receive? (.ofRead outcome)

def turn? [Device δ] (litter : δ → Octets → Octets) (b : Buffered δ) : Option (Option Next × Buffered δ) :=
  match b.saved with
  | some raw => do (← { b with saved := none }.load? raw).takeIn?
  | none =>
    match b.awaitRest with
    | (some next, b) => some (some next, b)
    | (none, b) => b.readOnce? litter

section

variable {b b' : Buffered δ}

theorem kept_load? {raw : Octets} (h : b.load? raw = some b') : b'.device = b.device ∧ b'.saved = b.saved := by
  obtain ⟨buffer, -, heq⟩ := Option.bind_eq_some_iff.mp h
  cases heq
  exact ⟨rfl, rfl⟩

theorem kept_unescape? {start stop stop' : Nat} (h : b.unescape? start stop = some (stop', b')) :
    b'.device = b.device ∧ b'.saved = b.saved := by
  obtain ⟨escaped, -, heq⟩ := Option.bind_eq_some_iff.mp h
  cases heq
  exact ⟨rfl, rfl⟩

theorem kept_append? {header : Header} {start stop : Nat} (h : b.append? header start stop = some b') :
    b'.device = b.device ∧ b'.saved = b.saved := by
  obtain ⟨⟨stop', unescaped⟩, hunescape, h⟩ := Option.bind_eq_some_iff.mp h
  obtain ⟨room, -, h⟩ := Option.bind_eq_some_iff.mp h
  obtain ⟨length, -, h⟩ := Option.bind_eq_some_iff.mp h
  obtain ⟨message, -, heq⟩ := Option.bind_eq_some_iff.mp h
  cases heq
  obtain ⟨hdevice, hsaved⟩ := kept_unescape? hunescape
  exact ⟨hdevice, hsaved⟩

theorem kept_takeIn? (h : b.takeIn? = some (none, b')) : b'.device = b.device ∧ b'.saved = b.saved := by
  obtain ⟨raw, -, h⟩ := Option.bind_eq_some_iff.mp h
  obtain ⟨⟨header, start, stop⟩, -, h⟩ := Option.bind_eq_some_iff.mp h
  dsimp only at h
  split at h
  . obtain ⟨appended, happend, heq⟩ := Option.bind_eq_some_iff.mp h
    cases heq
    exact kept_append? happend
  . obtain ⟨appended, happend, heq⟩ := Option.bind_eq_some_iff.mp h
    cases heq
    exact kept_append? happend
  -- the other records tell what to give
  . obtain ⟨appended, -, heq⟩ := Option.bind_eq_some_iff.mp h
    cases heq
  . cases h
  . obtain ⟨⟨stop', unescaped⟩, -, heq⟩ := Option.bind_eq_some_iff.mp h
    cases heq
  . obtain ⟨⟨stop', unescaped⟩, -, heq⟩ := Option.bind_eq_some_iff.mp h
    cases heq

theorem kept_load?_takeIn? {raw : Octets} (h : (do (← b.load? raw).takeIn?) = some (none, b')) :
    b'.device = b.device ∧ b'.saved = b.saved := by
  obtain ⟨loaded, hload, htake⟩ := Option.bind_eq_some_iff.mp h
  obtain ⟨hdevice, hsaved⟩ := kept_load? hload
  obtain ⟨hdevice', hsaved'⟩ := kept_takeIn? htake
  exact ⟨hdevice'.trans hdevice, hsaved'.trans hsaved⟩

theorem kept_receive? {a : Arrival} (h : b.receive? a = some (none, b')) :
    a.goesOn ∧ b'.device = b.device ∧ b'.saved = b.saved := by
  cases a with
  | record raw =>
    obtain ⟨hdevice, hsaved⟩ := kept_load?_takeIn? h
    exact ⟨rfl, hdevice, hsaved⟩
  | retry =>
    cases h
    exact ⟨rfl, rfl, rfl⟩
  | dry => cases h
  | failed fault => cases h

variable [Device δ] {litter : δ → Octets → Octets}

theorem backlog_awaitRest_le (b : Buffered δ) :
    Device.backlog b.awaitRest.2.device ≤ Device.backlog b.device ∧ b.awaitRest.2.saved = b.saved := by
  unfold awaitRest
  split
  . have := Device.backlog_wait_le b.device
    dsimp only
    split <;> exact ⟨this, rfl⟩
  . exact ⟨Nat.le_refl _, rfl⟩

def backlog (b : Buffered δ) : Nat :=
  Device.backlog b.device + b.saved.toList.length

theorem turn?_none (h : b.turn? litter = some (none, b')) : b'.saved = none ∧ b'.backlog < b.backlog := by
  unfold turn? at h
  unfold backlog
  split at h
  . next raw hraw =>
    obtain ⟨hdevice, hsaved⟩ := kept_load?_takeIn? h
    rw [hdevice, hsaved, hraw]
    exact ⟨rfl, Nat.lt_succ_self _⟩
  . next hnone =>
    obtain ⟨hwait, hwaited⟩ := backlog_awaitRest_le b
    split at h
    . cases h
    . next waited heq =>
      rw [heq] at hwait hwaited
      obtain ⟨hgoesOn, hdevice, hsaved⟩ := kept_receive? h
      rw [hdevice, hsaved, hwaited, hnone]
      exact ⟨rfl, Nat.lt_of_lt_of_le (Device.backlog_read_lt _ _ hgoesOn) hwait⟩

variable (litter) in
def gather? (b : Buffered δ) : Option (Next × Buffered δ) :=
  match _h : b.turn? litter with
  | some (none, b') => b'.gather?
  | some (some next, b') => some (next, b')
  | none => none
termination_by b.backlog
decreasing_by exact (turn?_none _h).2

theorem gather?_of_turn?_none (h : b.turn? litter = some (none, b')) : b.gather? litter = b'.gather? litter := by
  rw [gather?, h]

theorem gather?_of_turn?_some {next : Next} (h : b.turn? litter = some (some next, b')) :
    b.gather? litter = some (next, b') := by
  rw [gather?, h]

end

def forget (b : Buffered δ) : Buffered δ :=
  if b.returned then { b with fragment := [], header := none, returned := false } else b

def deliver? (b : Buffered δ) : Next → Option (Pull Record Fault × Buffered δ)
  | .physical header start stop => do
    let message ← b.buffer.slice? start stop
    return (.found (header.toRecord message), { b with records := b.records + 1 })
  | .fragment =>
    some (.found ((b.header.getD .empty).toRecord b.fragment), { b with returned := true, records := b.records + 1 })
  | .done => some (.done, b)
  | .failed fault => some (.failed fault, b)

def pull? [Device δ] (litter : δ → Octets → Octets) (b : Buffered δ) : Option (Pull Record Fault × Buffered δ) := do
  let b := b.forget
  match b.parked with
  | some fault => return (.failed fault, { b with parked := none })
  | none =>
    let (next, b) ← b.gather? litter
    b.deliver? next

def pulls? [Device δ] (litter : δ → Octets → Octets) (meanwhile : Nat → δ → δ) (b : Buffered δ) :
    Nat → Option (Pull Record Fault × Buffered δ)
  | 0 => b.pull? litter
  | n + 1 => do
    let (_, b) ← pulls? litter meanwhile b n
    { b with device := meanwhile n b.device }.pull? litter

end Buffered
end Kmsg
end KernelLog
