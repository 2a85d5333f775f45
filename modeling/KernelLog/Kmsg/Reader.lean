import KernelLog.Kmsg.Device
import KernelLog.Kmsg.Header
import KernelLog.Source

/-!
This module contains the reader of the message device. The kernel may give a long line as several records,
which the reader joins again into one.
-/

namespace KernelLog.Kmsg

/--
The size of the buffer for one record, and the largest size of a joined message.
-/
def bufferSize : Nat := 8192

structure Fragment where
  header : Header
  message : Octets
  deriving Repr, DecidableEq

def Fragment.append (f : Fragment) (message : Octets) : Fragment :=
  { f with message := f.message ++ message.take (bufferSize - f.message.length) }

/--
A reader of a device. `saved` is a record that was read and is to be decoded next; `parked` is a fault to be
reported next. The fragment that the last pull returned stays visible, and is `returned`, until the next pull.
-/
structure Reader (δ : Type) where
  device : δ
  follow : Bool
  saved : Option Octets
  fragment : Option Fragment
  returned : Bool
  parked : Option Fault
  reads : Nat
  retries : Nat
  fragments : Nat
  overflows : Nat
  records : Nat

inductive Gathered where
  | physical (p : Physical)
  | fragment (f : Fragment)
  | done
  | failed (fault : Fault)
  deriving Repr, DecidableEq

namespace Gathered

def toPull : Gathered → Pull Record Fault
  | .physical p => .found p.toRecord
  | .fragment f => .found (f.header.toRecord f.message)
  | .done => .done
  | .failed fault => .failed fault

end Gathered

namespace Reader

variable {δ : Type}

def new (device : δ) (follow : Bool) : Reader δ :=
  { device
    follow
    saved := none
    fragment := none
    returned := false
    parked := none
    reads := 0
    retries := 0
    fragments := 0
    overflows := 0
    records := 0 }

/--
Join a record to the fragment, or begin a fragment with it. Octets past the buffer size are dropped, and the
record is counted as an overflow.
-/
def join (r : Reader δ) (p : Physical) : Fragment × Reader δ :=
  let begun := r.fragment.getD { header := p.header, message := [] }
  let fragment := begun.append p.message
  (fragment,
    { r with
      fragment := some fragment
      fragments := r.fragments + 1
      overflows :=
        if bufferSize - begun.message.length < p.message.length then r.overflows + 1 else r.overflows })

/--
Take in one record. A record that continues a line is joined, and more is needed. The last record of a line
is joined to a fragment, and completes it. A record without a known flag completes a fragment too, but is no
part of it, and is saved. Without a fragment, either of the two stands for itself.
-/
def takeIn (r : Reader δ) (raw : Octets) : Option Gathered × Reader δ :=
  let p := Physical.decode raw
  match p.header.flag, r.fragment with
  | .start, _ | .more, _ =>
    let (_, r) := r.join p
    (none, r)
  | .last, some _ =>
    let (fragment, r) := r.join p
    (some (.fragment fragment), r)
  | .flush, some fragment => (some (.fragment fragment), { r with saved := some raw })
  | .last, none | .flush, none => (some (.physical p), r)

def atEnd (r : Reader δ) : Gathered :=
  match r.fragment with
  | some fragment => .fragment fragment
  | none => .done

/--
A fault. A fragment is complete and comes first; the fault is parked.
-/
def onFault (r : Reader δ) (fault : Fault) : Gathered × Reader δ :=
  match r.fragment with
  | some fragment => (.fragment fragment, { r with parked := some fault })
  | none => (.failed fault, r)

/--
Wait for the rest of a fragment, if the reader follows the device. No rest within the time, and a fault of the
wait, both complete the fragment.
-/
def awaitRest [Device δ] (r : Reader δ) : Option Gathered × Reader δ :=
  match r.follow, r.fragment with
  | true, some fragment =>
    let (outcome, device) := Device.wait r.device
    let r := { r with device }
    match outcome with
    | .ok true => (none, r)
    | .ok false => (some (.fragment fragment), r)
    | .error fault => (some (.fragment fragment), { r with parked := some fault })
  | _, _ => (none, r)

def receive (r : Reader δ) : Arrival → Option Gathered × Reader δ
  | .record raw => { r with reads := r.reads + 1 }.takeIn raw
  | .retry => (none, { r with retries := r.retries + 1 })
  | .dry => (some r.atEnd, r)
  | .failed fault =>
    let (gathered, r) := r.onFault fault
    (some gathered, r)

def readOnce [Device δ] (r : Reader δ) : Option Gathered × Reader δ :=
  let (outcome, device) := Device.read bufferSize r.device
  { r with device }.receive (.ofRead outcome)

def turn [Device δ] (r : Reader δ) : Option Gathered × Reader δ :=
  match r.awaitRest with
  | (some gathered, r) => (some gathered, r)
  | (none, r) => r.readOnce

theorem backlog_awaitRest_le [Device δ] (r : Reader δ) :
    Device.backlog r.awaitRest.2.device ≤ Device.backlog r.device := by
  unfold awaitRest
  split
  . have := Device.backlog_wait_le r.device
    dsimp only
    split <;> exact this
  . exact Nat.le_refl _

@[simp]
theorem device_takeIn (r : Reader δ) (raw : Octets) : (r.takeIn raw).2.device = r.device := by
  unfold takeIn
  dsimp only
  split <;> rfl

@[simp]
theorem device_onFault (r : Reader δ) (fault : Fault) : (r.onFault fault).2.device = r.device := by
  unfold onFault
  split <;> rfl

@[simp]
theorem device_receive (r : Reader δ) (a : Arrival) : (r.receive a).2.device = r.device := by
  cases a with
  | record raw => exact device_takeIn _ raw
  | retry => rfl
  | dry => rfl
  | failed fault => exact device_onFault r fault

theorem goesOn_of_receive_eq_none (r : Reader δ) (a : Arrival) (h : (r.receive a).1 = none) :
    a.goesOn := by
  cases a with
  | record raw => rfl
  | retry => rfl
  | dry => simp [receive] at h
  | failed fault => simp [receive] at h

theorem backlog_turn_lt [Device δ] (r : Reader δ) (h : r.turn.1 = none) :
    Device.backlog r.turn.2.device < Device.backlog r.device := by
  have hwait := backlog_awaitRest_le r
  unfold turn at *
  split at h
  . simp at h
  . next waited heq =>
    rw [heq] at hwait
    simp only [readOnce, device_receive]
    exact Nat.lt_of_lt_of_le
      (Device.backlog_read_lt bufferSize waited.device (goesOn_of_receive_eq_none _ _ h)) hwait

def gather [Device δ] (r : Reader δ) : Gathered × Reader δ :=
  match _h : r.turn with
  | (some gathered, r') => (gathered, r')
  | (none, r') => r'.gather
termination_by Device.backlog r.device
decreasing_by
  have := backlog_turn_lt r (by rw [_h])
  simpa only [_h] using this

def gatherSaved [Device δ] (r : Reader δ) : Gathered × Reader δ :=
  match r.saved with
  | some raw =>
    match { r with saved := none }.takeIn raw with
    | (some gathered, r) => (gathered, r)
    | (none, r) => r.gather
  | none => r.gather

def forget (r : Reader δ) : Reader δ :=
  if r.returned then { r with fragment := none, returned := false } else r

def deliver (r : Reader δ) : Gathered → Reader δ
  | .physical _ => { r with records := r.records + 1 }
  | .fragment _ => { r with returned := true, records := r.records + 1 }
  | .done | .failed _ => r

def advance [Device δ] (r : Reader δ) : Gathered × Reader δ :=
  let r := r.forget
  match r.parked with
  | some fault => (.failed fault, { r with parked := none })
  | none =>
    let (gathered, r) := r.gatherSaved
    (gathered, r.deliver gathered)

def pull [Device δ] (r : Reader δ) : Pull Record Fault × Reader δ :=
  let (gathered, r) := r.advance
  (gathered.toPull, r)

/--
Open a device with a first read. A device that has nothing yet is fine, and one whose first read fails is
not.
-/
def openDevice [Device δ] (device : δ) (follow : Bool) : Except Fault (Reader δ) :=
  go (new device follow)
where
  go (r : Reader δ) : Except Fault (Reader δ) :=
    let read := Device.read bufferSize r.device
    let r' := { r with device := read.2 }
    match _harrival : Arrival.ofRead read.1 with
    | .record raw => .ok { r' with saved := some raw, reads := r'.reads + 1 }
    | .retry => go { r' with retries := r'.retries + 1 }
    | .dry => .ok r'
    | .failed fault => .error fault
  termination_by Device.backlog r.device
  decreasing_by
    refine Device.backlog_read_lt bufferSize r.device ?_
    simp only [read] at _harrival
    simp [_harrival, Arrival.goesOn]

def inspect (r : Reader δ) : String :=
  Inspect.fields "KmsgReader"
    [("follow", Inspect.bool r.follow),
     ("saved", Inspect.option (fun raw => toString raw.length) r.saved),
     ("fragment", toString ((r.fragment.map (·.message.length)).getD 0)),
     ("fragment_header", Inspect.option (fun f => f.header.inspect) r.fragment),
     ("reads", toString r.reads),
     ("retries", toString r.retries),
     ("fragment_overflows", toString r.overflows),
     ("records", toString r.records)]

end Reader
end KernelLog.Kmsg
