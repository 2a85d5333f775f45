import KernelLog.Priority
import KernelLog.Text.Utf8
import KernelLog.Timestamp.Text

/-!
This module contains the records of the kernel log and the flag that tells how a record of the device
continues the one before it.
-/

namespace KernelLog

/--
How a device record stands to the line it belongs to.
-/
inductive Flag where
  | last
  | start
  | more
  /-- The record has no known flag; a line begun before it is over. -/
  | flush
  deriving Repr, DecidableEq

namespace Flag

def name : Flag → String
  | .last => "None"
  | .start => "ContinuationStart"
  | .more => "ContinuationMore"
  | .flush => "ForcedFlush"

def ofOctet? : Option UInt8 → Flag
  | some Octet.minus => .last
  | some Octet.lowerC => .start
  | some Octet.plus => .more
  | _ => .flush

def isContinuation : Flag → Bool
  | .start | .more => true
  | .last | .flush => false

end Flag

structure Record where
  message : Octets
  priority : Option Priority
  level : Option Level
  facility : Option Facility
  timestamp : Option Timestamp
  sequence : Option UInt64
  flag : Flag
  deriving Repr, DecidableEq

namespace Record

def ofMessage (message : Octets) : Record :=
  { message
    priority := none
    level := none
    facility := none
    timestamp := none
    sequence := none
    flag := .last }

def withPriority (r : Record) (p : Priority) : Record :=
  { r with priority := some p, level := some p.level, facility := p.facility? }

def time (r : Record) : Timestamp :=
  r.timestamp.getD .zero

def inspect (r : Record) : String :=
  Inspect.fields "RawRecord"
    [("priority", Inspect.option (fun p => toString p.toNat) r.priority),
     ("level", Inspect.option toString r.level),
     ("facility", Inspect.option toString r.facility),
     ("timestamp", Inspect.option Timestamp.inspect r.timestamp),
     ("sequence", Inspect.option (fun n => toString n.toNat) r.sequence),
     ("flag", r.flag.name),
     ("message", quote (Utf8.lossy r.message))]

end Record
end KernelLog
