import KernelLog.Calendar

/-!
This module contains the choices of what is printed in front of a message.
-/

namespace KernelLog

inductive TimeFormat where
  | noTime
  | ctime
  | ctimeDelta
  | delta
  | reltime
  | time
  | timeDelta
  | iso
  deriving Repr, DecidableEq

namespace TimeFormat

def all : List TimeFormat :=
  [.noTime, .ctime, .ctimeDelta, .delta, .reltime, .time, .timeDelta, .iso]

def name : TimeFormat → String
  | .noTime => "notime"
  | .ctime => "ctime"
  | .ctimeDelta => "ctime-delta"
  | .delta => "delta"
  | .reltime => "reltime"
  | .time => "time"
  | .timeDelta => "time-delta"
  | .iso => "iso"

def inspect : TimeFormat → String
  | .noTime => "None"
  | .ctime => "Ctime"
  | .ctimeDelta => "CtimeDelta"
  | .delta => "Delta"
  | .reltime => "Reltime"
  | .time => "Time"
  | .timeDelta => "TimeDelta"
  | .iso => "Iso8601"

def ofName (s : String) : Except String TimeFormat :=
  match all.find? (·.name == s) with
  | some format => .ok format
  | none => .error ("unknown time format: " ++ s)

def needsBoot : TimeFormat → Bool
  | .ctime | .ctimeDelta | .reltime | .iso => true
  | .noTime | .delta | .time | .timeDelta => false

def usesDelta : TimeFormat → Bool
  | .ctimeDelta | .delta | .reltime | .timeDelta => true
  | .noTime | .ctime | .time | .iso => false

def resolve (format : TimeFormat) (boot : Option Instant) : TimeFormat :=
  if format.needsBoot && boot.isNone then .noTime else format

end TimeFormat

inductive OutputMode where
  | raw
  | decoded
  deriving Repr, DecidableEq

namespace OutputMode

def name : OutputMode → String
  | .raw => "raw"
  | .decoded => "decoded"

def inspect : OutputMode → String
  | .raw => "Raw"
  | .decoded => "Decoded"

def ofName (s : String) : Except String OutputMode :=
  if s = "raw" then
    .ok .raw
  else if s = "decoded" then
    .ok .decoded
  else
    .error ("unknown output mode: " ++ s)

end OutputMode
end KernelLog
