import KernelLog.Kernel.Control
import KernelLog.Printer.TimeFormat
import KernelLog.Scan.Filter

/-!
This module contains the configuration of a session.
-/

namespace KernelLog

inductive BackendChoice where
  | kmsg
  | syslog
  | file (path : String)
  deriving Repr, DecidableEq

def BackendChoice.text : BackendChoice → String
  | .kmsg => "kmsg"
  | .syslog => "syslog"
  | .file path => "file " ++ quote path

inductive ColorChoice where
  | never
  | always
  | ansi
  | auto
  deriving Repr, DecidableEq

namespace ColorChoice

def inspect : ColorChoice → String
  | .never => "Never"
  | .always => "Always"
  | .ansi => "AlwaysAnsi"
  | .auto => "Auto"

end ColorChoice

structure Config where
  backend : BackendChoice
  action : ReadAction
  follow : Bool
  bufferSize : Option UInt64
  mode : OutputMode
  timeFormat : TimeFormat
  minSeverity : Level
  since : Timestamp
  render : Bool
  color : ColorChoice
  offset : Int
  deriving Repr, DecidableEq

inductive ConfigProblem where
  | severity (level : Level)
  | emptyBuffer
  | emptyPath
  | followFile
  deriving Repr, DecidableEq

def ConfigProblem.message : ConfigProblem → String
  | .severity level => "severity " ++ toString level ++ " exceeds maximum " ++ toString Level.max
  | .emptyBuffer => "buffer size must be at least 1, got 0"
  | .emptyPath => "file path is empty"
  | .followFile => "follow is not possible for a file"

namespace Config

/--
The default settings with a filter, where the clock has an offset. A level past the last one is replaced by the last
one.
-/
def new (minSeverity : Level) (since : Timestamp) (render : Bool) (offset : Int) : Config :=
  { backend := .kmsg
    action := .readAll
    follow := false
    bufferSize := none
    mode := .decoded
    timeFormat := .time
    minSeverity := min minSeverity Level.max
    since
    render
    color := .never
    offset }

def problem? (config : Config) : Option ConfigProblem :=
  if Level.max < config.minSeverity then
    some (.severity config.minSeverity)
  else if config.bufferSize = some 0 then
    some .emptyBuffer
  else
    match config.backend with
    | .file path =>
      if path.isEmpty then
        some .emptyPath
      else if config.follow then
        some .followFile
      else
        none
    | _ => none

def filter (config : Config) : Filter :=
  { minSeverity := config.minSeverity, since := config.since }

def device? (config : Config) : Option Bool :=
  match config.backend with
  | .kmsg => some config.follow
  | .syslog => none
  | .file _ => none

def needsBoot (config : Config) : Bool :=
  config.render && config.timeFormat.needsBoot

end Config
end KernelLog
