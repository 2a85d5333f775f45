import KernelLog.Scan.Basic
import KernelLog.Session.Backend

/-!
This module contains sessions: a source that is chosen once and then scanned, any number of times.
-/

namespace KernelLog

/--
A session. The start of the kernel is known only if it is needed; `matched` counts the accepted records of all
scans that succeeded.
-/
structure Session (δ κ : Type) where
  config : Config
  backend : Backend δ
  kernel : κ
  boot : Option Instant
  matched : Nat

namespace Session

variable {δ κ ω : Type}

def start [Kmsg.Device δ] [Control κ] (config : Config) (openDevice : Bool → Except Fault δ)
    (storage : Storage) (boot : Option Instant) (kernel : κ) : Except ScanError (Session δ κ) :=
  match config.problem? with
  | some problem => .error (.config problem.message)
  | none =>
    match Backend.acquire config openDevice storage kernel with
    | (.error error, _) => .error error
    | (.ok backend, kernel) =>
      .ok
        { config
          backend
          kernel
          boot := if config.needsBoot then boot else none
          matched := 0 }

def timeFormat (s : Session δ κ) : TimeFormat :=
  s.config.timeFormat.resolve s.boot

def printer (s : Session δ κ) (out : ω) (color : Bool) : Printer ω :=
  let layout :=
    { mode := s.config.mode
      format := s.timeFormat
      boot := s.boot
      offset := s.config.offset }
  Printer.new layout color out

/--
The buffer of the kernel is to be cleared after a scan. A session over a snapshot has cleared it already when
it was read.
-/
def clearsAfterScan (s : Session δ κ) : Bool :=
  match s.backend with
  | .kmsg _ => s.config.action = .readClear
  | .syslog _ => false
  | .file _ => false

/--
Scan the source. After a scan that succeeds its records are counted, and the buffer is cleared if it is to be;
whether that succeeds does not matter.
-/
def scan [Kmsg.Device δ] [Control κ] [Sink ω] (s : Session δ κ) (printer : Option (Printer ω)) :
    (Except ScanError Nat × Option (Printer ω)) × Session δ κ :=
  let (result, backend, printer) := KernelLog.scan s.backend s.config.filter printer
  let s := { s with backend }
  match result with
  | .error _ => ((result, printer), s)
  | .ok count =>
    let s := { s with matched := s.matched + count }
    let s := if s.clearsAfterScan then { s with kernel := (Control.clear s.kernel).2 } else s
    ((result, printer), s)

end Session
end KernelLog
