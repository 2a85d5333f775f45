import KernelLog.Fault

/-!
This module contains the errors that end a scan. Malformed records are no errors.
-/

namespace KernelLog

inductive BackendName where
  | kmsg
  | syslog
  | file
  deriving Repr, DecidableEq

def BackendName.text : BackendName → String
  | .kmsg => "kmsg"
  | .syslog => "syslog"
  | .file => "file"

inductive ScanError where
  | acquire (backend : BackendName) (fault : Fault)
  | write (fault : Fault)
  | config (reason : String)
  deriving Repr, DecidableEq

namespace ScanError

def message : ScanError → String
  | .acquire backend fault => "read kernel buffer failed (" ++ backend.text ++ "): " ++ fault.message
  | .write fault => "write failed: " ++ fault.message
  | .config reason => "configuration error: " ++ reason

def status : ScanError → Nat
  | .acquire _ fault => if fault.kind = .overflow then 101 else 1
  | .write _ => 1
  | .config _ => 1

def source? : ScanError → Option Fault
  | .acquire _ fault => some fault
  | .write fault => some fault
  | .config _ => none

end ScanError
end KernelLog
