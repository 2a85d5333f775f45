import KernelLog.Kmsg.Backlog
import KernelLog.Legacy.Reader
import KernelLog.Scan.Error
import KernelLog.Session.Config
import KernelLog.Storage

/-!
This module contains the sources of a session and how they are opened.
-/

namespace KernelLog

inductive Backend (δ : Type) where
  | kmsg (reader : Kmsg.Reader δ)
  | syslog (reader : Legacy.Reader)
  | file (reader : Legacy.Reader)

def Legacy.Reader.openSyslog {κ : Type} [Control κ] (action : ReadAction) (size : Option UInt64)
    (kernel : κ) : Except ScanError Legacy.Reader × κ :=
  let (size, kernel) :=
    match size with
    | some size => (some size, kernel)
    | none => Control.bufferSize? kernel
  match Control.read action size kernel with
  | (.ok snapshot, kernel) => (.ok (.new (.owned snapshot) .full), kernel)
  | (.error fault, kernel) => (.error (.acquire .syslog fault), kernel)

def Legacy.Reader.openFile (storage : Storage) (path : String) : Except ScanError Legacy.Reader :=
  match storage.map path with
  | .ok file => .ok (.new (.mapped file) .full)
  | .error fault => .error (.acquire .file fault)

namespace Backend

variable {δ : Type}

def name : Backend δ → BackendName
  | .kmsg _ => .kmsg
  | .syslog _ => .syslog
  | .file _ => .file

def records : Backend δ → Nat
  | .kmsg reader => reader.records
  | .syslog reader => reader.records
  | .file reader => reader.records

instance [Kmsg.Device δ] : Source (Backend δ) where
  pull
    | .kmsg reader => let (result, reader) := reader.pull; (result, .kmsg reader)
    | .syslog reader => let (result, reader) := reader.pull; (result, .syslog reader)
    | .file reader => let (result, reader) := reader.pull; (result, .file reader)
  backlog
    | .kmsg reader => reader.backlog
    | .syslog reader => reader.backlog
    | .file reader => reader.backlog
  backlog_pull_lt b := by
    cases b with
    | kmsg reader => exact reader.backlog_pull_lt
    | syslog reader => exact reader.backlog_pull_lt
    | file reader => exact reader.backlog_pull_lt

def openDevice? [Kmsg.Device δ] (openDevice : Bool → Except Fault δ) (follow : Bool) :
    Option (Kmsg.Reader δ) :=
  match openDevice follow with
  | .ok device => (Kmsg.Reader.openDevice device follow).toOption
  | .error _ => none

def acquire {κ : Type} [Kmsg.Device δ] [Control κ] (config : Config)
    (openDevice : Bool → Except Fault δ) (storage : Storage) (kernel : κ) :
    Except ScanError (Backend δ) × κ :=
  match config.backend with
  | .kmsg =>
    match openDevice? openDevice config.follow with
    | some reader => (.ok (.kmsg reader), kernel)
    | none => openBuffer kernel
  | .syslog => openBuffer kernel
  | .file path => ((Legacy.Reader.openFile storage path).map .file, kernel)
where
  openBuffer (kernel : κ) : Except ScanError (Backend δ) × κ :=
    let (result, kernel) := Legacy.Reader.openSyslog config.action config.bufferSize kernel
    (result.map .syslog, kernel)

end Backend
end KernelLog
