/-!
This module contains the faults that the system reports: of the kernel, of a device, of a file, or of what
is written to. One more is the program's own: a buffer that is too large to be made.
-/

namespace KernelLog

/--
The kind of a fault. `uncategorized` is a fault of the system without a kind of its own; `overflow` is a size that no
buffer can have, and ends the program.
-/
inductive FaultKind where
  | notFound
  | permissionDenied
  | notConnected
  | brokenPipe
  | wouldBlock
  | notADirectory
  | isADirectory
  | invalidInput
  | invalidData
  | timedOut
  | writeZero
  | storageFull
  | invalidFilename
  | interrupted
  | unsupported
  | unexpectedEof
  | outOfMemory
  | other
  | uncategorized
  | overflow
  deriving Repr, DecidableEq

namespace FaultKind

def all : List FaultKind :=
  [.notFound, .permissionDenied, .notConnected, .brokenPipe, .wouldBlock, .notADirectory, .isADirectory,
   .invalidInput, .invalidData, .timedOut, .writeZero, .storageFull, .invalidFilename, .interrupted,
   .unsupported, .unexpectedEof, .outOfMemory, .other, .uncategorized, .overflow]

def name : FaultKind → String
  | .notFound => "NotFound"
  | .permissionDenied => "PermissionDenied"
  | .notConnected => "NotConnected"
  | .brokenPipe => "BrokenPipe"
  | .wouldBlock => "WouldBlock"
  | .notADirectory => "NotADirectory"
  | .isADirectory => "IsADirectory"
  | .invalidInput => "InvalidInput"
  | .invalidData => "InvalidData"
  | .timedOut => "TimedOut"
  | .writeZero => "WriteZero"
  | .storageFull => "StorageFull"
  | .invalidFilename => "InvalidFilename"
  | .interrupted => "Interrupted"
  | .unsupported => "Unsupported"
  | .unexpectedEof => "UnexpectedEof"
  | .outOfMemory => "OutOfMemory"
  | .other => "Other"
  | .uncategorized => "Uncategorized"
  | .overflow => "Overflow"

def ofName? (s : String) : Option FaultKind :=
  all.find? fun kind => kind.name == s

def message : FaultKind → String
  | .notFound => "entity not found"
  | .permissionDenied => "permission denied"
  | .notConnected => "not connected"
  | .brokenPipe => "broken pipe"
  | .wouldBlock => "operation would block"
  | .notADirectory => "not a directory"
  | .isADirectory => "is a directory"
  | .invalidInput => "invalid input parameter"
  | .invalidData => "invalid data"
  | .timedOut => "timed out"
  | .writeZero => "write zero"
  | .storageFull => "no storage space"
  | .invalidFilename => "invalid filename"
  | .interrupted => "operation interrupted"
  | .unsupported => "unsupported"
  | .unexpectedEof => "unexpected end of file"
  | .outOfMemory => "out of memory"
  | .other => "other error"
  | .uncategorized => "uncategorized error"
  | .overflow => "capacity overflow"

end FaultKind

structure Fault where
  kind : FaultKind
  message : String
  deriving Repr, DecidableEq

def Fault.ofKind (kind : FaultKind) : Fault :=
  { kind, message := kind.message }

end KernelLog
