import KernelLog.CommandLine.Run
import KernelLog.Kernel.RingBuffer
import KernelLog.Kernel.Statistics
import KernelLog.Printer.Tape

/-!
This module contains the program. It reads the file that the arguments name, runs on it, and then writes what the
run has printed. The running kernel is out of its reach: its device cannot be opened, and its buffer cannot be
read. It prints universal time.
-/

namespace KernelLog.CommandLine

def readEntry (path : String) : IO (Except Fault Entry) := do
  match ← (IO.FS.readBinFile path).toBaseIO with
  | .ok contents => return .ok (.file contents.toList)
  | .error (.noFileOrDirectory ..) => return .error Storage.notFound
  | .error (.inappropriateType _ 21 _) => return .ok (.directory [])
  | .error (.inappropriateType ..) => return .error Storage.notADirectory
  | .error (.permissionDenied ..) =>
    return .error { kind := .permissionDenied, message := "Permission denied (os error 13)" }
  | .error error => return .error { kind := .uncategorized, message := toString error }

def readStorage (arguments : List String) : IO Storage := do
  match (Arguments.parse arguments).toOption.bind (·.file) with
  | some path =>
    let entry ← readEntry path
    return { find := fun name => if name = path then entry else .error Storage.notFound }
  | none => return Storage.empty

def readBoot : IO (Option Instant) := do
  match ← (IO.FS.readFile "/proc/stat").toBaseIO with
  | .ok text => return Instant.ofStatistics? text
  | .error _ => return none

def writeOutput (contents : Octets) : IO Bool := do
  let out ← IO.getStdout
  let written : IO Unit := do
    out.write ⟨contents.toArray⟩
    out.flush
  match ← written.toBaseIO with
  | .ok () => return true
  | .error (.resourceVanished ..) => return true
  | .error error =>
    IO.eprintln s!"ERROR: write of output failed: {error}"
    return false

def program (arguments : List String) : IO UInt32 := do
  let env : Environment Kmsg.FileDevice NoControl :=
    { storage := ← readStorage arguments
      openDevice := fun _ => .error (.ofKind .unsupported)
      kernel := {}
      boot := ← readBoot
      offset := 0 }
  let outcome := run env arguments { Tape.blank with color := true }
  if let some complaint := outcome.complaint then
    IO.eprintln s!"ERROR: {complaint}"
  let written ← writeOutput outcome.out.contents
  return if written then outcome.status.toUInt32 else 1

end KernelLog.CommandLine

def main (arguments : List String) : IO UInt32 :=
  KernelLog.CommandLine.program arguments
