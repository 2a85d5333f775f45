import KernelLog.Printer.Basic
import KernelLog.Scan.Error
import KernelLog.Scan.Filter
import KernelLog.Source

/-!
This module contains the scan of a source: its records are pulled one after the other, and those that a filter
accepts are counted and printed.
-/

namespace KernelLog

variable {σ ω : Type}

/--
Flush a printer at the end of a scan. Output that is closed is no error.
-/
def finish [Sink ω] (count : Nat) (printer : Option (Printer ω)) :
    Except ScanError Nat × Option (Printer ω) :=
  match printer with
  | none => (.ok count, none)
  | some p =>
    match p.flush with
    | (.ok (), p) => (.ok count, some p)
    | (.error fault, p) =>
      (if fault.kind = .brokenPipe then .ok count else .error (.write fault), some p)

def deliver [Sink ω] (count : Nat) (printer : Option (Printer ω)) (r : Record) :
    Option (Except ScanError Nat) × Option (Printer ω) :=
  match printer with
  | none => (none, none)
  | some p =>
    match p.print r with
    | (.ok _, p) => (none, some p)
    | (.error fault, p) =>
      (some (if fault.kind = .brokenPipe then .ok (count + 1) else .error (.write fault)), some p)

/--
Scan a source to its end, or to its first fault, which ends the scan as well. The result is the number of
accepted records; the source and the printer come back in their new states.
-/
def scan [Source σ] [Sink ω] (source : σ) (filter : Filter) (printer : Option (Printer ω)) :
    Except ScanError Nat × σ × Option (Printer ω) :=
  go 0 source printer
where
  go (count : Nat) (source : σ) (printer : Option (Printer ω)) :
      Except ScanError Nat × σ × Option (Printer ω) :=
    match _hpull : Source.pull source with
    | (.found r, source') =>
      if filter.accepts r then
        match deliver count printer r with
        | (some result, printer) => (result, source', printer)
        | (none, printer) => go (count + 1) source' printer
      else
        go count source' printer
    | (_, source') =>
      let (result, printer) := finish count printer
      (result, source', printer)
  termination_by Source.backlog source
  decreasing_by
    all_goals
      have := Source.backlog_pull_lt source
      simpa [_hpull, Pull.isFound] using this

end KernelLog
