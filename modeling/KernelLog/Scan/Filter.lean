import KernelLog.Record

/-!
This module contains the filter of records.
-/

namespace KernelLog

structure Filter where
  minSeverity : Level
  since : Timestamp
  deriving Repr, DecidableEq

/--
A record without a level or without a time is not accepted.
-/
def Filter.accepts (filter : Filter) (r : Record) : Bool :=
  match r.level, r.timestamp with
  | some level, some t => level ≤ filter.minSeverity ∧ filter.since < t
  | _, _ => false

end KernelLog
