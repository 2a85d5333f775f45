import KernelLog.Calendar

/-!
This module contains the reading of the statistics of the kernel, which tell when it was started.
-/

namespace KernelLog

def Instant.ofStatistics? (text : String) : Option Instant :=
  (text.splitOn "\n").findSome? fun line =>
    match line.splitOn " " with
    | ["btime", seconds] =>
      (Decimal.parse seconds).toOption.map fun n => { seconds := n.toNat, nanos := 0 }
    | _ => none

end KernelLog
