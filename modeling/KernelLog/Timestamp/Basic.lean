import KernelLog.Number.Saturating

/-!
This module contains the time of a record: seconds and microseconds since the kernel was started.
-/

namespace KernelLog

structure Timestamp where
  sec : UInt64
  usec : Fin 1000000
  deriving Repr, DecidableEq

namespace Timestamp

def zero : Timestamp :=
  { sec := 0, usec := 0 }

instance : Inhabited Timestamp := ⟨zero⟩

/--
The time of a number of seconds and microseconds. Whole seconds among the microseconds are carried over;
the seconds stop at the largest number.
-/
def ofParts (sec usec : UInt64) : Timestamp :=
  { sec := saturate (sec.toNat + usec.toNat / 1000000)
    usec := ⟨usec.toNat % 1000000, Nat.mod_lt _ (by decide)⟩ }

def ofMicros (micros : UInt64) : Timestamp :=
  { sec := micros / 1000000
    usec := ⟨micros.toNat % 1000000, Nat.mod_lt _ (by decide)⟩ }

def micros (t : Timestamp) : UInt64 :=
  saturate ((saturate (t.sec.toNat * 1000000)).toNat + t.usec.val)

instance : LT Timestamp where
  lt a b := a.sec < b.sec ∨ (a.sec = b.sec ∧ a.usec < b.usec)

instance (a b : Timestamp) : Decidable (a < b) :=
  inferInstanceAs (Decidable (_ ∨ _))

instance : Ord Timestamp where
  compare a b := compareOfLessAndEq a b

/--
The seconds from an earlier time to `t`, negative if that time is not earlier. Seconds and microseconds
are subtracted apart, each rounded to a floating-point number.
-/
def delta (t earlier : Timestamp) : Float :=
  (t.sec.toFloat - earlier.sec.toFloat) +
    (t.usec.val.toFloat - earlier.usec.val.toFloat) / 1000000.0

end Timestamp
end KernelLog
