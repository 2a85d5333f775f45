/-!
This module contains the clamp of natural numbers to 64 bits.
-/

namespace KernelLog

def saturate (n : Nat) : UInt64 :=
  if n < UInt64.size then UInt64.ofNat n else UInt64.ofNat (UInt64.size - 1)

theorem toNat_saturate (n : Nat) : (saturate n).toNat = min n (UInt64.size - 1) := by
  unfold saturate
  split
  . rw [UInt64.toNat_ofNat_of_lt' (by simpa [UInt64.size] using ‹_›)]
    omega
  . rw [UInt64.toNat_ofNat_of_lt' (by decide)]
    omega

end KernelLog
