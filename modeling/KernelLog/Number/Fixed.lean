import KernelLog.Number.Decimal

/-!
This module contains the writing of floating-point numbers with a fixed number of decimal places. A number
is taken apart into the integers of its binary form and rounded once, exactly.
-/

namespace KernelLog

def roundDiv (num den : Nat) : Nat :=
  let q := num / den
  let r := num % den
  if 2 * r < den ∨ (2 * r = den ∧ q % 2 = 0) then q else q + 1

structure Dyadic where
  negative : Bool
  mantissa : Nat
  exponent : Int
  deriving Repr, DecidableEq

namespace Dyadic

def ofBits (bits : UInt64) : Dyadic :=
  let n := bits.toNat
  let exponent : Nat := (n >>> 52) % 2048
  let fraction : Nat := n % (1 <<< 52)
  { negative := n >>> 63 = 1
    mantissa := if exponent = 0 then fraction else fraction + (1 <<< 52)
    exponent := if exponent = 0 then -1074 else (exponent : Int) - 1075 }

def scaled (places : Nat) (x : Dyadic) : Nat :=
  let m := x.mantissa * Nat.pow 10 places
  if 0 ≤ x.exponent then
    m <<< x.exponent.toNat
  else
    roundDiv m (1 <<< (-x.exponent).toNat)

def magnitude (places : Nat) (x : Dyadic) : Octets :=
  let n := x.scaled places
  let unit := Nat.pow 10 places
  Decimal.digits (n / unit) ++ Octet.dot :: Decimal.zeroed places (n % unit)

def fixed (places : Nat) (showPlus : Bool) (x : Dyadic) : Octets :=
  if x.negative then
    Octet.minus :: x.magnitude places
  else if showPlus then
    Octet.plus :: x.magnitude places
  else
    x.magnitude places

end Dyadic
end KernelLog
