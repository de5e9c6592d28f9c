/-!
# Binary fractions of a double

A finite double is a sign, a mantissa and a power of two. This module takes a
double apart and finds the double nearest to a decimal, both in exact integer
arithmetic.
-/

namespace Chip8.Decimal

/-- What the bits of a double stand for. -/
inductive Binary
  | nan
  | infinite (negative : Bool)
  /-- The number `mantissa * 2 ^ exponent`, with the sign in front. -/
  | finite (negative : Bool) (mantissa : Nat) (exponent : Int)

namespace Binary

/-- The hidden leading bit of a mantissa. -/
def hidden : Nat := 1 <<< 52

/-- The exponent of the least positive double. -/
def least : Int := -1074

/-- The parts of a double: one sign bit, eleven of exponent, fifty-two of mantissa. -/
def ofFloat (f : Float) : Binary :=
  let bits := f.toBits.toNat
  let negative := decide (1 <<< 63 ≤ bits)
  let field : Nat := bits >>> 52 % 0x800
  let fraction : Nat := bits % hidden
  if field = 2047 then
    if fraction = 0 then infinite negative else nan
  else if field = 0 then finite negative fraction least
  else finite negative (hidden + fraction) (least + field - 1)

end Binary

/-- The integer nearest to a quotient; a half goes to the even neighbour. -/
def roundDiv (num den : Nat) : Nat :=
  let quotient := num / den
  let double := 2 * (num % den)
  if double < den then quotient
  else if den < double then quotient + 1
  else quotient + quotient % 2

/-- The bits of the double nearest to a positive quotient, or of infinity past
the greatest. -/
def nearestBits (num den : Nat) : Nat :=
  let guess : Int := (num.log2 : Int) - den.log2 - 53
  let floor : Int := max guess Binary.least
  let scaled (q : Int) : Nat × Nat := (num <<< (-q).toNat, den <<< q.toNat)
  let coarse := (scaled floor).1 / (scaled floor).2
  let q := if 2 * Binary.hidden ≤ coarse then floor + 1 else floor
  let m := roundDiv (scaled q).1 (scaled q).2
  let (m, q) := if m = 2 * Binary.hidden then (Binary.hidden, q + 1) else (m, q)
  if 971 < q then 2047 * Binary.hidden
  else if m < Binary.hidden then m
  else (q - Binary.least + 1).toNat * Binary.hidden + (m - Binary.hidden)

/-- The number of decimal digits of a natural number. -/
def digitCount (n : Nat) : Nat := (Nat.toDigits 10 n).length

/-- The double nearest to `± mantissa * 10 ^ exponent`. Magnitudes far outside the
range are settled before any power is formed. -/
def nearest (negative : Bool) (mantissa : Nat) (exponent : Int) : Float :=
  let magnitude :=
    if mantissa = 0 then 0
    else
      let leading := exponent + digitCount mantissa
      if 330 < leading then 2047 * Binary.hidden
      else if leading < -400 then 0
      else nearestBits (mantissa * Nat.pow 10 exponent.toNat) (Nat.pow 10 (-exponent).toNat)
  Float.ofBits (UInt64.ofNat (magnitude + if negative then 1 <<< 63 else 0))

/-- The double nearest to an integer. -/
def ofInt (i : Int) : Float := nearest (decide (i < 0)) i.natAbs 0

end Chip8.Decimal
