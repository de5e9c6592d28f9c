import Chip8.Decimal.Binary

/-!
# Shortest decimals

The shortest decimal of a positive double is a point of the coarsest grid of
powers of ten that has a point among the reals which round to the double. If two
neighbours of the double on that grid qualify, the nearer one is taken, and the
even one when both are as near.
-/

namespace Chip8.Decimal.Shortest

/-- The reals that round to a double, and the double itself, as multiples of one
unit. The ends belong to the interval if the mantissa is even. -/
structure Interval where
  low : Nat
  middle : Nat
  high : Nat
  unit : Nat
  closed : Bool

/-- The interval of `m * 2 ^ q`, measured in steps of `10 ^ t`. Below a power of
two the doubles lie closer together, so that side is half as wide. -/
def interval (m : Nat) (q t : Int) : Interval :=
  let scale := Nat.pow 10 (-t).toNat <<< (q - 2).toNat
  let narrow := m == Binary.hidden && decide (Binary.least < q)
  { low := (4 * m - if narrow then 1 else 2) * scale
    middle := 4 * m * scale
    high := (4 * m + 2) * scale
    unit := Nat.pow 10 t.toNat <<< (2 - q).toNat
    closed := m % 2 == 0 }

/-- Whether a number of steps lies in the interval. -/
def Interval.contains (v : Interval) (d : Nat) : Bool :=
  if v.closed then decide (v.low ≤ d * v.unit ∧ d * v.unit ≤ v.high)
  else decide (v.low < d * v.unit ∧ d * v.unit < v.high)

/-- The better of the two neighbours on the grid, if one lies in the interval. -/
def Interval.pick (v : Interval) : Option Nat :=
  let d := v.middle / v.unit
  match v.contains d, v.contains (d + 1) with
  | false, false => none
  | true, false => some d
  | false, true => some (d + 1)
  | true, true => some (roundDiv v.middle v.unit)

/-- The first grid with a qualifying point, from `10 ^ t` to finer ones. -/
def search (m : Nat) (q : Int) : Nat → Int → Nat × Int
  | 0, t => ((interval m q t).middle / (interval m q t).unit, t)
  | fuel + 1, t =>
    match (interval m q t).pick with
    | some d => (d, t)
    | none => search m q fuel (t - 1)

/-- The digits and the exponent of the shortest decimal of `m * 2 ^ q`. The search
starts above the first digit and takes in the seventeen that always suffice. -/
def decimal (m : Nat) (q : Int) : Nat × Int :=
  search m q 24 (((m.log2 : Int) + 1 + q) * 30103 / 100000 + 2)

end Chip8.Decimal.Shortest
