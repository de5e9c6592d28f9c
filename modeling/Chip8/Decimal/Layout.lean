import Chip8.Decimal.Shortest

/-!
# Decimal text of doubles

A double is written with the fewest digits that read back. Magnitudes from
`1e-4` up to, but not including, `1e16` are written out; others take an exponent
of at least two digits. A whole number keeps a zero behind the point, and the
sign of zero is kept.
-/

namespace Chip8.Decimal

/-- The greatest number of places before the point that are written out. -/
def mostPlaces : Int := 16

/-- The most zeros between the point and the first digit that are written out. -/
def mostZeros : Int := 3

/-- An exponent with its sign and at least two digits. -/
def exponentText (e : Int) : String :=
  (if e < 0 then "-" else "+") ++ String.ofList ((Nat.toDigits 10 e.natAbs).leftpad 2 '0')

/-- The text of `digits * 10 ^ t`. -/
def layout (digits : Nat) (t : Int) : String :=
  let ds := Nat.toDigits 10 digits
  let places := (ds.length : Int) + t
  if places ≤ -mostZeros - 1 ∨ mostPlaces < places then
    let tail := ds.tail
    String.ofList (ds.take 1 ++ if tail.isEmpty then [] else '.' :: tail) ++ "e" ++
      exponentText (places - 1)
  else if places ≤ 0 then
    String.ofList ('0' :: '.' :: List.replicate (-places).toNat '0' ++ ds)
  else if 0 ≤ t then String.ofList (ds ++ List.replicate t.toNat '0' ++ ['.', '0'])
  else String.ofList (ds.take places.toNat ++ '.' :: ds.drop places.toNat)

/-- The text of a double. -/
def floatText (f : Float) : String :=
  let sign (negative : Bool) := if negative then "-" else ""
  match Binary.ofFloat f with
  | .nan => "nan"
  | .infinite negative => sign negative ++ "inf"
  | .finite negative mantissa exponent =>
    if mantissa = 0 then sign negative ++ "0.0"
    else
      let (digits, t) := Shortest.decimal mantissa exponent
      sign negative ++ layout digits t

end Chip8.Decimal
