/-!
# Code points

A text that is read from escapes may name a surrogate that stands alone, which
is no character. Such a text is a list of code points.
-/

namespace Chip8

/-- A Unicode code point, surrogates included. -/
structure CodePoint where
  value : Nat
  value_lt : value < 0x110000
deriving DecidableEq

namespace CodePoint

/-- The code point of a character. -/
def ofChar (c : Char) : CodePoint :=
  ⟨c.toNat, by
    have h := c.valid
    simp only [UInt32.isValidChar, Nat.isValidChar] at h
    simp only [Char.toNat]
    omega⟩

/-- The character of a code point, if it is one. -/
def char? (p : CodePoint) : Option Char :=
  if p.value.isValidChar then some (Char.ofNat p.value) else none

/-- The code point of a four-digit escape. -/
def ofUnit (unit : UInt16) : CodePoint :=
  ⟨unit.toNat, by have := unit.toNat_lt; omega⟩

/-- The first half of a surrogate pair. -/
def isHigh (p : CodePoint) : Bool := 0xD800 ≤ p.value && p.value < 0xDC00

/-- The second half of a surrogate pair. -/
def isLow (p : CodePoint) : Bool := 0xDC00 ≤ p.value && p.value < 0xE000

/-- The code point that a surrogate pair spells. -/
def join (high low : CodePoint) : CodePoint :=
  ⟨0x10000 + (high.value % 0x400) * 0x400 + low.value % 0x400, by omega⟩

end CodePoint

/-- A text that may hold lone surrogates. -/
abbrev PointText := List CodePoint

namespace PointText

/-- The code points of a string. -/
def ofString (s : String) : PointText := s.toList.map CodePoint.ofChar

/-- Code points at the head and behind it are compared like numbers. -/
def le : PointText → PointText → Bool
  | [], _ => true
  | _ :: _, [] => false
  | p :: ps, q :: qs => p.value < q.value || (p.value == q.value && le ps qs)

end PointText

end Chip8
