import Chip8.Text.CodePoint
import Chip8.Text.Unprintable

/-!
# Quoted text

A text in messages stands in single quotes, or in double quotes if it holds a
single quote and no double one. The backslash, the quote in use and whatever
leaves no mark are escaped, so the quoted text is a plain string.
-/

namespace Chip8.Text.Quoted

/-- The lower-case digits of a number, filled with zeros. -/
def lowerHex (width n : Nat) : List Char := (Nat.toDigits 16 n).leftpad width '0'

/-- The shortest escape that has room for a code point. -/
def escape (p : Nat) : List Char :=
  if p < 0x100 then '\\' :: 'x' :: lowerHex 2 p
  else if p < 0x10000 then '\\' :: 'u' :: lowerHex 4 p
  else '\\' :: 'U' :: lowerHex 8 p

/-- One code point inside the given quotes. -/
def point (quote : Char) (p : CodePoint) : List Char :=
  match p.char? with
  | none => escape p.value
  | some c =>
    if c = quote ∨ c = '\\' then ['\\', c]
    else if c = '\t' then ['\\', 't']
    else if c = '\n' then ['\\', 'n']
    else if c = '\r' then ['\\', 'r']
    else if Unprintable.isUnprintable c.toNat then escape c.toNat
    else [c]

/-- The quotes that need fewer escapes, single ones by preference. -/
def quoteFor (t : PointText) : Char :=
  if t.any (· == CodePoint.ofChar '\'') && !t.any (· == CodePoint.ofChar '"') then '"' else '\''

/-- A text between quotes. -/
def ofPoints (t : PointText) : String :=
  let quote := quoteFor t
  String.ofList (quote :: t.flatMap (point quote) ++ [quote])

/-- A string between quotes. -/
def ofString (s : String) : String := ofPoints (PointText.ofString s)

end Chip8.Text.Quoted
