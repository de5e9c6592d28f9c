/-!
# Hexadecimal numerals

Upper-case hexadecimal text of integers, filled with zeros up to a least
width. A minus sign takes one of the places, so minus one at width four reads
`-001`.
-/

namespace Chip8.Text.Hex

/-- The upper-case digits of a natural number, without leading zeros. -/
def digits (n : Nat) : List Char := (Nat.toDigits 16 n).map Char.toUpper

/-- The digits with zeros in front, up to the given width. -/
def padded (width n : Nat) : List Char := (digits n).leftpad width '0'

/-- The characters of an integer, its sign counted in the width. -/
def chars (width : Nat) : Int → List Char
  | .ofNat n => padded width n
  | .negSucc n => '-' :: padded (width - 1) (n + 1)

/-- The text of an integer, at least `width` characters long. -/
def text (width : Nat) (i : Int) : String := String.ofList (chars width i)

theorem toList_text (width : Nat) (i : Int) : (text width i).toList = chars width i := by
  simp [text]

end Chip8.Text.Hex
