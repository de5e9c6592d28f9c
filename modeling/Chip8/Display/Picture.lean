import Chip8.Color

/-!
# Pictures

A picture has a size and a colour at every place. Pictures are functions of the
place, so that scaling and blending are read off pixel by pixel.
-/

namespace Chip8

/-- Colours in a rectangle; columns count from the left, rows from the top. -/
structure Picture where
  width : Nat
  height : Nat
  pixel : Nat → Nat → Color

namespace Picture

/-- One row of a picture. -/
def row (p : Picture) (y : Nat) : List Color := (List.range p.width).map fun x => p.pixel x y

/-- All rows of a picture. -/
def rows (p : Picture) : List (List Color) := (List.range p.height).map p.row

/-- A picture of one colour. -/
def plain (width height : Nat) (c : Color) : Picture := ⟨width, height, fun _ _ => c⟩

/-- A picture with one row painted over. -/
def line (p : Picture) (row : Nat) (c : Color) : Picture :=
  { p with pixel := fun x y => if y = row then c else p.pixel x y }

/-- A picture brought to another size: every pixel is taken from the nearest one. -/
def resize (p : Picture) (width height : Nat) : Picture where
  width := width
  height := height
  pixel x y := p.pixel (x * p.width / width) (y * p.height / height)

/-- A picture with light from another one added. -/
def add (p q : Picture) : Picture :=
  { p with pixel := fun x y => (p.pixel x y).add (q.pixel x y) }

end Picture

end Chip8
