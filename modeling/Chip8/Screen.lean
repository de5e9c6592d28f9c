import Chip8.Grid

/-!
# The picture of the machine

The picture has thirty-two rows of sixty-four pixels. A sprite is a column of
bytes; each of their bits turns a pixel over, and both coordinates wrap at the
edges. A pixel that was lit and goes dark is a collision.
-/

namespace Chip8

/-- The pixels of the machine, zero where dark. -/
abbrev Screen := Grid 32 64 UInt8

namespace Screen

/-- Pixels in a row. -/
def width : Nat := 64

/-- Rows of pixels. -/
def height : Nat := 32

/-- A dark picture. -/
def blank : Screen := Grid.fill 0

/-- A row counted from the top, wrapping. -/
def rowAt (i : Nat) : Fin 32 := ⟨i % 32, by omega⟩

/-- A column counted from the left, wrapping. -/
def columnAt (i : Nat) : Fin 64 := ⟨i % 64, by omega⟩

/-- A bit of a sprite byte, the leftmost first. -/
def spriteBit (b : UInt8) (column : Nat) : UInt8 := (b >>> UInt8.ofNat (7 - column)) &&& 1

/-- A picture while a sprite is drawn, and whether a lit pixel went dark so far. -/
structure Drawing where
  screen : Screen
  collision : UInt8

namespace Drawing

/-- One pixel is combined with one bit. -/
def pixel (d : Drawing) (r : Fin 32) (c : Fin 64) (bit : UInt8) : Drawing :=
  let old := d.screen.get r c
  { screen := d.screen.set r c (old ^^^ bit)
    collision := d.collision ||| (bit &&& old) }

/-- One byte of a sprite, eight pixels from column `x` on. -/
def line (d : Drawing) (x y : Nat) (b : UInt8) : Drawing :=
  (List.range 8).foldl
    (fun d column => d.pixel (rowAt y) (columnAt (x + column)) (spriteBit b column)) d

/-- The bytes of a sprite, one row each, from row `y` on. -/
def lines (d : Drawing) (x y : Nat) : List UInt8 → Drawing
  | [] => d
  | b :: bs => lines (d.line x y b) x (y + 1) bs

end Drawing

/-- The picture with a sprite drawn at column `x` and row `y`. -/
def draw (s : Screen) (x y : Nat) (sprite : List UInt8) : Drawing :=
  Drawing.lines ⟨s, 0⟩ x y sprite

end Screen

end Chip8
