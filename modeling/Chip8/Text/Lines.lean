import Chip8.Text.CodePoint

/-!
# Lines

A text is cut into lines at line feeds, carriage returns, both together, and at the
other characters that end a line or a larger part of a text. A line end at the end of
the text opens no further line.
-/

namespace Chip8.Text

/-- The code of a carriage return. -/
def carriageReturn : Nat := 0x0D

/-- The code of a line feed. -/
def lineFeed : Nat := 0x0A

/-- The codes of all characters that end a line. -/
def lineEnds : List Nat :=
  [lineFeed, 0x0B, 0x0C, carriageReturn, 0x1C, 0x1D, 0x1E, 0x85, 0x2028, 0x2029]

/-- The lines of a text behind the beginning of one, which is given backwards. -/
def linesFrom (line : PointText) : PointText → List PointText
  | [] => if line = [] then [] else [line.reverse]
  | [p] => if lineEnds.contains p.value then [line.reverse] else [(p :: line).reverse]
  | p :: q :: rest =>
    if p.value = carriageReturn ∧ q.value = lineFeed then line.reverse :: linesFrom [] rest
    else if lineEnds.contains p.value then line.reverse :: linesFrom [] (q :: rest)
    else linesFrom (p :: line) (q :: rest)

/-- The lines of a text. -/
def lines (t : PointText) : List PointText := linesFrom [] t

/-- Whether a text holds no character that ends a line. -/
def OneLine (t : PointText) : Prop := ∀ p ∈ t, lineEnds.contains p.value = false

end Chip8.Text
