import Chip8.Text.Quoted

/-!
# Colours

A colour has three channels of eight bits. Light adds up in every channel and
stops at full brightness.
-/

namespace Chip8

/-- A colour in red, green and blue. -/
structure Color where
  red : UInt8
  green : UInt8
  blue : UInt8
deriving DecidableEq

namespace Color

/-- No light. -/
def black : Color := ⟨0, 0, 0⟩

/-- The sum of two channels, at most full brightness. -/
def addChannel (a b : UInt8) : UInt8 := UInt8.ofNat (min 255 (a.toNat + b.toNat))

/-- Light added to light. -/
def add (a b : Color) : Color :=
  ⟨addChannel a.red b.red, addChannel a.green b.green, addChannel a.blue b.blue⟩

theorem toNat_addChannel (a b : UInt8) :
    (addChannel a b).toNat = min 255 (a.toNat + b.toNat) := by
  simp only [addChannel, UInt8.toNat_ofNat']
  omega

/-- A colour with a function applied to every channel. -/
def map (f : UInt8 → UInt8) (c : Color) : Color := ⟨f c.red, f c.green, f c.blue⟩

/-- The default background. -/
def dark : Color := ⟨15, 15, 25⟩

end Color

/-- The colour schemes of the foreground. -/
inductive Scheme
  | green
  | amber
  | white
  | blue
deriving DecidableEq

namespace Scheme

/-- All schemes. -/
def all : List Scheme := [green, amber, white, blue]

/-- The name of a scheme. -/
def name : Scheme → String
  | green => "green"
  | amber => "amber"
  | white => "white"
  | blue => "blue"

/-- The colour of a scheme. -/
def color : Scheme → Color
  | green => ⟨0, 255, 128⟩
  | amber => ⟨255, 176, 0⟩
  | white => ⟨220, 220, 220⟩
  | blue => ⟨100, 180, 255⟩

/-- The scheme of a name. -/
def ofName? (s : String) : Option Scheme := all.find? fun scheme => scheme.name == s

/-- The message about a name that no scheme has. -/
def unknownMessage (t : PointText) : String :=
  "unknown color scheme " ++ Text.Quoted.ofPoints t ++ "; choose from " ++
    String.intercalate ", " (all.map name)

theorem ofName?_name (s : Scheme) : ofName? s.name = some s := by
  cases s <;> decide

end Scheme

end Chip8
