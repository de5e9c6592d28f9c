import Chip8.Color
import Chip8.Data

/-!
# Settings

What can be set: the size and speed of the display, its colours and glow, and
the tone. A setting comes as an untyped value and is checked before it is used;
all checks are made in a fixed order and the first that fails is reported.
-/

namespace Chip8

/-- A number that was written with or without a point or an exponent. -/
inductive Number
  | int (i : Int)
  | float (f : Float)

namespace Number

/-- A number as an untyped value. -/
def data : Number → Data
  | int i => .int i
  | float f => .float f

/-- The double nearest to a number. -/
def toFloat : Number → Float
  | int i => Decimal.ofInt i
  | float f => f

/-- Whether a number stays finite when it is rounded to a double. A whole number does not if it
lies half a step above the greatest double or higher. -/
def fitsDouble : Number → Bool
  | int i => decide (i.natAbs < 1 <<< 1024 - 1 <<< 970)
  | float _ => true

/-- Whether a number lies between zero and one, ends included. -/
def isShare : Number → Bool
  | int i => decide (0 ≤ i ∧ i ≤ 1)
  | float f => decide (0.0 ≤ f) && decide (f ≤ 1.0)

end Number

/-- The names of what can be set. -/
inductive Field
  | scale
  | clockHz
  | frameRate
  | fgColor
  | bgColor
  | glow
  | bloomStrength
  | blurRadius
  | toneHz
  | volume
deriving DecidableEq

namespace Field

/-- All fields, in the order in which they are listed. -/
def all : List Field :=
  [scale, clockHz, frameRate, fgColor, bgColor, glow, bloomStrength, blurRadius, toneHz, volume]

theorem mem_all (f : Field) : f ∈ all := by
  cases f <;> decide

/-- The name of a field in files and messages. -/
def name : Field → String
  | scale => "scale"
  | clockHz => "clock_hz"
  | frameRate => "frame_rate"
  | fgColor => "fg_color"
  | bgColor => "bg_color"
  | glow => "glow"
  | bloomStrength => "bloom_strength"
  | blurRadius => "blur_radius"
  | toneHz => "tone_hz"
  | volume => "volume"

/-- The field of a name. -/
def ofName? (t : PointText) : Option Field := all.find? fun f => PointText.ofString f.name == t

theorem ofName?_name (f : Field) : ofName? (PointText.ofString f.name) = some f := by
  cases f <;> decide

end Field

/-- Checked settings. -/
structure Settings where
  scale : Int
  clockHz : Int
  frameRate : Int
  fgColor : Color
  bgColor : Color
  glow : Bool
  bloomStrength : Number
  blurRadius : Int
  toneHz : Int
  volume : Number

namespace Settings

/-- The settings of a user who sets nothing. -/
def default : Settings where
  scale := 12
  clockHz := 500
  frameRate := 60
  fgColor := Scheme.green.color
  bgColor := Color.dark
  glow := true
  bloomStrength := .float 0.55
  blurRadius := 1
  toneHz := 440
  volume := .float 0.25

/-- The ticks of one frame: as many as fit, but at least one. -/
def ticksPerFrame (s : Settings) : Int := max 1 (s.clockHz / s.frameRate)

end Settings

end Chip8
