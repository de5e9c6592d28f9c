import Chip8.Display.Blur
import Chip8.Display.Picture
import Chip8.Screen
import Chip8.Settings.Basic

/-!
# Rendering

The machine's picture is turned into intensities, these are turned into a picture in the
foreground colour, and that picture is enlarged by a whole factor. The background has a brighter
line in every other row. The glow comes of the same intensities, blurred at four times the size of
the machine's picture. Everything is added like light.
-/

namespace Chip8.Display

/-- How much larger than the machine's picture the glow is worked out. -/
def upscale : Nat := 4

/-- How much brighter a scanline is. -/
def scanlineGain : UInt8 := 5

/-- The factor by which the machine's picture is enlarged. -/
def factor (s : Settings) : Nat := s.scale.toNat

/-- The width of the screen. -/
def width (s : Settings) : Nat := Screen.width * factor s

/-- The height of the screen. -/
def height (s : Settings) : Nat := Screen.height * factor s

/-- Intensities from darkness to full brightness, a column of a picture in every row. -/
abbrev Intensities (width height : Nat) := Grid width height Float32

/-- The intensities of the machine's picture: whatever is not zero is lit. -/
def lit (screen : Screen) : Intensities 64 32 :=
  Grid.ofFn fun x y => if screen.get y x != 0 then 1 else 0

/-- A channel of a colour at some intensity, its fraction dropped. -/
def dim (i : Float32) (channel : UInt8) : UInt8 := (i * Float32.ofNat channel.toNat).toUInt8

/-- The picture of some intensities in a colour. They are worked out when a pixel is looked at. -/
def colorize {width height : Nat} (c : Color) (intensities : Thunk (Intensities width height)) :
    Picture where
  width := width
  height := height
  pixel x y :=
    if h : x < width ∧ y < height then c.map (dim (intensities.get.get ⟨x, h.1⟩ ⟨y, h.2⟩))
    else Color.black

/-- The enlarged picture in the foreground colour. -/
def base (s : Settings) (screen : Screen) : Picture :=
  (colorize s.fgColor (Thunk.mk fun _ => lit screen)).resize (width s) (height s)

/-- The rows of the screen that are brighter. -/
def scanlines (s : Settings) : List Nat := (List.range ((height s + 1) / 2)).map (2 * ·)

/-- The background. -/
def background (s : Settings) : Picture :=
  let bright := s.bgColor.map fun c => Color.addChannel c scanlineGain
  (scanlines s).foldl (fun p y => p.line y bright) (Picture.plain (width s) (height s) s.bgColor)

/-- The mean of three intensities. -/
def mean (before cell after : Float32) : Float32 := (before + cell + after) / 3

/-- The intensities of the picture before they are blurred. -/
def sharp (screen : Screen) : Intensities (64 * upscale) (32 * upscale) :=
  (lit screen).kron (· * ·) (Grid.fill 1 : Intensities upscale upscale)

/-- An intensity held between darkness and full brightness. -/
def clip (i : Float32) : Float32 := if i < 0 then 0 else if 1 < i then 1 else i

/-- The intensities of the glow: at least one pass of the blur, and more as set. -/
def glowIntensities (s : Settings) (screen : Screen) :
    Intensities (64 * upscale) (32 * upscale) :=
  let bloom := s.bloomStrength.toFloat.toFloat32
  ((sharp screen).blur mean (1 + s.blurRadius).toNat).map fun i => clip (i * bloom)

/-- The glow, worked out at a fixed size and brought to the size of the screen. At a scale of
`upscale` the sizes agree and nothing is left to do. At any other scale taking the nearest pixel is
a stand-in for a filter that smooths, which is not modelled, and no result tells the colours of the
glow there. -/
def glow (s : Settings) (screen : Screen) : Picture :=
  (colorize s.fgColor (Thunk.mk fun _ => glowIntensities s screen)).resize (width s) (height s)

/-- The glow if it is switched on. -/
def glow? (s : Settings) (screen : Screen) : Option Picture :=
  if s.glow then some (glow s screen) else none

/-- Whether the screen can be worked out: the strength of a glow must be near to a double. -/
def isDrawable (s : Settings) : Bool := !s.glow || s.bloomStrength.fitsDouble

/-- The whole screen. -/
def compose (s : Settings) (screen : Screen) : Picture :=
  let lit := match glow? s screen with
    | some g => (background s).add g
    | none => background s
  lit.add (base s screen)

end Chip8.Display
