import Chip8.Settings.Basic

/-!
# Square waves

The tone is a square wave. One second of it is worked out as signed samples and
then repeated without end.
-/

namespace Chip8

/-- A second of a square wave. -/
structure Wave where
  frequency : Nat
  channels : Nat
  period : Nat
  high : Int
  low : Int
deriving DecidableEq

namespace Wave

/-- The greatest sample. -/
def fullScale : Nat := 32767

/-- The samples in one cycle, at least two. -/
def periodOf (frequency tone : Int) : Nat := (max 2 (frequency.fdiv tone)).toNat

/-- An integer in sixteen bits with a sign. -/
def wrapped (i : Int) : Int := i.bmod 0x10000

/-- The whole part of a double, zero if there is none. -/
def wholePart (f : Float) : Int :=
  match Decimal.Binary.ofFloat f with
  | .finite negative mantissa exponent =>
    let magnitude := mantissa <<< exponent.toNat >>> (-exponent).toNat
    if negative then -magnitude else magnitude
  | _ => 0

/-- The sample of a double: its whole part in sixteen bits. A whole part beyond thirty-two
bits has no sample but zero. -/
def sampleOf (f : Float) : Int :=
  let i := wholePart f
  if -0x80000000 ≤ i ∧ i < 0x80000000 then wrapped i else 0

/-- The sample of one half of the wave at some volume. -/
def level (volume : Number) (up : Bool) : Int :=
  match volume with
  | .int i => wrapped ((if up then i else -i) * fullScale)
  | .float f => sampleOf ((if up then 1 * f else -1 * f) * Float.ofNat fullScale)

/-- Why there is no wave. -/
inductive Error
  | noTone
  | volumeTooLarge
deriving DecidableEq

/-- The text of a failure. -/
def Error.message : Error → String
  | noTone => "a tone of zero has no wave"
  | volumeTooLarge => "the volume is too large a number"

/-- Whether a volume can be worked with: a whole number has at most sixty-four bits. -/
def isUsable : Number → Bool
  | .int i => decide (-0x8000000000000000 ≤ i ∧ i < 0x8000000000000000)
  | .float _ => true

/-- The wave of a tone, unless the tone is zero. -/
def make (frequency channels tone : Int) (volume : Number) : Except Error Wave :=
  if tone = 0 then .error .noTone
  else if !isUsable volume then .error .volumeTooLarge
  else .ok
    { frequency := frequency.toNat
      channels := channels.toNat
      period := periodOf frequency tone
      high := level volume true
      low := level volume false }

/-- A sample of any channel. The first half of a cycle is high. -/
def sample (w : Wave) (i : Nat) : Int := if i % w.period < w.period / 2 then w.high else w.low

/-- The samples of one channel. -/
def samples (w : Wave) : List Int := (List.range w.frequency).map w.sample

/-- The samples of all channels at one moment. There is a channel at least. -/
def row (w : Wave) (i : Nat) : List Int := List.replicate (max 1 w.channels) (w.sample i)

/-- The buffer that is repeated: a row for every moment of the second. -/
def buffer (w : Wave) : List (List Int) := (List.range w.frequency).map w.row

end Wave

end Chip8
