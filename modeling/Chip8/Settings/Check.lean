import Chip8.Settings.Basic

/-!
# Checking settings

A draft gives an untyped value for every field. Its values become settings if
their kinds and then their ranges are right.
-/

namespace Chip8

/-- An untyped value for every field. -/
abbrev Draft := Field → Data

namespace Settings

/-- Why a draft is refused. -/
inductive Error
  | notInteger (field : Field) (got : Data)
  | notNumber (field : Field) (got : Data)
  | notSwitch (field : Field) (got : Data)
  | notColor (field : Field) (got : Data)
  | scaleTooSmall (scale : Int)
  | notPositive
  | volumeOutOfRange (volume : Number)

/-- The text of a refusal. -/
def Error.message : Error → String
  | notInteger field got => field.name ++ " must be an integer, got " ++ got.display
  | notNumber field got => field.name ++ " must be a number, got " ++ got.display
  | notSwitch field got => field.name ++ " must be true or false, got " ++ got.display
  | notColor field got => field.name ++ " must be three integers in 0-255, got " ++ got.display
  | scaleTooSmall scale => "scale must be at least 1, got " ++ toString scale
  | notPositive => "clock_hz, frame_rate and tone_hz must be positive"
  | volumeOutOfRange volume => "volume must be within 0.0-1.0, got " ++ volume.data.display

/-- The whole number of a field. -/
def integer (d : Draft) (f : Field) : Except Error Int :=
  match d f with
  | .int i => .ok i
  | got => .error (.notInteger f got)

/-- The number of a field. -/
def number (d : Draft) (f : Field) : Except Error Number :=
  match d f with
  | .int i => .ok (.int i)
  | .float x => .ok (.float x)
  | got => .error (.notNumber f got)

/-- The truth value of a field. -/
def switch (d : Draft) (f : Field) : Except Error Bool :=
  match d f with
  | .bool b => .ok b
  | got => .error (.notSwitch f got)

/-- The colour of a list of three channels. -/
def color? : Data → Option Color
  | .list [.int r, .int g, .int b] =>
    if 0 ≤ r ∧ r ≤ 255 ∧ 0 ≤ g ∧ g ≤ 255 ∧ 0 ≤ b ∧ b ≤ 255 then
      some ⟨UInt8.ofNat r.toNat, UInt8.ofNat g.toNat, UInt8.ofNat b.toNat⟩
    else none
  | _ => none

/-- The colour of a field. -/
def color (d : Draft) (f : Field) : Except Error Color :=
  match color? (d f) with
  | some c => .ok c
  | none => .error (.notColor f (d f))

/-- The settings of a draft without a look at their ranges. -/
def ofDraft (d : Draft) : Except Error Settings := do
  let scale ← integer d .scale
  let clockHz ← integer d .clockHz
  let frameRate ← integer d .frameRate
  let blurRadius ← integer d .blurRadius
  let toneHz ← integer d .toneHz
  let bloomStrength ← number d .bloomStrength
  let volume ← number d .volume
  let glow ← switch d .glow
  let fgColor ← color d .fgColor
  let bgColor ← color d .bgColor
  pure { scale, clockHz, frameRate, fgColor, bgColor, glow, bloomStrength, blurRadius, toneHz,
         volume }

/-- Settings whose values lie in their ranges. -/
def inRange (s : Settings) : Except Error Settings :=
  if s.scale < 1 then .error (.scaleTooSmall s.scale)
  else if s.clockHz < 1 ∨ s.frameRate < 1 ∨ s.toneHz < 1 then .error .notPositive
  else if !s.volume.isShare then .error (.volumeOutOfRange s.volume)
  else .ok s

/-- The settings of a draft. -/
def check (d : Draft) : Except Error Settings := ofDraft d >>= inRange

/-- A colour as an untyped value. -/
def colorData (c : Color) : Data :=
  .list [.int c.red.toNat, .int c.green.toNat, .int c.blue.toNat]

/-- Settings as untyped values. -/
def draft (s : Settings) : Draft
  | .scale => .int s.scale
  | .clockHz => .int s.clockHz
  | .frameRate => .int s.frameRate
  | .fgColor => colorData s.fgColor
  | .bgColor => colorData s.bgColor
  | .glow => .bool s.glow
  | .bloomStrength => s.bloomStrength.data
  | .blurRadius => .int s.blurRadius
  | .toneHz => .int s.toneHz
  | .volume => s.volume.data

theorem color?_colorData (c : Color) : color? (colorData c) = some c := by
  obtain ⟨r, g, b⟩ := c
  have hr := r.toNat_lt
  have hg := g.toNat_lt
  have hb := b.toNat_lt
  simp only [colorData, color?]
  rw [if_pos (by omega)]
  simp

/-- Settings read back from their own draft. -/
theorem ofDraft_draft (s : Settings) : ofDraft s.draft = .ok s := by
  obtain ⟨scale, clock, rate, fg, bg, glow, bloom, radius, tone, volume⟩ := s
  cases bloom <;> cases volume <;>
    simp [ofDraft, draft, integer, number, switch, color, color?_colorData, Number.data, pure,
      Except.pure, bind, Except.bind]

end Settings

/-- A draft with the values of a record where the record has them. -/
def Draft.override (d : Draft) (fields : List (PointText × Data)) : Draft :=
  fun f => (Data.get? fields (PointText.ofString f.name)).getD (d f)

end Chip8
