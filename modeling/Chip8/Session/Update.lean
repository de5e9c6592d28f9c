import Chip8.Session.Basic
import Chip8.Display.Render

/-!
# The machine's part of a frame

A frame runs a batch of ticks with the same keys. The last tick decides on the tone,
the last error is shown in the caption, and the picture is shown if any tick changed
it.
-/

namespace Chip8

namespace Session

/-- What a number of ticks amounts to. -/
structure Batch where
  machine : Machine
  changed : Bool
  beep : Bool
  error : Option Condition
  /-- What the ticks reported, the latest first. -/
  notices : List Machine.Notice
  fault : Option Fault

/-- No ticks. -/
def Batch.start (m : Machine) : Batch := ⟨m, false, false, none, [], none⟩

/-- One more tick. The last tick decides on the tone, the last error is kept. -/
def Batch.add (b : Batch) (t : Machine.Tick) : Batch :=
  match t.output with
  | .error f =>
    { b with machine := t.machine, notices := t.notices.reverse ++ b.notices, fault := some f }
  | .ok out =>
    { machine := t.machine
      changed := b.changed || out.changed
      beep := out.beep
      error := out.error <|> b.error
      notices := t.notices.reverse ++ b.notices
      fault := none }

/-- A number of ticks with the same keys, up to a fault. -/
def Batch.run (keys : Keypad) : Nat → Batch → Batch
  | 0, b => b
  | n + 1, b =>
    match b.fault with
    | some _ => b
    | none => run keys n (b.add (b.machine.tickWith keys))

/-- The ticks of one frame. -/
def batch (s : Session) (held : List Int) : Batch :=
  Batch.run (Controls.snapshot held) s.settings.ticksPerFrame.toNat (.start s.machine)

/-- What comes of a frame: the outcome, and whether the picture changed. -/
structure Updated where
  outcome : Outcome
  changed : Bool

/-- One frame's worth of ticks with the given keys held. An error of the program is
shown in the caption. -/
def update (s : Session) (held : List Int) : Updated :=
  let b := s.batch held
  let t := { s with machine := b.machine }
  match b.fault with
  | some f => ⟨⟨t, noticeEffects b.notices.reverse, some (.machine f)⟩, false⟩
  | none =>
    let failure := match b.error with
      | some c => [Effect.caption (t.caption (.failed t.machine.pc t.machine.fetch c))]
      | none => []
    let reported : Outcome := ⟨t, noticeEffects b.notices.reverse ++ failure, none⟩
    ⟨reported.andThen fun u => u.switchBeeper b.beep, b.changed⟩

/-- The screen as it is to be seen now. -/
def picture (s : Session) : Picture := Display.compose s.settings s.machine.screen

/-- The screen shown, unless it cannot be worked out. -/
def render (s : Session) : Outcome :=
  if Display.isDrawable s.settings then ⟨s, [.flip s.picture], none⟩ else ⟨s, [], some .bloom⟩

end Session

end Chip8
