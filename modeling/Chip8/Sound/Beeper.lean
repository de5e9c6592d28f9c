import Chip8.Sound.Wave
import Chip8.Log

/-!
# The beeper

The beeper plays its wave while the machine asks for a tone. It speaks to the
sound device only when something changes, and without a device it stays silent.
-/

namespace Chip8

/-- The sound device: what it settled on, or why there is none. -/
inductive Mixer
  | ready (frequency channels : Int)
  | unavailable (reason : String)

/-- What the beeper tells the sound device. -/
inductive SoundCommand
  | open (frequency bits channels : Int)
  | play (loops : Int)
  | stop
deriving DecidableEq

/-- A beeper; without a wave it is silent. -/
structure Beeper where
  playing : Bool
  wave : Option Wave
deriving DecidableEq

namespace Beeper

/-- The samples in a second that the beeper asks for. -/
def sampleRate : Int := 44100

/-- What the beeper asks of the device: signed samples of sixteen bits in one channel. -/
def opening : SoundCommand := .open sampleRate (-16) 1

/-- A beeper on a device, unless the device needs a wave and there is none. -/
def make (mixer : Mixer) (tone : Int) (volume : Number) :
    Except Wave.Error (Beeper × List Log.Line) :=
  match mixer with
  | .unavailable reason =>
    .ok (⟨false, none⟩,
      [⟨.warning, .session, "Audio unavailable, running silent: " ++ reason⟩])
  | .ready frequency channels =>
    (Wave.make frequency channels tone volume).map fun w => (⟨false, some w⟩, [])

/-- The beeper after a look at the machine, and what it tells the device. -/
def update (b : Beeper) (beep : Bool) : Beeper × List SoundCommand :=
  if b.wave.isNone ∨ beep = b.playing then (b, [])
  else ({ b with playing := beep }, [if beep then .play (-1) else .stop])

theorem wave_update (b : Beeper) (beep : Bool) : (b.update beep).1.wave = b.wave := by
  unfold update
  split <;> rfl

end Beeper

end Chip8
