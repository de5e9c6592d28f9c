import Chip8.Display.Picture
import Chip8.Sound.Beeper
import Chip8.Machine.Condition
import Chip8.Storage.Disk
import Chip8.Assembly

/-!
# Effects of a session

What a session does to the world is a list of effects in the order in which they
happen: captions, sounds, pictures, waits for the clock and lines of the log.
-/

namespace Chip8

/-- What a caption says behind the name of the program. -/
inductive Status
  | plain
  | paused
  | failed (pc : Int) (word : Word) (c : Condition)
deriving DecidableEq

/-- The caption of the window. -/
structure Caption where
  program : String
  status : Status
deriving DecidableEq

namespace Caption

/-- The text of a status. -/
def statusText : Status → String
  | .plain => ""
  | .paused => "Paused"
  | .failed pc word c =>
    "$" ++ Text.Hex.text 3 pc ++ ": " ++ wordText word.value ++ " (" ++ c.message ++ ")"

/-- The text of a caption. -/
def text (c : Caption) : String :=
  "chip8vm - " ++ c.program ++
    if statusText c.status = "" then "" else " - " ++ statusText c.status

end Caption

/-- What a session does to the world. -/
inductive Effect
  | caption (c : Caption)
  | sound (c : SoundCommand)
  | flip (p : Picture)
  | clock (rate : Int)
  | log (line : Log.Line)

/-- The line of the log that an effect writes, if it writes one. -/
def Effect.line? : Effect → Option Log.Line
  | .log line => some line
  | _ => none

/-- What breaks a session off. -/
inductive Stop
  | disk (e : Disk.Error)
  | machine (f : Fault)
  | bloom

end Chip8
