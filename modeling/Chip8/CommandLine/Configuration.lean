import Chip8.CommandLine.Arguments
import Chip8.Settings.Change

/-!
# Settings of a run

The settings of a run come in three layers: the defaults, a settings file if one
is named, and the flags. Each layer is checked as a whole before the next is laid
over it.
-/

namespace Chip8.CommandLine

/-- Why there are no settings for a run. -/
inductive ConfigurationError
  | file (e : Settings.FileError)
  | change (e : Settings.ChangeError)

/-- The text of a failure. -/
def ConfigurationError.message : ConfigurationError → PointText
  | file e => e.message
  | change e => e.message

/-- A value that may be absent. -/
def optionalData (f : α → Data) : Option α → Data
  | some a => f a
  | none => .null

/-- What a flag for a number gives, as an untyped value. Nothing is a list without items. -/
def Given.data : Given → Data
  | number i => .int i
  | blank => .list []

/-- What the flags of a run change, absent where a flag was not given. -/
def RunArguments.changes (a : RunArguments) : List (PointText × Data) :=
  [(PointText.ofString Field.scale.name, optionalData Given.data a.scale),
    (PointText.ofString Field.clockHz.name, optionalData Given.data a.clockHz),
    (PointText.ofString Field.fgColor.name,
      optionalData (fun scheme => Settings.colorData scheme.color) a.scheme),
    (PointText.ofString Field.glow.name, if a.noGlow then .bool false else .null)]

/-- The settings under the flags. -/
def RunArguments.base (d : Disk) (a : RunArguments) : Except Settings.FileError Settings :=
  match a.config with
  | some path => Settings.ofFile d path.text
  | none => .ok Settings.default

/-- The settings of a run. -/
def RunArguments.settings (d : Disk) (a : RunArguments) : Except ConfigurationError Settings :=
  match a.base d with
  | .error e => .error (.file e)
  | .ok s =>
    match s.replace a.changes with
    | .error e => .error (.change e)
    | .ok s => .ok s

end Chip8.CommandLine
