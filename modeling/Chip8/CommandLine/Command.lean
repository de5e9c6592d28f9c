import Chip8.CommandLine.Grammar
import Chip8.Storage.Path
import Chip8.Color
import Chip8.Memory

/-!
# Commands

There are two commands: one runs a program in a window, the other writes its
listing. Each has a grammar of flags and one positional argument, the program.
-/

namespace Chip8.CommandLine

/-- What a flag for a number gives: the number, or nothing, if only a double dash was
attached to the flag. -/
inductive Given
  | number (i : Int)
  | blank
deriving DecidableEq

/-- The arguments of a run. -/
structure RunArguments where
  rom : Path
  config : Option Path
  scale : Option Given
  clockHz : Option Given
  scheme : Option Scheme
  noGlow : Bool

/-- The arguments of a listing. -/
structure ListArguments where
  rom : Path
  output : Option Path
  origin : Given

/-- A command with its arguments. -/
inductive Command
  | run (a : RunArguments)
  | list (a : ListArguments)

/-- The paths that a command names. -/
def Command.paths : Command → List Path
  | run a => a.rom :: a.config.toList
  | list a => a.rom :: a.output.toList

/-- A whole command line. -/
structure Arguments where
  verbose : Bool
  command : Command

/-- Why there are no arguments to work with. -/
inductive Refusal
  | help
  | fault (program message : String)

/-- The line that tells of a fault. -/
def Refusal.line : Refusal → String
  | help => ""
  | fault program message => program ++ ": error: " ++ message

/-- The text of a refusal on the second output. -/
def Refusal.text (r : Refusal) : PointText :=
  match r with
  | help => []
  | fault _ _ => PointText.ofString (r.line ++ "\n")

/-- The exit status: a request for help is no failure. -/
def Refusal.exitCode : Refusal → Nat
  | help => 0
  | fault _ _ => 2

/-- The name of the program. -/
def programName : String := "chip8vm"

/-- The request for help. -/
def helpFlag : Flag := ⟨.help, ["-h", "--help"], false⟩

/-- The flags before the command. Everything behind the command's name belongs to it. -/
def mainGrammar : Grammar where
  program := programName
  flags := [helpFlag, ⟨.verbose, ["-v", "--verbose"], false⟩]
  positional := "command"
  takesRest := true

/-- The flags of a run. -/
def runGrammar : Grammar where
  program := programName ++ " run"
  flags :=
    [helpFlag, ⟨.config, ["--config"], true⟩, ⟨.scale, ["--scale"], true⟩,
      ⟨.clock, ["--hz"], true⟩, ⟨.color, ["--color"], true⟩, ⟨.noGlow, ["--no-glow"], false⟩]
  positional := "rom"
  takesRest := false

/-- The flags of a listing. -/
def listGrammar : Grammar where
  program := programName ++ " disasm"
  flags :=
    [helpFlag, ⟨.output, ["-o", "--output"], true⟩, ⟨.origin, ["--origin"], true⟩]
  positional := "rom"
  takesRest := false

/-- The fault of a value that is not one of some words. -/
def invalidChoice (title value : String) (choices : List String) : String :=
  argumentFault title ("invalid choice: " ++ Text.Quoted.ofString value ++ " (choose from " ++
    String.intercalate ", " (choices.map Text.Quoted.ofString) ++ ")")

/-- The fault of a value of the wrong kind. -/
def invalidValue (f : Flag) (kind value : String) : String :=
  argumentFault f.title ("invalid " ++ kind ++ " value: " ++ Text.Quoted.ofString value)

/-- The fault of a command line without its positional argument. -/
def missingPositional (g : Grammar) : String :=
  "the following arguments are required: " ++ g.positional

/-- The fault of arguments that are left over. -/
def unrecognized (extras : List String) : String :=
  "unrecognized arguments: " ++ String.intercalate " " extras

/-- The names of the colour schemes in alphabetical order. -/
def schemeChoices : List String := ["amber", "blue", "green", "white"]

end Chip8.CommandLine
