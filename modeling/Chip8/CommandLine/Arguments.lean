import Chip8.CommandLine.Command
import Chip8.CommandLine.Scan
import Chip8.Text.Numeral

/-!
# Arguments

What a scan finds is read in order into the arguments of a command. The first request
for help ends the reading, and so does the first fault; arguments that no command has
a place for are refused last.
-/

namespace Chip8.CommandLine

/-- A plain number given to a flag. -/
def integerValue (f : Flag) (value : String) : Except String Int :=
  match Text.Numeral.integer? value with
  | some i => .ok i
  | none => .error (invalidValue f "int" value)

/-- A number in any base given to a flag. -/
def addressValue (f : Flag) (value : String) : Except String Int :=
  match Text.Numeral.markedInteger? value with
  | some i => .ok i
  | none => .error (invalidValue f "_address" value)

/-- A colour scheme given to a flag. -/
def schemeValue (f : Flag) (value : String) : Except String Scheme :=
  match Scheme.ofName? value with
  | some scheme => .ok scheme
  | none => .error (invalidChoice f.title value schemeChoices)

/-- What was found, read in order by `take`, and then the end of the scan. A missing
positional argument is a fault of its own. -/
def readFound (g : Grammar) (take : α → Found → Except Refusal α) (given : α → Bool)
    (outcome : Except String (List String)) : α → List Found → Except Refusal (α × List String)
  | a, [] =>
    match outcome with
    | .error message => .error (.fault g.program message)
    | .ok extras =>
      if given a then .ok (a, extras) else .error (.fault g.program (missingPositional g))
  | a, item :: rest =>
    match take a item with
    | .error refusal => .error refusal
    | .ok a => readFound g take given outcome a rest

/-- The arguments so far, with the positional one still open. -/
structure Pending (α : Type) where
  rom : Option Path
  rest : α

/-- What a flag for a number gives; `read` reads the number. -/
def givenBy (read : Flag → String → Except String Int) (f : Flag) :
    Option String → Except String Given
  | none => .ok .blank
  | some value => (read f value).map .number

/-- The effect of one flag on the arguments of a run. A flag without its value sets a path
or a scheme back. -/
def runFlag (a : RunArguments) (f : Flag) (value : Option String) :
    Except String RunArguments :=
  match f.key with
  | .config => .ok { a with config := value.map Path.ofString }
  | .scale => (givenBy integerValue f value).map fun n => { a with scale := some n }
  | .clock => (givenBy integerValue f value).map fun n => { a with clockHz := some n }
  | .color =>
    match value with
    | none => .ok { a with scheme := none }
    | some name => (schemeValue f name).map fun scheme => { a with scheme := some scheme }
  | .noGlow => .ok { a with noGlow := true }
  | _ => .ok a

/-- The effect of one flag on the arguments of a listing. A flag without its value sets a
path back. -/
def listFlag (a : ListArguments) (f : Flag) (value : Option String) :
    Except String ListArguments :=
  match f.key with
  | .output => .ok { a with output := value.map Path.ofString }
  | .origin => (givenBy addressValue f value).map fun n => { a with origin := n }
  | _ => .ok a

/-- The effect of what was found on the arguments of a command. -/
def takeFound (g : Grammar) (flag : α → Flag → Option String → Except String α)
    (d : Pending α) : Found → Except Refusal (Pending α)
  | .positional values => .ok { d with rom := values.head?.map Path.ofString }
  | .flag f value =>
    if f.key = .help then .error .help
    else
      match flag d.rest f value with
      | .ok a => .ok { d with rest := a }
      | .error message => .error (.fault g.program message)

/-- The command that its arguments make, and what is left over. It starts from the arguments
that no flag has changed, and `complete` adds the program. -/
def readBy (g : Grammar) (flag : α → Flag → Option String → Except String α) (start : α)
    (complete : Path → α → Command) (args : List String) :
    Except Refusal (Command × List String) :=
  let scan := g.scan args
  (readFound g (takeFound g flag) (·.rom.isSome) scan.outcome ⟨none, start⟩ scan.found).map
    fun (d, extras) => (complete (d.rom.getD (Path.ofString "")) d.rest, extras)

/-- The arguments of a run before any flag. -/
def RunArguments.start : RunArguments := ⟨Path.ofString "", none, none, none, none, false⟩

/-- The arguments of a listing before any flag. -/
def ListArguments.start : ListArguments :=
  ⟨Path.ofString "", none, .number Memory.programStart⟩

/-- The arguments of a run, and what is left over. -/
def readRun (args : List String) : Except Refusal (Command × List String) :=
  readBy runGrammar runFlag .start (fun rom a => .run { a with rom }) args

/-- The arguments of a listing, and what is left over. -/
def readList (args : List String) : Except Refusal (Command × List String) :=
  readBy listGrammar listFlag .start (fun rom a => .list { a with rom }) args

/-- The names of the commands. -/
def commandNames : List String := ["run", "disasm"]

/-- The command of a name, with its arguments. -/
def readCommand (name : String) (args : List String) : Except Refusal (Command × List String) :=
  if name = "run" then readRun args
  else if name = "disasm" then readList args
  else .error (.fault mainGrammar.program (invalidChoice "command" name commandNames))

/-- The command line so far: its verbosity and its command with what that left over. -/
structure Progress where
  verbose : Bool
  command : Option (Command × List String)

/-- The effect of one flag, or of the command with everything behind it. -/
def takeMain (p : Progress) (found : Found) : Except Refusal Progress :=
  match found with
  | .positional (name :: args) =>
    (readCommand name args).map fun c => { p with command := some c }
  | .positional [] => .ok p
  | .flag f _ =>
    match f.key with
    | .help => .error .help
    | .verbose => .ok { p with verbose := true }
    | _ => .ok p

/-- The arguments of a command line. What no command has a place for is refused last. -/
def Arguments.read (args : List String) : Except Refusal Arguments :=
  let scan := mainGrammar.scan args
  match readFound mainGrammar takeMain (·.command.isSome) scan.outcome ⟨false, none⟩ scan.found with
  | .error refusal => .error refusal
  | .ok (progress, extras) =>
    match progress.command with
    | none => .error (.fault mainGrammar.program (missingPositional mainGrammar))
    | some (command, more) =>
      match extras ++ more with
      | [] => .ok ⟨progress.verbose, command⟩
      | left => .error (.fault mainGrammar.program (unrecognized left))

end Chip8.CommandLine
