/-!
# Log lines

Every part of the program reports what it does as lines of a log. A line has a
level and the part that it comes from; who reads the log decides what to show.
-/

namespace Chip8.Log

/-- How much a line matters. -/
inductive Level
  | debug
  | info
  | warning
deriving DecidableEq

/-- The name of a level in a printed line. -/
def Level.name : Level → String
  | debug => "DEBUG"
  | info => "INFO"
  | warning => "WARNING"

/-- The part of the program that writes a line. -/
inductive Source
  | machine
  | program
  | session
  | commandLine
deriving DecidableEq

/-- A line of the log. -/
structure Line where
  level : Level
  source : Source
  text : String
deriving DecidableEq

/-- A line as it is printed. -/
def Line.printed (line : Line) : String := "[" ++ line.level.name ++ "]:  " ++ line.text

/-- The lines that are printed: all of them, or all but the least important. -/
def shown (verbose : Bool) (lines : List Line) : List Line :=
  lines.filter fun line => verbose || line.level != .debug

end Chip8.Log
