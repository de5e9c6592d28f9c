import Chip8.Memory
import Chip8.Log
import Chip8.Storage.Disk

/-!
# Program images

A program is read from a file. Only what fits above the start of programs is
kept, and the log tells if anything was cut off.
-/

namespace Chip8.Program

/-- The log of a file of the given length. -/
def readLog (path : Path) (length : Nat) : List Log.Line :=
  (if Memory.capacity < length then
    [⟨.warning, .program, path.name ++ " is " ++ toString length ++ " bytes; only the first " ++
      toString Memory.capacity ++ " are loaded."⟩]
  else []) ++
  [⟨.debug, .program, "Read " ++ toString (min length Memory.capacity) ++ " bytes from " ++
    path.text ++ "."⟩]

/-- The program in a file, and what is reported about it. -/
def read (d : Disk) (path : Path) : Except Disk.Error (List UInt8 × List Log.Line) :=
  (d.read path.text).map fun bytes =>
    (bytes.take Memory.capacity, readLog path bytes.length)

end Chip8.Program
