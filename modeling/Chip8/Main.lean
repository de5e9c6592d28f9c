import Chip8.CommandLine.Report

/-!
# The program

Reads what stands at the paths that the command line names, has the report of the
command line worked out, and carries it out. The window is scripted: every line of
the standard input is a frame, and the characters in it are the keys that are held.
-/

namespace Chip8.Main

open CommandLine

/-- The number of the error that reading a directory gives. -/
def directoryError : UInt32 := 21

/-- What stands at a path. -/
def look (path : String) : IO (Option Node) := do
  try
    let bytes ← IO.FS.readBinFile path
    pure (some (.file bytes.toList))
  catch
    | .inappropriateType _ number _ =>
      pure (if number = directoryError then some .directory else none)
    | _ => pure none

/-- The disk with what stands at some paths. -/
def survey (d : Disk) : List Path → IO Disk
  | [] => pure d
  | path :: rest => do
    match ← look path.text with
    | some n => survey (d.install path.text n) rest
    | none => survey d rest

/-- The frames that the lines of a stream stand for. -/
partial def readFrames (input : IO.FS.Stream) (frames : List Frame) : IO (List Frame) := do
  let line ← input.getLine
  if line.isEmpty then pure frames.reverse
  else readFrames input (.holding line.trimAscii.toString :: frames)

/-- Everything that a command works with. -/
def surroundings (c : Command) : IO Surroundings := do
  let d ← survey Disk.empty (c.paths.flatMap Path.prefixes)
  let bytes ← IO.getRandomBytes 65536
  let frames ← match c with
    | .run _ => readFrames (← IO.getStdin) []
    | .list _ => pure []
  pure ⟨d, .ready Beeper.sampleRate 1, .cycle bytes.toList, frames⟩

/-- Writes the files that have new contents. -/
def save (before after : Disk) : List Path → IO Unit
  | [] => pure ()
  | path :: rest => do
    match after.node? (after.placeOf path) with
    | some (.file bytes) =>
      if before.node? (before.placeOf path) = some (.file bytes) then pure ()
      else IO.FS.writeBinFile path.text ⟨bytes.toArray⟩
    | _ => pure ()
    save before after rest

/-- A text with every surrogate that stands alone spelled out. -/
def spelled (t : PointText) : String :=
  String.ofList (t.flatMap fun p =>
    match p.char? with
    | some c => [c]
    | none => ['\\', 'u'] ++ Text.Quoted.lowerHex 4 p.value)

/-- Carries out a report. -/
def carryOut (before : Disk) (paths : List Path) (r : Report) : IO UInt32 := do
  save before r.disk paths
  IO.print r.output
  IO.eprint (spelled r.errors)
  pure (UInt32.ofNat r.exitCode)

end Chip8.Main

open Chip8

/-- Does what a command line says. -/
def main (args : List String) : IO UInt32 := do
  match CommandLine.Arguments.read args with
  | .error refusal => Main.carryOut Disk.empty [] (refusal.report Disk.empty)
  | .ok a =>
    let w ← Main.surroundings a.command
    match (a.command.perform w).report a.verbose with
    | .ok r => Main.carryOut w.disk a.command.paths r
    | .error f =>
      IO.eprintln (Main.spelled f.message)
      pure 1
