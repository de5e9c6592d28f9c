import Chip8.CommandLine.Configuration
import Chip8.Listing
import Chip8.Session.Loop
import Chip8.Text.Lines

/-!
# Reports

A command line leaves behind an exit status, the texts on its two outputs, the
disk, and what its session did to the world. A failure that comes from the files
or the settings is told in one line; any other breaks the program off and there is
no report.
-/

namespace Chip8.CommandLine

/-- What a command works with: the disk, the sound device, the source of random bytes
and what happens at the window. -/
structure Surroundings where
  disk : Disk
  mixer : Mixer
  generator : Generator
  frames : List Frame

/-- Why a command fails. -/
inductive Failure
  | disk (e : Disk.Error)
  | configuration (e : ConfigurationError)
  | wave (e : Wave.Error)
  | machine (f : Fault)
  | bloom
  | noOrigin

namespace Failure

/-- What broke a session off as the failure of its command. -/
def ofStop : Stop → Failure
  | .disk e => .disk e
  | .machine f => .machine f
  | .bloom => .bloom

/-- The text of a failure. -/
def message : Failure → PointText
  | disk e => PointText.ofString e.message
  | configuration e => e.message
  | wave e => PointText.ofString e.message
  | machine f => PointText.ofString f.message
  | bloom => PointText.ofString "the strength of the glow is too large a number"
  | noOrigin => PointText.ofString "the listing has no origin"

/-- Whether a failure is told in one line. -/
def isTold : Failure → Bool
  | disk _ => true
  | configuration (.file (.json .tooDeep)) => false
  | configuration _ => true
  | machine (.keypadSize _) => true
  | machine .byteRange => true
  | machine _ => false
  | wave _ => false
  | bloom => false
  | noOrigin => false

end Failure

/-- What a command does. -/
structure Work where
  output : String
  disk : Disk
  log : List Log.Line
  /-- What the session did, if there was one. -/
  session : Option (List Effect)
  failure : Option Failure

/-- A command that fails before it does anything. -/
def Work.failed (d : Disk) (log : List Log.Line) (f : Failure) : Work := ⟨"", d, log, none, some f⟩

/-- The line about a listing that was written to a file. -/
def wroteLine (lines : Nat) (path : Path) : Log.Line :=
  ⟨.info, .commandLine, "Wrote " ++ toString lines ++ " lines to " ++ path.text⟩

/-- The lines of a program's listing. Without an origin only the listing without lines can be
written. -/
def ListArguments.lines? (a : ListArguments) (program : List UInt8) : Option (List String) :=
  match a.origin with
  | .number i => some (listing i program)
  | .blank => if program = [] then some [] else none

/-- Writing the listing of a program to a file or to the output. -/
def ListArguments.perform (w : Surroundings) (a : ListArguments) : Work :=
  match Program.read w.disk a.rom with
  | .error e => .failed w.disk [] (.disk e)
  | .ok (program, log) =>
    match a.lines? program with
    | none => .failed w.disk log .noOrigin
    | some lines =>
      let text := Listing.text lines
      match a.output with
      | none => ⟨text, w.disk, log, none, none⟩
      | some path =>
        match w.disk.write path.text text.toUTF8.toList with
        | .error e => .failed w.disk log (.disk e)
        | .ok d => ⟨"", d, log ++ [wroteLine lines.length path], none, none⟩

/-- The session of a run, from the opening of the window to its end. -/
def RunArguments.session (w : Surroundings) (a : RunArguments) (opened : Session.Outcome) :
    Session.Outcome :=
  (opened.andThen fun s => s.load w.disk a.rom).andThen fun s => s.run w.disk w.frames

/-- Running a program in a window. -/
def RunArguments.perform (w : Surroundings) (a : RunArguments) : Work :=
  match a.settings w.disk with
  | .error e => .failed w.disk [] (.configuration e)
  | .ok s =>
    match Session.start s (Machine.initial w.generator) w.mixer with
    | .error e => .failed w.disk [] (.wave e)
    | .ok opened =>
      let o := a.session w opened
      { output := ""
        disk := w.disk
        log := o.effects.filterMap Effect.line?
        session := some o.effects
        failure := o.stop.map Failure.ofStop }

/-- Doing what a command says. -/
def Command.perform (w : Surroundings) : Command → Work
  | .run a => a.perform w
  | .list a => a.perform w

/-- What a command line leaves behind. -/
structure Report where
  exitCode : Nat
  output : String
  /-- The text on the second output. -/
  errors : PointText
  disk : Disk
  /-- What the session did, if there was one. -/
  session : Option (List Effect)

/-- The lines on the second output. -/
def Report.errorLines (r : Report) : List PointText := Text.lines r.errors

/-- A text with a line end behind it. -/
def ended (t : PointText) : PointText := t ++ PointText.ofString "\n"

/-- The text that tells of a failure. -/
def failureText (f : Failure) : PointText :=
  ended (PointText.ofString (programName ++ ": ") ++ f.message)

/-- The text of the log as far as it is shown. -/
def shownText (verbose : Bool) (log : List Log.Line) : PointText :=
  (Log.shown verbose log).flatMap fun line => ended (PointText.ofString line.printed)

/-- The report of a command, unless it was broken off. -/
def Work.report (verbose : Bool) (w : Work) : Except Failure Report :=
  match w.failure with
  | none => .ok ⟨0, w.output, shownText verbose w.log, w.disk, w.session⟩
  | some f =>
    if f.isTold then
      .ok ⟨1, w.output, shownText verbose w.log ++ failureText f, w.disk, w.session⟩
    else .error f

/-- The report of a command line that says nothing to do. -/
def Refusal.report (d : Disk) (r : Refusal) : Report :=
  ⟨r.exitCode, "", r.text, d, none⟩

/-- The report of a command line. -/
def perform (w : Surroundings) (args : List String) : Except Failure Report :=
  match Arguments.read args with
  | .error refusal => .ok (refusal.report w.disk)
  | .ok a => (a.command.perform w).report a.verbose

end Chip8.CommandLine
