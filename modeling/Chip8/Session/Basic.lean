import Chip8.Session.Effect
import Chip8.Session.Controls
import Chip8.Machine.Tick
import Chip8.Program

/-!
# Sessions

A session drives a machine in a window. This module holds its parts, what comes of
an activity, how programs are loaded and how the events of the window are handled.
An activity that is broken off keeps the effects it had up to there.
-/

namespace Chip8

/-- A machine in a window. -/
structure Session where
  settings : Settings
  machine : Machine
  rom : Option Path
  running : Bool
  paused : Bool
  beeper : Beeper

namespace Session

/-- What comes of an activity: the session after it, its effects, and what broke it
off, if anything did. -/
structure Outcome where
  session : Session
  effects : List Effect
  stop : Option Stop

/-- An activity that changes nothing. -/
def Outcome.idle (s : Session) : Outcome := ⟨s, [], none⟩

/-- Another activity, unless the first was broken off. -/
def Outcome.andThen (o : Outcome) (next : Session → Outcome) : Outcome :=
  match o.stop with
  | some _ => o
  | none =>
    let n := next o.session
    { n with effects := o.effects ++ n.effects }

/-- The lines of notices as effects. -/
def noticeEffects (notices : List Machine.Notice) : List Effect :=
  notices.map fun n => .log n.line

/-- The caption of a session with a status. -/
def caption (s : Session) (status : Status) : Caption :=
  ⟨match s.rom with
    | some path => path.stem
    | none => "no ROM", status⟩

/-- A new session, unless its tone has no wave. -/
def start (settings : Settings) (machine : Machine) (mixer : Mixer) :
    Except Wave.Error Outcome :=
  (Beeper.make mixer settings.toneHz settings.volume).map fun made =>
    let s : Session :=
      { settings := settings, machine := machine, rom := none, running := true, paused := false,
        beeper := made.1 }
    ⟨s, .sound Beeper.opening :: made.2.map .log ++ [.caption (s.caption .plain)], none⟩

/-- The session with its machine reset and the program of a file loaded. If the file
cannot be read, nothing happens. -/
def load (d : Disk) (s : Session) (path : Path) : Outcome :=
  match Program.read d path with
  | .error e => ⟨s, [], some (.disk e)⟩
  | .ok (program, log) =>
    let t := { s with machine := s.machine.reset.load program, rom := some path }
    ⟨t, log.map .log ++ noticeEffects (Machine.loadNotices program) ++
      [.caption (t.caption .plain), .log ⟨.info, .session, "Loaded " ++ path.name⟩], none⟩

/-- The program started over, or a fresh machine if there is none. -/
def restart (d : Disk) (s : Session) : Outcome :=
  match s.rom with
  | some path => s.load d path
  | none => .idle { s with machine := s.machine.reset }

/-- The beeper switched, and what it tells the device. -/
def switchBeeper (s : Session) (beep : Bool) : Outcome :=
  let (beeper, commands) := s.beeper.update beep
  ⟨{ s with beeper := beeper }, commands.map .sound, none⟩

/-- Pausing, which silences the beeper, or going on. -/
def togglePause (s : Session) : Outcome :=
  let t := { s with paused := !s.paused }
  let shown : Outcome := ⟨t, [.caption (t.caption (if t.paused then .paused else .plain))], none⟩
  if t.paused then shown.andThen fun u => u.switchBeeper false else shown

/-- One event of the window. -/
def handleEvent (d : Disk) (s : Session) : WindowEvent → Outcome
  | .quit => .idle { s with running := false }
  | .keyDown code =>
    if code = Controls.escape then .idle { s with running := false }
    else if code = Controls.pause then s.togglePause
    else if code = Controls.backspace then s.restart d
    else .idle s
  | .keyUp _ => .idle s
  | .motion => .idle s

/-- The events of the window in order. -/
def handleEvents (d : Disk) (s : Session) : List WindowEvent → Outcome
  | [] => .idle s
  | e :: rest => (s.handleEvent d e).andThen fun t => t.handleEvents d rest

end Session

end Chip8
