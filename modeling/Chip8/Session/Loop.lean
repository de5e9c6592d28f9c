import Chip8.Session.Update

/-!
# The loop of a session

A session runs frame by frame. A frame handles the events of the window, runs the
machine unless the session is paused, shows the picture if it changed, and waits
for the clock. When no frames are left, the window is closed.
-/

namespace Chip8

/-- What the window holds for one frame: events, and the keys held after them. -/
structure Frame where
  events : List WindowEvent
  held : List Int

/-- The frame in which the keys of some characters are held and nothing else happens. -/
def Frame.holding (keys : String) : Frame := ⟨[], keys.toList.map Controls.codeOf⟩

namespace Session

/-- The machine's part of a frame. -/
def advance (s : Session) (held : List Int) : Outcome :=
  if s.paused then .idle s
  else
    let u := s.update held
    if u.changed then u.outcome.andThen render else u.outcome

/-- The wait for the clock at the end of a frame. -/
def awaitClock (s : Session) : Outcome := ⟨s, [.clock s.settings.frameRate], none⟩

/-- One frame. -/
def frame (d : Disk) (s : Session) (f : Frame) : Outcome :=
  ((s.handleEvents d f.events).andThen fun t => t.advance f.held).andThen awaitClock

/-- The frames of a session until it stops running. After the last frame the window
is closed. -/
def frames (d : Disk) (s : Session) : List Frame → Outcome
  | [] => if s.running then s.frame d ⟨[.quit], []⟩ else .idle s
  | f :: rest => if s.running then (s.frame d f).andThen fun t => t.frames d rest else .idle s

/-- A session from its first picture to its end, when the tone is switched off. -/
def run (d : Disk) (s : Session) (script : List Frame) : Outcome :=
  (s.render.andThen fun t => t.frames d script).andThen fun t => t.switchBeeper false

end Session

end Chip8
