import Chip8.Proofs.Activities
import Chip8.Proofs.Images
import Chip8.Proofs.Inputs

/-!
# Restarts

A session that loads a program, or starts it over, comes to the state of a new machine
with that program, whatever happened before. Only the random bytes go on. So from then on
the machine does what a new machine does that is given the bytes which are still to come.
If the program cannot be read, nothing happens at all.
-/

namespace Chip8

namespace Machine

/-- A reset machine with a program is a new one with that program, but for its generator. -/
theorem load_reset (m : Machine) (g : Generator) (program : List UInt8) :
    m.reset.load program = { (initial g).load program with generator := m.generator } := by
  simp only [reset, load, initial]

/-- Two ticks hand out the same, and their machines are the same but for generators that
give the same bytes. -/
structure Tick.Matches (t u : Tick) : Prop where
  machine : u.machine = { t.machine with generator := u.machine.generator }
  bytes : Generator.SameBytes t.machine.generator u.machine.generator
  output : ∃ out, t.output = .ok out ∧ u.output = .ok out

/-- With another generator that gives the same bytes a machine does the same. -/
theorem matches_run {m : Machine} (h : Reachable m) {g : Generator}
    (same : Generator.SameBytes m.generator g) (reachable : Reachable { m with generator := g })
    (history : List Keypad) :
    List.Forall₂ Tick.Matches (m.run (history.map Vector.toList))
      (({ m with generator := g } : Machine).run (history.map Vector.toList)) := by
  have start : Alike Generator.SameBytes m { m with generator := g } := ⟨rfl, same⟩
  have alike := start.run Generator.outlasting_sameBytes h (.refl m history)
  -- Machines that are alike may differ in their keys, but here both runs have the same.
  have keypads := (keypads_run h history).trans (keypads_run reachable history).symm
  rw [← List.forall₂_eq_eq_eq, List.forall₂_map_left_iff, List.forall₂_map_right_iff] at keypads
  refine keypads.mp ?_ alike
  rintro t u keypad ⟨⟨same, bytes⟩, handed⟩
  rw [← keypad] at same
  exact ⟨same, bytes, handed⟩

end Machine

namespace Session

theorem load_of_error {d : Disk} {path : Path} {e : Disk.Error} (h : d.read path.text = .error e)
    (s : Session) : s.load d path = ⟨s, [], some (.disk e)⟩ := by
  rw [load, Program.read_of_error h]

theorem handleEvent_backspace {d : Disk} {s : Session} {path : Path} (h : s.rom = some path) :
    s.handleEvent d (.keyDown Controls.backspace) = s.load d path := by
  have restarts : s.handleEvent d (.keyDown Controls.backspace) = s.restart d := rfl
  rw [restarts, restart, h]

/-- A frame that starts with a restart of a program that cannot be read breaks the session
off before anything happens. -/
theorem frames_of_unreadable {d : Disk} {s : Session} {path : Path} {e : Disk.Error}
    (h : d.read path.text = .error e) (rom : s.rom = some path) (running : s.running = true)
    (events : List WindowEvent) (held : List Int) (script : List Frame) :
    s.frames d (⟨.keyDown Controls.backspace :: events, held⟩ :: script) =
      ⟨s, [], some (.disk e)⟩ := by
  have failed : s.handleEvent d (.keyDown Controls.backspace) = ⟨s, [], some (.disk e)⟩ := by
    rw [handleEvent_backspace rom, load_of_error h]
  simp only [frames, running, if_true, frame, handleEvents, failed, Outcome.andThen]

/-- Loading a program, or starting it over with Backspace, makes the machine a new one with
that program that goes on with the same random bytes, whatever the session did before. If
the program cannot be read, the session is broken off and stays exactly as it was. -/
theorem restart_eq_fresh {d : Disk} {s : Session} {path : Path} {o : Outcome}
    (h : o = s.load d path ∨
      s.rom = some path ∧ o = s.handleEvent d (.keyDown Controls.backspace)) :
    (∀ program, d.read path.text = .ok program →
      o.stop = none ∧
      o.session = { s with machine := o.session.machine, rom := some path } ∧
      ∀ g, o.session.machine =
          { (Machine.initial g).load program with generator := s.machine.generator } ∧
        (Generator.SameBytes g s.machine.generator → ∀ history : List Keypad,
          let ticks := o.session.machine.run (history.map Vector.toList)
          ticks.length = history.length ∧
          List.Forall₂ Machine.Tick.Matches
            (((Machine.initial g).load program).run (history.map Vector.toList)) ticks)) ∧
    (∀ e, d.read path.text = .error e →
      o = ⟨s, [], some (.disk e)⟩ ∧
      (s.rom = some path → s.running = true → ∀ events held script,
        s.frames d (⟨.keyDown Controls.backspace :: events, held⟩ :: script) =
          ⟨s, [], some (.disk e)⟩)) := by
  obtain rfl : o = s.load d path := by
    rcases h with loaded | ⟨rom, restarted⟩
    · exact loaded
    · exact restarted.trans (handleEvent_backspace rom)
  constructor
  · intro program read
    obtain ⟨stop, session⟩ := load_of_read (Program.read_of_read read) s
    have machine : (s.load d path).session.machine = s.machine.reset.load program := by
      rw [session, Machine.load_take]
    refine ⟨stop, by rw [machine, session, Machine.load_take], fun g => ?_⟩
    have fresh := machine.trans (s.machine.load_reset g program)
    have new : ∀ g, ((Machine.initial g).load program).Reachable :=
      fun g => .event (.load program) (.initial g)
    have reachable : (s.load d path).session.machine.Reachable := machine ▸ new _
    refine ⟨fresh, fun same history => ⟨Machine.length_run reachable history, ?_⟩⟩
    rw [fresh] at reachable ⊢
    exact Machine.matches_run (new g) same reachable history
  · intro e unreadable
    exact ⟨load_of_error unreadable s, frames_of_unreadable unreadable⟩

/-- A game that took a random byte, set both timers and waits for a key is paused, and then
started over with a shorter program in its file. -/
theorem restart_eq_fresh_of_paused :
    let path := Path.ofString "game.ch8"
    let d := Disk.empty.install "game.ch8" (.file [0xC0, 0xFF])
    let old := (Machine.initial (Generator.cycle [5, 9])).load
      [0xC0, 0xFF, 0xF0, 0x15, 0xF0, 0x18, 0xF1, 0x0A]
    let s : Session := ⟨Settings.default, old.follow (List.replicate 4 (Keypad.ofKeys [2])),
      some path, true, true, ⟨false, none⟩⟩
    let g : Generator := ⟨s.machine.generator.remaining, 0⟩
    let o := s.handleEvent d (.keyDown Controls.backspace)
    s.machine.awaiting = some 1 ∧ s.machine.sound = 5 ∧ d.read path.text = .ok [0xC0, 0xFF] ∧
      o.stop = none ∧
      o.session.machine =
        { (Machine.initial g).load [0xC0, 0xFF] with generator := s.machine.generator } ∧
      ((o.session.machine.tickWith Keypad.none).machine.reg 0 = 9) ∧
      List.Forall₂ Machine.Tick.Matches
        (((Machine.initial g).load [0xC0, 0xFF]).run [Keypad.none.toList])
        (o.session.machine.run [Keypad.none.toList]) ∧
      s.load Disk.empty path = ⟨s, [], some (.disk ⟨.missing, "game.ch8"⟩)⟩ := by
  intro path d old s g o
  have state : s.machine.awaiting = some 1 ∧ s.machine.sound = 5 := by decide +kernel
  have file : d.read path.text = .ok [0xC0, 0xFF] := by decide +kernel
  have missing : Disk.empty.read path.text = .error ⟨.missing, "game.ch8"⟩ := by decide +kernel
  obtain ⟨stop, -, fresh⟩ := (restart_eq_fresh (o := o) (.inr ⟨rfl, rfl⟩)).1 _ file
  obtain ⟨machine, runs⟩ := fresh g
  have bytes : Generator.SameBytes g s.machine.generator :=
    fun i => congrArg s.machine.generator.remaining (Nat.zero_add i)
  refine ⟨state.1, state.2, file, stop, machine, ?_, (runs bytes [Keypad.none]).2, ?_⟩
  · rw [machine]
    decide +kernel
  · exact ((restart_eq_fresh (.inl rfl)).2 _ missing).1

end Session

end Chip8
