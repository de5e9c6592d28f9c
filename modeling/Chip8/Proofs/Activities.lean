import Chip8.Session.Loop

/-!
# What an activity of a session may do

An activity is a chain of steps, and the first that is broken off ends it. An event
closes the window, pauses, starts the program over or does nothing; the machine's part
of a frame runs a batch of ticks unless the session is paused, and shows the picture if
the batch reported a change. Only that picture and the wait at the end of a frame are
more than captions, sounds and lines of the log.
-/

namespace Chip8

/-- Whether an effect neither shows a picture nor waits for the clock. -/
def Effect.isQuiet : Effect → Bool
  | .flip _ | .clock _ => false
  | .caption _ | .sound _ | .log _ => true

namespace Session

namespace Outcome

theorem andThen_of_none {o : Outcome} (h : o.stop = none) (next : Session → Outcome) :
    o.andThen next = ⟨(next o.session).session, o.effects ++ (next o.session).effects,
      (next o.session).stop⟩ := by
  rw [andThen, h]

theorem andThen_of_some {o : Outcome} {stop : Stop} (h : o.stop = some stop)
    (next : Session → Outcome) : o.andThen next = o := by
  rw [andThen, h]

theorem stop_andThen_iff (o : Outcome) (next : Session → Outcome) :
    (o.andThen next).stop = none ↔ o.stop = none ∧ (next o.session).stop = none := by
  cases h : o.stop with
  | none => simp [andThen_of_none h]
  | some stop => simp [andThen_of_some h, h]

theorem idle_andThen (s : Session) (next : Session → Outcome) : (idle s).andThen next = next s :=
  rfl

theorem andThen_idle (o : Outcome) : o.andThen idle = o := by
  cases h : o.stop with
  | none => simp [andThen_of_none h, idle, ← h]
  | some stop => exact andThen_of_some h _

theorem andThen_assoc (o : Outcome) (next later : Session → Outcome) :
    (o.andThen next).andThen later = o.andThen fun s => (next s).andThen later := by
  cases first : o.stop with
  | some stop => simp only [andThen, first]
  | none =>
      cases second : (next o.session).stop with
      | some stop => simp only [andThen, first, second]
      | none => simp only [andThen, first, second, List.append_assoc]

/-- The effects of an activity stay when another one follows. -/
theorem effects_andThen (o : Outcome) (next : Session → Outcome) :
    ∃ more, (o.andThen next).effects = o.effects ++ more ∧ more ⊆ (next o.session).effects := by
  cases h : o.stop with
  | none => exact ⟨_, by rw [andThen_of_none h], List.Subset.refl _⟩
  | some stop => exact ⟨[], by rw [andThen_of_some h, List.append_nil], List.nil_subset _⟩

theorem mem_effects_andThen {o : Outcome} {next : Session → Outcome} {e : Effect}
    (h : e ∈ (o.andThen next).effects) : e ∈ o.effects ∨ e ∈ (next o.session).effects := by
  obtain ⟨more, effects, later⟩ := o.effects_andThen next
  rw [effects] at h
  exact (List.mem_append.1 h).imp_right fun mem => later mem

/-- Neither a picture nor a wait for the clock comes of an activity. -/
def Quiet (o : Outcome) : Prop := ∀ e ∈ o.effects, e.isQuiet = true

theorem Quiet.andThen {o : Outcome} {next : Session → Outcome} (first : o.Quiet)
    (second : ∀ t, (next t).Quiet) : (o.andThen next).Quiet := by
  intro e mem
  exact (mem_effects_andThen mem).elim (first e) (second o.session e)

theorem quiet_idle (s : Session) : (idle s).Quiet := by
  intro e mem
  cases mem

end Outcome

/-- A session that starts has made its beeper, and its caption is plain. -/
theorem exists_made_of_start {settings : Settings} {machine : Machine} {mixer : Mixer}
    {o : Outcome} (h : Session.start settings machine mixer = .ok o) :
    ∃ made, Beeper.make mixer settings.toneHz settings.volume = .ok made ∧
      o = ⟨⟨settings, machine, none, true, false, made.1⟩,
        .sound Beeper.opening :: made.2.map .log ++ [.caption ⟨"no ROM", .plain⟩], none⟩ := by
  cases made : Beeper.make mixer settings.toneHz settings.volume with
  | error e => simp [start, made, Except.map] at h
  | ok found =>
      rw [start, made] at h
      cases h
      exact ⟨found, rfl, rfl⟩

section Events
variable (d : Disk) (s : Session)

theorem quiet_noticeEffects (notices : List Machine.Notice) (stop : Option Stop) :
    Outcome.Quiet ⟨s, noticeEffects notices, stop⟩ := by
  intro e mem
  obtain ⟨notice, -, rfl⟩ := List.mem_map.1 mem
  rfl

theorem quiet_load (path : Path) : (s.load d path).Quiet := by
  cases read : Program.read d path with
  | error e => simp [load, read, Outcome.Quiet]
  | ok found =>
      have lines : ∀ line : Log.Line, (Effect.log line).isQuiet = true := fun _ => rfl
      have caption : ∀ c : Caption, (Effect.caption c).isQuiet = true := fun _ => rfl
      have notices := s.quiet_noticeEffects (Machine.loadNotices found.1) none
      simp only [load, read, Outcome.Quiet, List.forall_mem_append, List.forall_mem_map,
        List.forall_mem_cons] at notices ⊢
      exact ⟨⟨fun line _ => lines line, notices⟩, caption _, lines _, fun _ mem => (nomatch mem)⟩

theorem quiet_switchBeeper (beep : Bool) : (s.switchBeeper beep).Quiet := by
  intro e mem
  obtain ⟨command, -, rfl⟩ := List.mem_map.1 mem
  rfl

theorem quiet_togglePause : s.togglePause.Quiet := by
  have shown : ∀ (t : Session) (c : Caption), Outcome.Quiet ⟨t, [.caption c], none⟩ := by
    intro t c e mem
    rw [List.mem_singleton.1 mem]
    rfl
  simp only [togglePause]
  split
  · exact (shown _ _).andThen fun t => t.quiet_switchBeeper false
  · exact shown _ _

theorem quiet_restart : (s.restart d).Quiet := by
  rw [restart]
  split
  · exact s.quiet_load d _
  · exact Outcome.quiet_idle _

theorem togglePause_eq :
    s.togglePause.stop = none ∧
      s.togglePause.session =
        { s with
          paused := !s.paused
          beeper := if s.paused then s.beeper else (s.beeper.update false).1 } := by
  obtain ⟨settings, machine, rom, running, paused, beeper⟩ := s
  cases paused <;> exact ⟨rfl, rfl⟩

theorem effects_togglePause :
    s.togglePause.effects = .caption (s.caption (if s.paused then .plain else .paused)) ::
      if s.paused then [] else (s.beeper.update false).2.map .sound := by
  obtain ⟨settings, machine, rom, running, paused, beeper⟩ := s
  cases paused <;> rfl

/-- A restart that is not broken off changes nothing but the machine, which is a fresh one
with at most a program in its memory. -/
theorem restart_through {d : Disk} {s : Session} (h : (s.restart d).stop = none) :
    ∃ n : Machine, (s.restart d).session = { s with machine := n } ∧
      (n = s.machine.reset ∨ ∃ program, n = s.machine.reset.load program) := by
  cases rom : s.rom with
  | none => exact ⟨s.machine.reset, by simp [restart, rom, Outcome.idle], .inl rfl⟩
  | some path =>
      cases read : Program.read d path with
      | error e => simp [restart, rom, load, read] at h
      | ok found =>
          refine ⟨s.machine.reset.load found.1, ?_, .inr ⟨found.1, rfl⟩⟩
          simp [restart, rom, load, read]

/-- An event closes the window, pauses, starts the program over or does nothing. -/
theorem handleEvent_cases (e : WindowEvent) :
    (e = .quit ∨ e = .keyDown Controls.escape) ∧
        s.handleEvent d e = .idle { s with running := false } ∨
      e = .keyDown Controls.pause ∧ s.handleEvent d e = s.togglePause ∨
      e = .keyDown Controls.backspace ∧ s.handleEvent d e = s.restart d ∨
      e ≠ .quit ∧ e ≠ .keyDown Controls.escape ∧ e ≠ .keyDown Controls.pause ∧
        e ≠ .keyDown Controls.backspace ∧ s.handleEvent d e = .idle s := by
  cases e with
  | quit => exact .inl ⟨.inl rfl, rfl⟩
  | keyDown code =>
      by_cases ends : code = Controls.escape
      · subst ends
        exact .inl ⟨.inr rfl, rfl⟩
      by_cases pauses : code = Controls.pause
      · subst pauses
        exact .inr (.inl ⟨rfl, rfl⟩)
      by_cases restarts : code = Controls.backspace
      · subst restarts
        exact .inr (.inr (.inl ⟨rfl, rfl⟩))
      · simp [handleEvent, ends, pauses, restarts]
  | keyUp code => simp [handleEvent]
  | motion => simp [handleEvent]

theorem quiet_handleEvent (e : WindowEvent) : (s.handleEvent d e).Quiet := by
  rcases s.handleEvent_cases d e with
    ⟨-, same⟩ | ⟨-, same⟩ | ⟨-, same⟩ | ⟨-, -, -, -, same⟩ <;> rw [same]
  · exact Outcome.quiet_idle _
  · exact s.quiet_togglePause
  · exact s.quiet_restart d
  · exact Outcome.quiet_idle s

theorem quiet_handleEvents (events : List WindowEvent) : (s.handleEvents d events).Quiet := by
  induction events generalizing s with
  | nil => exact Outcome.quiet_idle s
  | cons e rest ih => exact (s.quiet_handleEvent d e).andThen fun t => ih t

end Events

/-- A frame has at least one tick. -/
theorem exists_ticksPerFrame_eq (settings : Settings) :
    ∃ n, settings.ticksPerFrame.toNat = n + 1 := by
  refine ⟨settings.ticksPerFrame.toNat - 1, ?_⟩
  simp only [Settings.ticksPerFrame]
  omega

/-- A batch that was broken off makes no more ticks. -/
theorem Batch.run_of_fault {keys : Keypad} {b : Batch} {f : Fault} (h : b.fault = some f)
    (n : Nat) : Batch.run keys n b = b := by
  cases n with
  | zero => rfl
  | succ n => rw [Batch.run, h]

/-- Ticks that no fault breaks off start without a fault. -/
theorem Batch.fault_of_run {keys : Keypad} {n : Nat} {b : Batch}
    (h : (Batch.run keys n b).fault = none) : b.fault = none := by
  cases fault : b.fault with
  | none => rfl
  | some f => rw [← fault, ← Batch.run_of_fault fault n, h]

section Frames
variable (s : Session) (held : List Int)

theorem quiet_update : (s.update held).outcome.Quiet := by
  simp only [update]
  split
  · exact quiet_noticeEffects _ _ _
  · refine Outcome.Quiet.andThen ?_ fun t => t.quiet_switchBeeper _
    intro e mem
    rcases List.mem_append.1 mem with notices | failure
    · exact s.quiet_noticeEffects _ none e notices
    · split at failure
      · rw [List.mem_singleton.1 failure]
        rfl
      · cases failure

/-- An update that is not broken off takes over the machine and the tone of its batch. -/
theorem update_through {s : Session} {held : List Int}
    (h : (s.update held).outcome.stop = none) :
    (s.batch held).fault = none ∧ (s.update held).changed = (s.batch held).changed ∧
      (s.update held).outcome.session =
        { s with
          machine := (s.batch held).machine
          beeper := (s.beeper.update (s.batch held).beep).1 } := by
  cases fault : (s.batch held).fault with
  | none =>
      refine ⟨rfl, ?_⟩
      simp only [update, fault]
      exact ⟨trivial, rfl⟩
  | some f => simp [update, fault] at h

/-- Nothing happens to a paused machine; otherwise an update is made, and the picture
is shown if the update reports a change. -/
theorem advance_cases :
    s.paused = true ∧ s.advance held = .idle s ∨
      s.paused = false ∧ (s.update held).changed = false ∧
        s.advance held = (s.update held).outcome ∨
      s.paused = false ∧ (s.update held).changed = true ∧
        s.advance held = (s.update held).outcome.andThen render := by
  cases paused : s.paused <;> cases changed : (s.update held).changed <;>
    simp [advance, paused, changed]

theorem render_through {s : Session} (h : s.render.stop = none) :
    s.render = ⟨s, [.flip s.picture], none⟩ := by
  by_cases drawable : Display.isDrawable s.settings = true
  · exact if_pos drawable
  · simp [render, drawable] at h

end Frames

end Session

end Chip8
