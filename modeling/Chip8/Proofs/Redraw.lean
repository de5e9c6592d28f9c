import Chip8.Proofs.Transition
import Chip8.Proofs.Waits

/-!
# When the window shows the machine's picture

The picture is shown again only if a tick reports that it drew. Ticks report truly, so
at every wait for the clock the window shows what the machine shows, unless the program
was started over and nothing was drawn since: a restart makes the machine's picture
dark without a report, and the window keeps the old one.
-/

namespace Chip8

/-- The picture that an effect shows, if it shows one. -/
def Effect.picture? : Effect → Option Picture
  | .flip p => some p
  | _ => none

theorem Effect.picture?_of_isQuiet {e : Effect} (h : e.isQuiet = true) : e.picture? = none := by
  cases e <;> simp_all [isQuiet, picture?]

namespace Machine

theorem screen_sampleKey (m : Machine) (register : Int) :
    (m.sampleKey register).machine.screen = m.screen := by
  rw [sampleKey]
  split
  · rfl
  · split <;> rfl

theorem screen_step {m : Machine} {out : Output} (ended : m.step.output = .ok out)
    (unchanged : out.changed = false) : m.step.machine.screen = m.screen := by
  cases decoded : m.current with
  | error c => simp only [step, decoded, report, Tick.ended]
  | ok ins =>
      obtain ⟨w, op⟩ := ins
      cases done : m.execute ⟨w, op⟩ with
      | done n move =>
          have reported : n.changed = false := by
            simp only [step, decoded, done, Tick.ended, Except.ok.injEq] at ended
            rw [← unchanged, ← ended]
            rfl
          have same : n.screen = m.screen := by
            rcases execute_screen done with ⟨-, -, cleared⟩ | ⟨-, rfl⟩ | ⟨-, -, same, -⟩
            · simp [cleared] at reported
            · simp [drawSprite] at reported
            · exact same
          simpa only [step, decoded, done, Tick.ended] using same
      | refused n c =>
          rw [eq_of_execute_refused done] at done
          simp only [step, decoded, done, report, Tick.ended]
      | fault n f => simp [step, decoded, done, Tick.broken] at ended

/-- A tick that reports no change leaves the picture as it was. -/
theorem screen_tickWith {m : Machine} {keys : Keypad} {out : Output}
    (ended : (m.tickWith keys).output = .ok out) (unchanged : out.changed = false) :
    (m.tickWith keys).machine.screen = m.screen := by
  cases waiting : m.awaiting with
  | some register =>
      rw [tickWith_sample waiting]
      exact (m.begin keys).screen_sampleKey register
  | none =>
      rw [tickWith_run waiting] at ended ⊢
      exact screen_step ended unchanged

end Machine

namespace Session

section Batches
variable {keys : Keypad} {b : Batch}

theorem Batch.screen_add (through : (b.add (b.machine.tickWith keys)).fault = none)
    (unchanged : (b.add (b.machine.tickWith keys)).changed = false) :
    b.changed = false ∧
      (b.add (b.machine.tickWith keys)).machine.screen = b.machine.screen := by
  cases ended : (b.machine.tickWith keys).output with
  | error f => simp [add, ended] at through
  | ok out =>
      simp only [add, ended, Bool.or_eq_false_iff] at unchanged ⊢
      exact ⟨unchanged.1, Machine.screen_tickWith ended unchanged.2⟩

/-- Ticks that report no change leave the picture as it was. -/
theorem Batch.screen_run {n : Nat} (through : (Batch.run keys n b).fault = none)
    (unchanged : (Batch.run keys n b).changed = false) :
    b.changed = false ∧ (Batch.run keys n b).machine.screen = b.machine.screen := by
  induction n generalizing b with
  | zero => exact ⟨unchanged, rfl⟩
  | succ n ih =>
      simp only [Batch.run, fault_of_run through] at through unchanged ⊢
      obtain ⟨unchanged', later⟩ := ih through unchanged
      obtain ⟨before, same⟩ := screen_add (fault_of_run through) unchanged'
      exact ⟨before, later.trans same⟩

end Batches

/-- An event makes the picture dark if it starts the program over, and leaves it alone
otherwise. -/
theorem screen_handleEvent {d : Disk} {s : Session} {e : WindowEvent}
    (through : (s.handleEvent d e).stop = none) :
    (s.handleEvent d e).session.settings = s.settings ∧
      (s.handleEvent d e).session.machine.screen =
        if e = .keyDown Controls.backspace then Screen.blank else s.machine.screen := by
  rcases s.handleEvent_cases d e with
    ⟨ends, same⟩ | ⟨rfl, same⟩ | ⟨rfl, same⟩ | ⟨-, -, -, other, same⟩
  · have other : e ≠ .keyDown Controls.backspace := by
      rcases ends with rfl | rfl <;> decide
    rw [same, if_neg other]
    exact ⟨rfl, rfl⟩
  · have other : WindowEvent.keyDown Controls.pause ≠ .keyDown Controls.backspace := by decide
    rw [same, s.togglePause_eq.2, if_neg other]
    exact ⟨rfl, rfl⟩
  · rw [same] at through ⊢
    obtain ⟨n, session, fresh⟩ := restart_through through
    rw [session, if_pos rfl]
    refine ⟨rfl, ?_⟩
    rcases fresh with rfl | ⟨program, rfl⟩
    · rfl
    · rfl
  · rw [same, if_neg other]
    exact ⟨rfl, rfl⟩

theorem screen_handleEvents {d : Disk} {s : Session} {events : List WindowEvent}
    (through : (s.handleEvents d events).stop = none) :
    (s.handleEvents d events).session.settings = s.settings ∧
      (s.handleEvents d events).session.machine.screen =
        if .keyDown Controls.backspace ∈ events then Screen.blank else s.machine.screen := by
  induction events generalizing s with
  | nil => exact ⟨rfl, rfl⟩
  | cons e rest ih =>
      obtain ⟨first, later⟩ := (Outcome.stop_andThen_iff _ _).1 through
      obtain ⟨settings, screen⟩ := screen_handleEvent first
      obtain ⟨settings', screen'⟩ := ih later
      rw [handleEvents, Outcome.andThen_of_none first]
      refine ⟨settings'.trans settings, ?_⟩
      rw [screen', screen]
      by_cases again : .keyDown Controls.backspace ∈ rest
      · simp [again]
      · simp [again, eq_comm]

theorem screen_update {s : Session} {held : List Int}
    (through : (s.update held).outcome.stop = none) :
    (s.update held).outcome.session.settings = s.settings ∧
      ((s.update held).changed = false →
        (s.update held).outcome.session.machine.screen = s.machine.screen) := by
  obtain ⟨fault, changed, session⟩ := update_through through
  rw [session, changed]
  exact ⟨rfl, fun unchanged => (Batch.screen_run fault unchanged).2⟩

/-- The machine's part of a frame leaves its picture alone, or ends with showing it. -/
theorem advance_through {s : Session} {held : List Int} (through : (s.advance held).stop = none) :
    (s.advance held).session.settings = s.settings ∧
      ((s.advance held).Quiet ∧ (s.advance held).session.machine.screen = s.machine.screen ∨
        ∃ quiet, (∀ e ∈ quiet, e.isQuiet = true) ∧
          (s.advance held).effects = quiet ++ [.flip (s.advance held).session.picture]) := by
  rcases s.advance_cases held with ⟨-, idle⟩ | ⟨-, unchanged, update⟩ | ⟨-, -, update⟩
  · rw [idle]
    exact ⟨rfl, .inl ⟨Outcome.quiet_idle s, rfl⟩⟩
  · rw [update] at through ⊢
    obtain ⟨settings, same⟩ := screen_update through
    exact ⟨settings, .inl ⟨s.quiet_update held, same unchanged⟩⟩
  · rw [update] at through ⊢
    obtain ⟨updated, rendered⟩ := (Outcome.stop_andThen_iff _ _).1 through
    have shown := render_through rendered
    rw [Outcome.andThen_of_none updated, shown]
    exact ⟨(screen_update updated).1, .inr ⟨_, s.quiet_update held, rfl⟩⟩

/-- What a frame does to the picture: it only handles events and leaves the window alone,
or it ends with showing the machine's picture. -/
theorem work_through {d : Disk} {s : Session} {f : Frame} (through : (s.work d f).stop = none) :
    (s.work d f).session.settings = s.settings ∧
      ((s.work d f).Quiet ∧
          (s.work d f).session.machine.screen =
            (if .keyDown Controls.backspace ∈ f.events then Screen.blank else s.machine.screen) ∨
        ∃ quiet, (∀ e ∈ quiet, e.isQuiet = true) ∧
          (s.work d f).effects = quiet ++ [.flip (s.work d f).session.picture]) := by
  obtain ⟨handled, advanced⟩ := (Outcome.stop_andThen_iff _ _).1 through
  obtain ⟨settings, screen⟩ := screen_handleEvents handled
  obtain ⟨settings', shown⟩ := advance_through advanced
  have quiet := s.quiet_handleEvents d f.events
  rw [work, Outcome.andThen_of_none handled]
  refine ⟨settings'.trans settings, shown.imp ?_ ?_⟩
  · rintro ⟨silent, same⟩
    refine ⟨fun e mem => (List.mem_append.1 mem).elim (quiet e) (silent e), ?_⟩
    rw [← screen, ← same]
  · rintro ⟨silent, calm, effects⟩
    refine ⟨(s.handleEvents d f.events).effects ++ silent, ?_, ?_⟩
    · exact fun e mem => (List.mem_append.1 mem).elim (quiet e) (calm e)
    · rw [effects, List.append_assoc]

/-- The picture in the window: the one that was shown last. -/
def lastPicture (effects : List Effect) : Option Picture := effects.reverse.findSome? Effect.picture?

theorem lastPicture_append (past effects : List Effect) :
    lastPicture (past ++ effects) = (lastPicture effects).or (lastPicture past) := by
  simp [lastPicture, List.findSome?_append]

theorem lastPicture_of_quiet {effects : List Effect} (h : ∀ e ∈ effects, e.isQuiet = true) :
    lastPicture effects = none := by
  rw [lastPicture, List.findSome?_eq_none_iff]
  intro e mem
  exact Effect.picture?_of_isQuiet (h e (List.mem_reverse.1 mem))

theorem lastPicture_flip (effects : List Effect) (p : Picture) :
    lastPicture (effects ++ [.flip p]) = some p := by
  rw [lastPicture_append]
  rfl

/-- Whether the program was started over since the picture was shown last, at a wait and
with the answer at the wait before. -/
def Wait.unseen (before : Bool) (w : Wait) : Bool :=
  (lastPicture w.effects).isNone &&
    (before || decide (WindowEvent.keyDown Controls.backspace ∈ w.frame.events))

/-- Whether the program was started over since the picture was shown last, at the last of
some waits. -/
def restartUnseen (ws : List Wait) : Bool := ws.foldl Wait.unseen false

/-- What is known of the picture in the window: it is the machine's, unless a restart was
not seen yet, when the machine's picture is dark. -/
def Known (past : List Effect) (unseen : Bool) (s : Session) : Prop :=
  if unseen then s.machine.screen = Screen.blank else lastPicture past = some s.picture

/-- One frame keeps what is known of the picture in the window. -/
theorem Known.work {d : Disk} {s : Session} {f : Frame} {past : List Effect} {unseen : Bool}
    (h : Known past unseen s) (through : (s.work d f).stop = none) :
    Known (past ++ (s.work d f).effects)
      (Wait.unseen unseen ⟨f, (s.work d f).effects, (s.work d f).session⟩)
      (s.work d f).session := by
  obtain ⟨settings, ⟨quiet, screen⟩ | ⟨silent, quiet, effects⟩⟩ := work_through through
  · have last := lastPicture_of_quiet quiet
    rw [Known, lastPicture_append, last, Wait.unseen]
    by_cases restarts : .keyDown Controls.backspace ∈ f.events
    · simp [screen, restarts, last]
    · simpa [screen, restarts, last, picture, settings, Known] using h
  · have last : lastPicture (s.work d f).effects = some (s.work d f).session.picture := by
      rw [effects, lastPicture_flip]
    simp [Known, Wait.unseen, last, lastPicture_append]

theorem Known.clock {s : Session} {past : List Effect} {unseen : Bool} (h : Known past unseen s)
    (rate : Int) : Known (past ++ [.clock rate]) unseen s := by
  rwa [Known, lastPicture_append]

/-- What is known of the picture before some waits is known at each of them. -/
theorem Known.follow {d : Disk} {s : Session} {ws : List Wait} (chain : Follow d s ws)
    {past : List Effect} {unseen : Bool} (h : Known past unseen s) {passed rest : List Wait}
    {w : Wait} (place : ws = passed ++ w :: rest) :
    Known (past ++ (passed.flatMap Wait.trace ++ w.effects))
      ((passed ++ [w]).foldl Wait.unseen unseen) w.session := by
  induction chain generalizing past unseen passed with
  | nil s => simp at place
  | cons running through more ih =>
      have next := h.work through
      cases passed with
      | nil =>
          obtain ⟨rfl, -⟩ := List.cons_eq_cons.1 place
          simpa using next
      | cons v passed =>
          obtain ⟨rfl, later⟩ := List.cons_eq_cons.1 place
          simpa [Wait.trace] using ih (next.clock _) later

/-- At every wait for the clock the window shows the machine's picture, unless the program
was started over since the picture was shown last. Then the machine's picture is dark. -/
theorem shown_at_wait {d : Disk} {s : Session} {script : List Frame}
    {before after : List Effect} {rate : Int}
    (h : (s.run d script).effects = before ++ .clock rate :: after) :
    ∃ passed w rest, s.waits d script = passed ++ w :: rest ∧
      before = .flip s.picture :: (passed.flatMap Wait.trace ++ w.effects) ∧
      if restartUnseen (passed ++ [w]) then w.session.machine.screen = Screen.blank
      else lastPicture before = some w.session.picture := by
  obtain ⟨passed, w, rest, waits, rfl⟩ := exists_wait h
  have start : Known [.flip s.picture] false s := by
    simp [Known, lastPicture, Effect.picture?]
  exact ⟨passed, w, rest, waits, rfl, start.follow (s.follow_waits d script) waits⟩

/-- A disk with a program that draws one sprite and then stays where it is. -/
def spriteDisk : Disk := Disk.empty.install "sprite.ch8" (.file [0xD0, 0x05, 0x12, 0x02])

/-- A silent session that has loaded the program of the sprite and makes one tick in a frame. -/
def spriteSession : Session :=
  (load spriteDisk
    ⟨{ Settings.default with clockHz := 60, glow := false }, Machine.initial (Generator.cycle []),
      none, true, false, ⟨false, none⟩⟩ (Path.ofString "sprite.ch8")).session

/-- A frame with a pause and a restart. -/
def restartPaused : Frame := ⟨[.keyDown Controls.pause, .keyDown Controls.backspace], []⟩

/-- The sprite is drawn in the first frame, and the second ends in a pause. -/
theorem waits_sprite :
    let drawn := spriteSession.work spriteDisk ⟨[], []⟩
    let restarted := drawn.session.work spriteDisk restartPaused
    spriteSession.waits spriteDisk [⟨[], []⟩, restartPaused] =
      [⟨⟨[], []⟩, drawn.effects, drawn.session⟩] ++
        ⟨restartPaused, restarted.effects, restarted.session⟩ ::
          restarted.session.waits spriteDisk [] := by
  intro drawn restarted
  have first : spriteSession.running = true ∧ drawn.stop = none :=
    ⟨by decide +kernel, Option.isNone_iff_eq_none.1 (by decide +kernel)⟩
  have second : drawn.session.running = true ∧ restarted.stop = none :=
    ⟨by decide +kernel, Option.isNone_iff_eq_none.1 (by decide +kernel)⟩
  rw [waits_cons first.1 first.2, waits_cons second.1 second.2]
  rfl

/-- The two waits of the sprite's program. At the first the window shows the machine's picture,
whose corner the sprite lights. At the second, after the restart, it still shows a lit corner. -/
theorem shown_at_wait_of_sprite :
    let drawn := spriteSession.work spriteDisk ⟨[], []⟩
    (∃ before rate after,
      (spriteSession.run spriteDisk [⟨[], []⟩, restartPaused]).effects =
        before ++ .clock rate :: after ∧
      lastPicture before = some drawn.session.picture ∧
      drawn.session.picture.pixel 0 0 ≠ spriteSession.picture.pixel 0 0) ∧
    ∃ before rate after,
      (spriteSession.run spriteDisk [⟨[], []⟩, restartPaused]).effects =
        before ++ .clock rate :: after ∧
      (lastPicture before).map (fun p => p.pixel 0 0) ≠ some (spriteSession.picture.pixel 0 0) ∧
      ∃ passed w rest,
        spriteSession.waits spriteDisk [⟨[], []⟩, restartPaused] = passed ++ w :: rest ∧
        before = .flip spriteSession.picture :: (passed.flatMap Wait.trace ++ w.effects) ∧
        if restartUnseen (passed ++ [w]) then w.session.machine.screen = Screen.blank
        else lastPicture before = some w.session.picture := by
  intro drawn
  constructor
  · have first : spriteSession.waits spriteDisk [⟨[], []⟩, restartPaused] =
        [] ++ ⟨⟨[], []⟩, drawn.effects, drawn.session⟩ :: _ := waits_sprite
    obtain ⟨after, effects⟩ := split_of_waits (by decide +kernel) first
    obtain ⟨passed, w, rest, place, before, shown⟩ := shown_at_wait effects
    obtain ⟨rfl, rfl⟩ := place_unique first place (List.cons.inj before).2
    rw [if_neg (by decide +kernel)] at shown
    refine ⟨_, _, after, effects, ?_, ?_⟩
    · simpa only using shown
    · decide +kernel
  · obtain ⟨after, effects⟩ := split_of_waits (by decide +kernel) waits_sprite
    exact ⟨_, _, after, effects, by decide +kernel, shown_at_wait effects⟩

/-- After a restart in a pause the window goes on to show the sprite of the old run. -/
theorem stale_after_restart :
    ∃ before rate after passed w rest,
      (spriteSession.run spriteDisk [⟨[], []⟩, restartPaused]).effects =
        before ++ .clock rate :: after ∧
      spriteSession.waits spriteDisk [⟨[], []⟩, restartPaused] = passed ++ w :: rest ∧
      before = .flip spriteSession.picture :: (passed.flatMap Wait.trace ++ w.effects) ∧
      w.session.paused = true ∧ lastPicture before ≠ some w.session.picture := by
  obtain ⟨after, effects⟩ := split_of_waits (by decide +kernel) waits_sprite
  refine ⟨_, _, after, _, _, _, effects, waits_sprite, rfl, by decide +kernel, ?_⟩
  intro same
  -- The sprite lights the corner of the picture, which the restarted machine shows dark.
  have corner := congrArg (Option.map fun p => p.pixel 0 0) same
  revert corner
  decide +kernel

end Session

end Chip8
