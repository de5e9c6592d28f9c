import Chip8.Proofs.Sights
import Chip8.Proofs.Tones

/-!
# Pauses

A pause leaves no trace. While a session is paused its frames do nothing but wait for the
clock, and the frame in which it goes on does what it would have done without the pause: only
the tone may have been switched off and on again. The caption that was set before the pause is
lost, but it was plain or tells of a condition that the machine reports again at once.

## Implementation notes

Two sessions that differ in their tone alone are followed side by side through the events of a
frame. Its ticks, or a pause, decide on the tone, so that after the frame the sessions are equal.
-/

namespace Chip8

/-- Whether an effect speaks to the sound device. -/
def Effect.isSound : Effect → Bool
  | .sound _ => true
  | _ => false

/-- An event that neither closes the window nor pauses nor starts the program over. -/
def WindowEvent.Calm (e : WindowEvent) : Prop :=
  e ≠ .quit ∧ e ≠ .keyDown Controls.escape ∧ e ≠ .keyDown Controls.pause ∧
    e ≠ .keyDown Controls.backspace

/-- A frame that begins with the key that pauses. -/
def Frame.pressing (f : Frame) : Frame := { f with events := .keyDown Controls.pause :: f.events }

namespace Session

/-- The effects that do not speak to the sound device. -/
def muted (effects : List Effect) : List Effect := effects.filter fun e => !e.isSound

theorem muted_append (first later : List Effect) :
    muted (first ++ later) = muted first ++ muted later :=
  List.filter_append ..

theorem muted_sound (commands : List SoundCommand) : muted (commands.map .sound) = [] := by
  simp [muted, Effect.isSound]

theorem pictures_muted (effects : List Effect) :
    (muted effects).filterMap Effect.picture? = effects.filterMap Effect.picture? := by
  rw [muted, List.filterMap_filter]
  congr 1
  funext e
  cases e <;> rfl

theorem lastCaption_muted (effects : List Effect) :
    lastCaption (muted effects) = lastCaption effects := by
  induction effects with
  | nil => rfl
  | cons e rest ih =>
      rw [← List.singleton_append, muted_append, lastCaption_append, lastCaption_append, ih]
      cases e <;> rfl

/-- Two activities that are broken off alike, with the same effects but for the sound device.
If they come to their end, their sessions are related. -/
structure Echo (R : Session → Session → Prop) (o o' : Outcome) : Prop where
  stop : o'.stop = o.stop
  effects : muted o'.effects = muted o.effects
  session : o.stop = none → R o.session o'.session

section Echo
variable {R Q : Session → Session → Prop} {o o' : Outcome} {s t : Session}

theorem Echo.mono (h : Echo R o o') (weaker : ∀ s t, R s t → Q s t) : Echo Q o o' :=
  ⟨h.stop, h.effects, fun through => weaker _ _ (h.session through)⟩

/-- The sound device is not to be seen. -/
theorem Echo.pictures (h : Echo R o o') :
    o'.effects.filterMap Effect.picture? = o.effects.filterMap Effect.picture? := by
  rw [← pictures_muted, h.effects, pictures_muted]

theorem Echo.caption (h : Echo R o o') : lastCaption o'.effects = lastCaption o.effects := by
  rw [← lastCaption_muted, h.effects, lastCaption_muted]

theorem Echo.andThen {next next' : Session → Outcome} (h : Echo R o o')
    (later : ∀ s t, R s t → Echo Q (next s) (next' t)) :
    Echo Q (o.andThen next) (o'.andThen next') := by
  cases stop : o.stop with
  | some stop' =>
      rw [Outcome.andThen_of_some stop, Outcome.andThen_of_some (h.stop.trans stop)]
      refine ⟨h.stop, h.effects, fun through => ?_⟩
      cases stop.symm.trans through
  | none =>
      have second := later _ _ (h.session stop)
      rw [Outcome.andThen_of_none stop, Outcome.andThen_of_none (h.stop.trans stop)]
      refine ⟨second.stop, ?_, second.session⟩
      rw [muted_append, muted_append, h.effects, second.effects]

/-- Two sessions that differ at most in their tone, and not even there if it cannot be heard. -/
structure Revoiced (s t : Session) : Prop where
  same : t = { s with beeper := t.beeper }
  wave : t.beeper.wave = s.beeper.wave
  hushed : s.paused = true ∨ s.beeper.wave = none → t.beeper = s.beeper

theorem revoiced_refl (s : Session) : Revoiced s s := ⟨rfl, rfl, fun _ => rfl⟩

/-- After the beeper is switched the tone is the same. -/
theorem Revoiced.beeper_eq (h : Revoiced s t) (beep : Bool) :
    (t.beeper.update beep).1 = (s.beeper.update beep).1 := by
  by_cases wave : s.beeper.wave = none
  · rw [h.hushed (.inr wave)]
  · have playing : (t.beeper.update beep).1.playing = (s.beeper.update beep).1.playing :=
      (Beeper.playing_update (h.wave ▸ wave) beep).trans (Beeper.playing_update wave beep).symm
    have waves : (t.beeper.update beep).1.wave = (s.beeper.update beep).1.wave :=
      (t.beeper.wave_update beep).trans (h.wave.trans (s.beeper.wave_update beep).symm)
    calc
      (t.beeper.update beep).1 =
          ⟨(t.beeper.update beep).1.playing, (t.beeper.update beep).1.wave⟩ := rfl
      _ = (s.beeper.update beep).1 := by rw [playing, waves]

theorem Revoiced.switchBeeper (h : Revoiced s t) (beep : Bool) :
    Echo Eq (s.switchBeeper beep) (t.switchBeeper beep) := by
  refine ⟨rfl, ?_, fun _ => ?_⟩
  · exact (muted_sound _).trans (muted_sound _).symm
  · simp only [Session.switchBeeper, h.beeper_eq beep]
    rw [h.same]

/-- Pausing makes the tone the same, as does going on: the tone was off already. -/
theorem Revoiced.togglePause (h : Revoiced s t) : Echo Eq s.togglePause t.togglePause := by
  have paused : t.paused = s.paused := by rw [h.same]
  have rom : t.rom = s.rom := by rw [h.same]
  refine ⟨t.togglePause_eq.1.trans s.togglePause_eq.1.symm, ?_, fun _ => ?_⟩
  · rw [t.effects_togglePause, s.effects_togglePause, paused, caption_of_rom rom]
    cases s.paused with
    | true => rfl
    | false => exact congrArg (List.cons _) ((muted_sound _).trans (muted_sound _).symm)
  · have beeper : (if t.paused then t.beeper else (t.beeper.update false).1) =
        if s.paused then s.beeper else (s.beeper.update false).1 := by
      rw [paused, h.beeper_eq false]
      split
      next now => rw [h.hushed (.inl now)]
      next => rfl
    rw [t.togglePause_eq.2, s.togglePause_eq.2, beeper, h.same]

theorem Revoiced.restart (h : Revoiced s t) (d : Disk) :
    Echo Revoiced (s.restart d) (t.restart d) := by
  obtain ⟨settings, machine, rom, running, paused, b⟩ := s
  obtain ⟨settings', machine', rom', running', paused', c⟩ := t
  obtain ⟨same, wave, hushed⟩ := h
  cases same
  cases rom with
  | none => exact ⟨rfl, rfl, fun _ => ⟨rfl, wave, hushed⟩⟩
  | some path =>
      cases read : Program.read d path with
      | error e =>
          simp only [Session.restart, load, read]
          exact ⟨rfl, rfl, fun _ => ⟨rfl, wave, hushed⟩⟩
      | ok found =>
          simp only [Session.restart, load, read]
          exact ⟨rfl, rfl, fun _ => ⟨rfl, wave, hushed⟩⟩

theorem Revoiced.idle (h : Revoiced s t) : Echo Revoiced (.idle s) (.idle t) :=
  ⟨rfl, rfl, fun _ => h⟩

theorem Revoiced.handleEvent (h : Revoiced s t) (d : Disk) (e : WindowEvent) :
    Echo Revoiced (s.handleEvent d e) (t.handleEvent d e) := by
  have closed : Revoiced { s with running := false } { t with running := false } :=
    ⟨by rw [h.same], h.wave, h.hushed⟩
  cases e with
  | quit => exact closed.idle
  | keyDown code =>
      simp only [Session.handleEvent]
      by_cases ends : code = Controls.escape
      · simpa only [if_pos ends] using closed.idle
      by_cases pauses : code = Controls.pause
      · simp only [if_neg ends, if_pos pauses]
        exact h.togglePause.mono fun s' _ same => same ▸ revoiced_refl s'
      by_cases restarts : code = Controls.backspace
      · simpa only [if_neg ends, if_neg pauses, if_pos restarts] using h.restart d
      · simpa only [if_neg ends, if_neg pauses, if_neg restarts] using h.idle
  | keyUp code => exact h.idle
  | motion => exact h.idle

theorem Revoiced.handleEvents (h : Revoiced s t) (d : Disk) (events : List WindowEvent) :
    Echo Revoiced (s.handleEvents d events) (t.handleEvents d events) := by
  induction events generalizing s t with
  | nil => exact h.idle
  | cons e rest ih => exact (h.handleEvent d e).andThen fun _ _ related => ih related

/-- The ticks of a frame make the tone the same. -/
theorem Revoiced.update (h : Revoiced s t) (held : List Int) :
    (t.update held).changed = (s.update held).changed ∧
      Echo Eq (s.update held).outcome (t.update held).outcome := by
  have batch : t.batch held = s.batch held := by
    rw [h.same]
    rfl
  have ticked : Revoiced { s with machine := (s.batch held).machine }
      { t with machine := (s.batch held).machine } := ⟨by rw [h.same], h.wave, h.hushed⟩
  have caption : ({ t with machine := (s.batch held).machine } : Session).caption =
      ({ s with machine := (s.batch held).machine } : Session).caption :=
    caption_of_rom (by rw [h.same])
  cases fault : (s.batch held).fault with
  | some f =>
      simp only [Session.update, batch, fault]
      refine ⟨trivial, rfl, rfl, fun through => ?_⟩
      cases through
  | none =>
      simp only [Session.update, batch, fault, caption]
      refine ⟨trivial, Echo.andThen (R := Revoiced) ⟨rfl, rfl, fun _ => ticked⟩ ?_⟩
      exact fun _ _ related => related.switchBeeper _

theorem Revoiced.advance (h : Revoiced s t) (held : List Int) :
    Echo Eq (s.advance held) (t.advance held) := by
  have paused : t.paused = s.paused := by rw [h.same]
  obtain ⟨changed, update⟩ := h.update held
  simp only [Session.advance, paused, changed]
  split
  next now =>
    rw [h.same, h.hushed (.inl now)]
    exact ⟨rfl, rfl, fun _ => rfl⟩
  next =>
    split
    · exact update.andThen fun _ _ same => same ▸ ⟨rfl, rfl, fun _ => rfl⟩
    · exact update

theorem Revoiced.work (h : Revoiced s t) (d : Disk) (f : Frame) :
    Echo Eq (s.work d f) (t.work d f) :=
  (h.handleEvents d f.events).andThen fun _ _ related => related.advance f.held

end Echo

section Pause
variable {d : Disk} {s : Session} {f first next : Frame} {others later : List Frame}

theorem work_pressing (s : Session) (d : Disk) (f : Frame) :
    s.work d f.pressing = s.togglePause.andThen fun t => t.work d f :=
  Outcome.andThen_assoc ..

theorem handleEvents_of_calm {events : List WindowEvent} (calm : ∀ e ∈ events, e.Calm) :
    s.handleEvents d events = .idle s := by
  induction events with
  | nil => rfl
  | cons e rest ih =>
      obtain ⟨quit, escape, pause, backspace⟩ := calm e List.mem_cons_self
      have idle : s.handleEvent d e = .idle s := by
        rcases s.handleEvent_cases d e with
          ⟨ends, -⟩ | ⟨pauses, -⟩ | ⟨restarts, -⟩ | ⟨-, -, -, -, same⟩
        · exact absurd ends (not_or.2 ⟨quit, escape⟩)
        · exact absurd pauses pause
        · exact absurd restarts backspace
        · exact same
      rw [handleEvents, idle, Outcome.idle_andThen]
      exact ih fun e' mem => calm e' (List.mem_cons_of_mem e mem)

/-- A paused session does nothing in a frame without a control. -/
theorem work_of_calm (paused : s.paused = true) (calm : ∀ e ∈ f.events, e.Calm) :
    s.work d f = .idle s := by
  rw [work, handleEvents_of_calm calm, Outcome.idle_andThen]
  exact if_pos paused

theorem passes_of_calm (running : s.running = true) (paused : s.paused = true)
    (calm : ∀ f ∈ others, ∀ e ∈ f.events, e.Calm) :
    Passes d s others (others.map fun f => ⟨f, [], s⟩) s := by
  induction others with
  | nil => exact .nil s
  | cons f others ih =>
      have idle : s.work d f = .idle s := work_of_calm paused (calm f List.mem_cons_self)
      have rest : Passes d (s.work d f).session others (others.map fun f => ⟨f, [], s⟩) s := by
        rw [idle]
        exact ih fun f' mem => calm f' (List.mem_cons_of_mem f mem)
      have passed := Passes.cons running (congrArg Outcome.stop idle) rest
      rwa [idle] at passed

theorem pause_through (going : s.paused = false) :
    s.togglePause.stop = none ∧ s.togglePause.session =
      { s with paused := true, beeper := (s.beeper.update false).1 } := by
  obtain ⟨settings, machine, rom, running, paused, beeper⟩ := s
  cases going
  exact ⟨rfl, rfl⟩

/-- A session that goes on after a pause may have another tone and has a plain caption. -/
theorem resume_through (going : s.paused = false) :
    s.togglePause.session.togglePause =
      ⟨{ s with beeper := (s.beeper.update false).1 }, [.caption (s.caption .plain)], none⟩ := by
  obtain ⟨settings, machine, rom, running, paused, beeper⟩ := s
  cases going
  rfl

/-- The waits of a pause: its first frame pauses the session, the others do nothing. -/
def pauseWaits (s : Session) (first : Frame) (others : List Frame) : List Wait :=
  ⟨first.pressing, s.togglePause.effects, s.togglePause.session⟩ ::
    others.map fun f => ⟨f, [], s.togglePause.session⟩

theorem passes_pause (running : s.running = true) (going : s.paused = false)
    (calm : ∀ f ∈ first :: others, ∀ e ∈ f.events, e.Calm) :
    Passes d s (first.pressing :: others) (s.pauseWaits first others) s.togglePause.session := by
  obtain ⟨stop, session⟩ := pause_through going
  have paused : s.togglePause.session.paused = true := congrArg Session.paused session
  have work : s.work d first.pressing = s.togglePause := by
    rw [work_pressing, Outcome.andThen_of_none stop,
      work_of_calm paused (calm first List.mem_cons_self)]
    exact (Outcome.andThen_of_none stop _).symm.trans (Outcome.andThen_idle _)
  have rest : Passes d (s.work d first.pressing).session others
      (others.map fun f => ⟨f, [], s.togglePause.session⟩) s.togglePause.session := by
    rw [work]
    apply passes_of_calm
    · rw [session]
      exact running
    · exact paused
    · exact fun f mem => calm f (List.mem_cons_of_mem first mem)
  have passed := Passes.cons running ((congrArg Outcome.stop work).trans stop) rest
  rwa [work] at passed

/-- No picture is shown in a pause. -/
theorem pictures_pauseWaits (s : Session) (first : Frame) (others : List Frame) :
    ((s.pauseWaits first others).flatMap Wait.trace).filterMap Effect.picture? = [] := by
  rw [List.filterMap_eq_nil_iff]
  intro e mem
  obtain ⟨w, wait, place⟩ := List.mem_flatMap.1 mem
  rcases List.mem_append.1 place with effect | clock
  · apply Effect.picture?_of_isQuiet
    rcases List.mem_cons.1 wait with rfl | rest
    · exact s.quiet_togglePause e effect
    · obtain ⟨f, -, rfl⟩ := List.mem_map.1 rest
      cases effect
  · rw [List.mem_singleton.1 clock]
    rfl

section Resumed
variable {past past' : List Effect} {seen : List WindowEvent} {status : Status}

/-- The frame in which a session goes on does what it would have done without the pause. -/
theorem work_resumed (titled : Titled past seen s status) (going : s.paused = false)
    (pictures : past'.filterMap Effect.picture? = past.filterMap Effect.picture?) :
    (s.togglePause.session.work d f.pressing).stop = (s.work d f).stop ∧
      ((s.work d f).stop = none →
        (s.togglePause.session.work d f.pressing).session = (s.work d f).session ∧
        SameView (past ++ (s.work d f).effects)
          (past' ++ (s.togglePause.session.work d f.pressing).effects)) := by
  have revoiced : Revoiced s { s with beeper := (s.beeper.update false).1 } := by
    refine ⟨rfl, s.beeper.wave_update false, fun hushed => ?_⟩
    rcases hushed with paused | silent
    · cases going.symm.trans paused
    · simp [Beeper.update, silent]
  have echo := revoiced.work d f
  rw [work_pressing, resume_through going, Outcome.andThen_of_none rfl]
  refine ⟨echo.stop, fun through => ⟨(echo.session through).symm, ?_, ?_⟩⟩
  · rw [List.filterMap_append, List.filterMap_append, List.filterMap_append, echo.pictures,
      pictures]
    rfl
  · rw [lastCaption_append, lastCaption_append, lastCaption_append, echo.caption]
    cases silent : lastCaption (s.work d f).effects with
    | some c => rfl
    | none =>
        -- The caption that the pause replaced was plain, since this frame sets none.
        rw [titled.caption, titled.plain_of_silent_work going through silent]
        rfl

/-- After the pause everything looks as it would have without. -/
theorem looks_resumed (titled : Titled past seen s status) (running : s.running = true)
    (going : s.paused = false)
    (pictures : past'.filterMap Effect.picture? = past.filterMap Effect.picture?) :
    looks past' (s.togglePause.session.waits d (next.pressing :: later)) =
      looks past (s.waits d (next :: later)) := by
  have running' : s.togglePause.session.running = true :=
    (congrArg Session.running (pause_through going).2).trans running
  obtain ⟨stops, through⟩ := work_resumed (d := d) (f := next) titled going pictures
  cases stop : (s.work d next).stop with
  | some stop' =>
      rw [waits_of_stop stop, waits_of_stop (stops.trans stop)]
      rfl
  | none =>
      obtain ⟨session, view⟩ := through stop
      have later := view.append [.clock (s.work d next).session.settings.frameRate]
      rw [List.append_assoc, List.append_assoc] at later
      rw [waits_cons running stop, waits_cons running' (stops.trans stop), session, looks, looks,
        view.sight_eq]
      exact congrArg (List.cons _) (later.looks_eq _)

end Resumed

/-- A pause of some frames takes nothing away from what comes after it. -/
theorem looks_pause {past : List Effect} {seen : List WindowEvent} {status : Status}
    (titled : Titled past seen s status) (running : s.running = true) (going : s.paused = false)
    (calm : ∀ f ∈ first :: others, ∀ e ∈ f.events, e.Calm) :
    (looks past (s.waits d (first.pressing :: others ++ next.pressing :: later))).drop
        (others.length + 1) = looks past (s.waits d (next :: later)) := by
  have paused := passes_pause (d := d) running going calm
  have length : (looks past (s.pauseWaits first others)).length = others.length + 1 :=
    (length_looks past _).trans paused.length_eq
  rw [paused.waits_append, looks_append, ← length, List.drop_left]
  apply looks_resumed titled running going
  rw [List.filterMap_append, pictures_pauseWaits, List.append_nil]

end Pause

/-- A pause is transparent. Let a session start, load a program and play some frames, after
which it is neither closed nor paused. If it is paused there for some frames without a control
and goes on with the next one, then at that frame and at all later ones there is the same to be
found as without the pause: the machine, the pictures that were shown so far, the tone and the
caption. -/
theorem pause_transparent {settings : Settings} {machine : Machine} {mixer : Mixer}
    {opened : Outcome} (h : Session.start settings machine mixer = .ok opened) (d : Disk)
    (path : Path) {before others later : List Frame} {first next : Frame} {ws : List Wait}
    {boundary : Session}
    (passes : Passes d (opened.session.load d path).session before ws boundary)
    (running : boundary.running = true) (going : boundary.paused = false)
    (calm : ∀ f ∈ first :: others, ∀ e ∈ f.events, e.Calm) :
    let loaded := opened.session.load d path
    let s := loaded.session
    let seen (script : List Frame) := sights (opened.effects ++ loaded.effects)
      (s.run d script).effects ((s.waits d script).map Wait.session)
    (seen (before ++ (first.pressing :: others ++ next.pressing :: later))).drop
        (before.length + (others.length + 1)) =
      (seen (before ++ next :: later)).drop before.length := by
  intro loaded s seen
  obtain ⟨status, titled⟩ := (titled_shown h d path).passes passes
  have length (past : List Effect) : before.length = (looks past ws).length :=
    passes.length_eq.symm.trans (length_looks past ws).symm
  simp only [seen, sights_run]
  split
  · rw [passes.waits_append, passes.waits_append, looks_append, looks_append, length,
      List.drop_length_add_append, List.drop_left, looks_pause titled running going calm]
  · simp

/-- A disk with a program that turns the tone on and then has no instruction. -/
def faultDisk : Disk :=
  Disk.empty.install "fault.ch8" (.file [0x60, 0x05, 0xF0, 0x18, 0xFF, 0xFF])

/-- The session with the program without an instruction. -/
def faultLoaded : Outcome := toneOpened.session.load faultDisk (Path.ofString "fault.ch8")

/-- A pause of two frames while the tone is on and the caption tells of a condition, which the
frame after the pause brings back. -/
theorem pause_transparent_of_fault :
    let s := faultLoaded.session
    let seen (script : List Frame) := sights (toneOpened.effects ++ faultLoaded.effects)
      (s.run faultDisk script).effects ((s.waits faultDisk script).map Wait.session)
    let f : Frame := ⟨[], []⟩
    let moving : Frame := ⟨[.motion, .keyUp 8], [Controls.codeOf 'x']⟩
    let paused := seen ([f] ++ (f.pressing :: [moving] ++ f.pressing :: [f]))
    let failed := some "$204: .word 0xFFFF   ; unknown opcode (unrecognized instruction $FFFF)"
    Session.start toneSettings (Machine.initial (Generator.cycle [])) (.ready 44100 1) =
        .ok toneOpened ∧
      (∃ ws boundary, Passes faultDisk s [f] ws boundary ∧ boundary.running = true ∧
        boundary.paused = false) ∧
      (∀ f' ∈ [f, moving], ∀ e ∈ f'.events, e.Calm) ∧
      paused.map (fun v => (v.playing, v.caption.map fun c => Caption.statusText c.status)) =
        [(true, failed), (false, some "Paused"), (false, some "Paused"), (true, failed),
          (true, failed), (true, failed)] ∧
      paused.drop 3 = (seen ([f] ++ f :: [f])).drop 1 := by
  intro s seen f moving paused failed
  have started : Session.start toneSettings (Machine.initial (Generator.cycle []))
      (.ready 44100 1) = .ok toneOpened := rfl
  have calm : ∀ f' ∈ [f, moving], ∀ e ∈ f'.events, e.Calm := by
    simp [f, moving, WindowEvent.Calm]
  have played : Passes faultDisk s [f]
      [⟨f, (s.work faultDisk f).effects, (s.work faultDisk f).session⟩]
      (s.work faultDisk f).session :=
    .cons (by decide +kernel) (Option.isNone_iff_eq_none.1 (by decide +kernel)) (.nil _)
  obtain ⟨running, going, sight⟩ : (s.work faultDisk f).session.running = true ∧
      (s.work faultDisk f).session.paused = false ∧
      paused.map (fun v => (v.playing, v.caption.map fun c => Caption.statusText c.status)) =
        [(true, failed), (false, some "Paused"), (false, some "Paused"), (true, failed),
          (true, failed), (true, failed)] := by decide +kernel
  refine ⟨started, ⟨_, _, played, running, going⟩, calm, sight, ?_⟩
  exact pause_transparent started faultDisk (Path.ofString "fault.ch8") played running going calm

end Session

end Chip8
