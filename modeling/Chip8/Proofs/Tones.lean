import Chip8.Proofs.Waits

/-!
# The tone of a session

The sound device is told to play and to stop only when the tone changes, so that the two
commands alternate. A pause and the end of a session switch the tone off, and the last
tick of a frame decides on it. This keeps the tone in step with the machine: at every wait
for the clock it is on exactly while the machine beeps and the session is not paused.
-/

namespace Chip8

/-- Whether an effect switches the tone on or off, if it does. -/
def Effect.switch? : Effect → Option Bool
  | .sound (.play _) => some true
  | .sound .stop => some false
  | _ => none

/-- How some effects switch the tone, in order. -/
def switches (effects : List Effect) : List Bool := effects.filterMap Effect.switch?

theorem switches_append (first later : List Effect) :
    switches (first ++ later) = switches first ++ switches later :=
  List.filterMap_append

theorem switches_log (lines : List Log.Line) : switches (lines.map .log) = [] := by
  simp [switches, Effect.switch?]

theorem switches_noticeEffects (notices : List Machine.Notice) :
    switches (Session.noticeEffects notices) = [] := by
  simp [switches, Session.noticeEffects, Effect.switch?]

/-- Switches lead from one state of the tone to another, and each of them changes it. -/
def Toggles : Bool → List Bool → Bool → Prop
  | before, [], after => after = before
  | before, b :: rest, after => b = !before ∧ Toggles b rest after

namespace Toggles
variable {before after : Bool} {l : List Bool}

theorem append {last : Bool} {l' : List Bool} (h : Toggles before l after)
    (h' : Toggles after l' last) : Toggles before (l ++ l') last := by
  induction l generalizing before with
  | nil =>
      obtain rfl : after = before := h
      exact h'
  | cons b rest ih => exact ⟨h.1, ih h.2⟩

/-- Switches that change the tone alternate. -/
theorem getElem?_eq (h : Toggles before l after) {i : Nat} {b : Bool} (place : l[i]? = some b) :
    b = (before ^^ decide (i % 2 = 0)) := by
  induction l generalizing before i with
  | nil => simp at place
  | cons first rest ih =>
      obtain ⟨rfl, later⟩ := h
      cases i with
      | zero => simpa using place.symm
      | succ i =>
          rw [ih later (by simpa using place)]
          have parity : decide ((i + 1) % 2 = 0) = !decide (i % 2 = 0) := by
            rw [← decide_not, decide_eq_decide]
            omega
          simp [parity]

/-- As many switches turn the tone on as off, but for the first and the last state. -/
theorem count_eq (h : Toggles before l after) :
    l.count true + before.toNat = l.count false + after.toNat := by
  induction l generalizing before with
  | nil =>
      obtain rfl : after = before := h
      rfl
  | cons first rest ih =>
      obtain ⟨rfl, later⟩ := h
      have counted := ih later
      cases before <;> simp at counted ⊢ <;> omega

end Toggles

namespace Beeper
variable (b : Beeper) (beep : Bool)

/-- The beeper tells the device something only if it has a wave and the tone changes. -/
theorem update_cases :
    (b.wave = none ∨ beep = b.playing) ∧ b.update beep = (b, []) ∨
      b.wave ≠ none ∧ beep = !b.playing ∧
        b.update beep = ({ b with playing := beep }, [if beep then .play (-1) else .stop]) := by
  by_cases wave : b.wave = none
  · exact .inl ⟨.inl wave, by simp [update, wave]⟩
  · by_cases same : beep = b.playing
    · exact .inl ⟨.inr same, by simp [update, same]⟩
    · exact .inr ⟨wave, Bool.eq_not_of_ne same, by simp [update, wave, same]⟩

theorem playing_update {b : Beeper} (h : b.wave ≠ none) (beep : Bool) :
    (b.update beep).1.playing = beep := by
  rcases b.update_cases beep with ⟨silent | same, kept⟩ | ⟨-, -, switched⟩
  · exact absurd silent h
  · rw [kept, same]
  · rw [switched]

/-- A new beeper is silent, and it has a wave unless there is no device. -/
theorem of_make {mixer : Mixer} {tone : Int} {volume : Number} {made : Beeper × List Log.Line}
    (h : make mixer tone volume = .ok made) :
    made.1.playing = false ∧
      (made.1.wave = none ↔ ∃ reason, mixer = .unavailable reason) := by
  cases mixer with
  | unavailable reason =>
      cases h
      exact ⟨rfl, by simp⟩
  | ready frequency channels =>
      obtain ⟨w, -, rfl⟩ : ∃ w, Wave.make frequency channels tone volume = .ok w ∧
          (⟨false, some w⟩, []) = made := by
        cases wave : Wave.make frequency channels tone volume with
        | error e => simp [make, wave, Except.map] at h
        | ok w => exact ⟨w, rfl, by simpa [make, wave, Except.map] using h⟩
      exact ⟨rfl, by simp⟩

end Beeper

namespace Machine

/-- A tick comes to its end or is broken off. -/
theorem tickWith_ended_or_broken (m : Machine) (keys : Keypad) :
    (∃ n notices, m.tickWith keys = .ended n notices) ∨ ∃ n f, m.tickWith keys = .broken n f := by
  simp only [tickWith, sampleKey, step, report]
  repeat' split
  all_goals first
    | exact .inl ⟨_, _, rfl⟩
    | exact .inr ⟨_, _, rfl⟩

end Machine

namespace Session

section Batches
variable {keys : Keypad} {b : Batch}

theorem Batch.beep_add (through : (b.add (b.machine.tickWith keys)).fault = none) :
    (b.add (b.machine.tickWith keys)).beep = (b.add (b.machine.tickWith keys)).machine.beeping := by
  rcases b.machine.tickWith_ended_or_broken keys with ⟨n, notices, ended⟩ | ⟨n, f, broken⟩
  · rw [ended]
    rfl
  · simp [add, broken, Machine.Tick.broken] at through

/-- The last tick decides on the tone. -/
theorem Batch.beep_run {n : Nat} (start : b.beep = b.machine.beeping)
    (through : (Batch.run keys n b).fault = none) :
    (Batch.run keys n b).beep = (Batch.run keys n b).machine.beeping := by
  induction n generalizing b with
  | zero => exact start
  | succ n ih =>
      simp only [Batch.run, fault_of_run through] at through ⊢
      exact ih (beep_add (fault_of_run through)) through

/-- A frame has at least one tick, so that a batch asks for the tone that its machine has. -/
theorem beep_batch {s : Session} {held : List Int} (through : (s.batch held).fault = none) :
    (s.batch held).beep = (s.batch held).machine.beeping := by
  obtain ⟨n, ticks⟩ := exists_ticksPerFrame_eq s.settings
  rw [batch, ticks] at through ⊢
  simp only [Batch.run, Batch.start] at through ⊢
  exact Batch.beep_run (Batch.beep_add (Batch.fault_of_run through)) through

end Batches

/-- What an activity does to the tone: it keeps the wave, it switches the tone only to change
it, and without a wave it does not switch the tone at all. -/
structure Tuned (s : Session) (o : Outcome) : Prop where
  wave : o.session.beeper.wave = s.beeper.wave
  toggles : Toggles s.beeper.playing (switches o.effects) o.session.beeper.playing
  silent : s.beeper.wave = none → switches o.effects = []

section Tuned
variable {s : Session} {o : Outcome}

/-- An activity that leaves the beeper alone. -/
theorem Tuned.of_untouched (beeper : o.session.beeper = s.beeper)
    (silent : switches o.effects = []) : Tuned s o where
  wave := congrArg Beeper.wave beeper
  toggles := by
    rw [silent, beeper]
    rfl
  silent _ := silent

theorem tuned_idle (s : Session) : Tuned s (.idle s) := .of_untouched rfl rfl

theorem Tuned.andThen {next : Session → Outcome} (h : Tuned s o)
    (h' : ∀ t, Tuned t (next t)) : Tuned s (o.andThen next) := by
  cases stop : o.stop with
  | some stop' =>
      rw [Outcome.andThen_of_some stop]
      exact h
  | none =>
      have later := h' o.session
      rw [Outcome.andThen_of_none stop]
      refine ⟨later.wave.trans h.wave, ?_, fun none => ?_⟩
      · rw [switches_append]
        exact h.toggles.append later.toggles
      · rw [switches_append, h.silent none, later.silent (h.wave.trans none), List.append_nil]

variable (s)

theorem tuned_switchBeeper (beep : Bool) : Tuned s (s.switchBeeper beep) := by
  rcases s.beeper.update_cases beep with ⟨-, kept⟩ | ⟨wave, changed, switched⟩
  · rw [switchBeeper, kept]
    exact .of_untouched rfl rfl
  · have switch : switches ((s.switchBeeper beep).effects) = [beep] := by
      rw [switchBeeper, switched]
      cases beep <;> rfl
    refine ⟨s.beeper.wave_update beep, ?_, fun none => absurd none wave⟩
    rw [switch, switchBeeper, switched]
    exact ⟨changed, rfl⟩

/-- The beeper may be switched after effects that do not switch it. -/
theorem tuned_switchBeeper_after {t : Session} {effects : List Effect}
    (beeper : t.beeper = s.beeper) (silent : switches effects = []) (beep : Bool) :
    Tuned s ((⟨t, effects, none⟩ : Outcome).andThen fun u => u.switchBeeper beep) :=
  Tuned.andThen (.of_untouched beeper silent) fun u => u.tuned_switchBeeper beep

theorem tuned_load (d : Disk) (path : Path) : Tuned s (s.load d path) := by
  cases read : Program.read d path with
  | error e =>
      rw [load, read]
      exact .of_untouched rfl rfl
  | ok found =>
      rw [load, read]
      refine .of_untouched rfl ?_
      rw [switches_append, switches_append, switches_log, switches_noticeEffects]
      rfl

theorem tuned_restart (d : Disk) : Tuned s (s.restart d) := by
  rw [restart]
  split
  · exact s.tuned_load d _
  · exact .of_untouched rfl rfl

theorem tuned_togglePause : Tuned s s.togglePause := by
  simp only [togglePause]
  split
  · apply s.tuned_switchBeeper_after
    · rfl
    · rfl
  · exact .of_untouched rfl rfl

theorem tuned_handleEvent (d : Disk) (e : WindowEvent) : Tuned s (s.handleEvent d e) := by
  rcases s.handleEvent_cases d e with
    ⟨-, same⟩ | ⟨-, same⟩ | ⟨-, same⟩ | ⟨-, -, -, -, same⟩ <;> rw [same]
  · exact .of_untouched rfl rfl
  · exact s.tuned_togglePause
  · exact s.tuned_restart d
  · exact tuned_idle s

theorem tuned_handleEvents (d : Disk) (events : List WindowEvent) :
    Tuned s (s.handleEvents d events) := by
  induction events generalizing s with
  | nil => exact tuned_idle s
  | cons e rest ih => exact (s.tuned_handleEvent d e).andThen fun t => ih t

theorem tuned_update (held : List Int) : Tuned s (s.update held).outcome := by
  simp only [update]
  split
  · exact .of_untouched rfl (switches_noticeEffects _)
  · apply s.tuned_switchBeeper_after
    · rfl
    · rw [switches_append, switches_noticeEffects]
      split <;> rfl

theorem tuned_render : Tuned s s.render := by
  rw [render]
  split <;> exact .of_untouched rfl rfl

theorem tuned_advance (held : List Int) : Tuned s (s.advance held) := by
  rcases s.advance_cases held with ⟨-, same⟩ | ⟨-, -, same⟩ | ⟨-, -, same⟩ <;> rw [same]
  · exact tuned_idle s
  · exact s.tuned_update held
  · exact (s.tuned_update held).andThen tuned_render

theorem tuned_work (d : Disk) (f : Frame) : Tuned s (s.work d f) :=
  (s.tuned_handleEvents d f.events).andThen fun t => t.tuned_advance f.held

theorem tuned_frame (d : Disk) (f : Frame) : Tuned s (s.frame d f) :=
  (s.tuned_work d f).andThen fun _ => .of_untouched rfl rfl

theorem tuned_frames (d : Disk) (script : List Frame) : Tuned s (s.frames d script) := by
  induction script generalizing s with
  | nil =>
      rw [frames]
      split
      · exact s.tuned_frame d _
      · exact tuned_idle s
  | cons f rest ih =>
      rw [frames]
      split
      · exact (s.tuned_frame d f).andThen fun t => ih t
      · exact tuned_idle s

theorem tuned_run (d : Disk) (script : List Frame) : Tuned s (s.run d script) :=
  ((s.tuned_render).andThen fun t => t.tuned_frames d script).andThen fun t =>
    t.tuned_switchBeeper false

end Tuned

/-- A session that is paused is silent. Events keep this, though a session that goes on in
the middle of a frame is out of step with its machine until the ticks of the frame. -/
def Hushed (s : Session) : Prop := s.paused = true → s.beeper.playing = false

/-- The tone is on exactly while the machine beeps and the session is not paused. -/
def InStep (s : Session) : Prop := s.beeper.playing = (!s.paused && s.machine.beeping)

theorem InStep.hushed {s : Session} (h : s.InStep) : s.Hushed := by
  intro paused
  rw [h, paused]
  rfl

theorem Hushed.handleEvent {d : Disk} {s : Session} {e : WindowEvent} (h : s.Hushed)
    (wave : s.beeper.wave ≠ none) (through : (s.handleEvent d e).stop = none) :
    (s.handleEvent d e).session.Hushed := by
  rcases s.handleEvent_cases d e with
    ⟨-, same⟩ | ⟨-, same⟩ | ⟨-, same⟩ | ⟨-, -, -, -, same⟩
  · rw [same]
    exact h
  · rw [same, s.togglePause_eq.2]
    intro paused
    -- The session was not paused before, so that the event has switched the tone off.
    have before : s.paused = false := by simpa using paused
    simp only [before, Bool.false_eq_true, if_false]
    exact Beeper.playing_update wave false
  · rw [same] at through ⊢
    obtain ⟨n, session, -⟩ := restart_through through
    rw [session]
    exact h
  · rw [same]
    exact h

theorem Hushed.handleEvents {d : Disk} {s : Session} {events : List WindowEvent} (h : s.Hushed)
    (wave : s.beeper.wave ≠ none) (through : (s.handleEvents d events).stop = none) :
    (s.handleEvents d events).session.Hushed := by
  induction events generalizing s with
  | nil => exact h
  | cons e rest ih =>
      obtain ⟨first, later⟩ := (Outcome.stop_andThen_iff _ _).1 through
      have kept := (s.tuned_handleEvent d e).wave
      rw [Session.handleEvents, Outcome.andThen_of_none first]
      exact ih (h.handleEvent wave first) (kept ▸ wave) later

/-- The machine's part of a frame takes the tone over from the machine. -/
theorem Hushed.advance {s : Session} {held : List Int} (h : s.Hushed)
    (wave : s.beeper.wave ≠ none) (through : (s.advance held).stop = none) :
    (s.advance held).session.InStep := by
  have updated : s.paused = false → (s.update held).outcome.stop = none →
      (s.update held).outcome.session.InStep := by
    intro running stop
    obtain ⟨fault, -, session⟩ := update_through stop
    rw [session, InStep, Beeper.playing_update wave, beep_batch fault, running]
    rfl
  rcases s.advance_cases held with ⟨paused, idle⟩ | ⟨running, -, update⟩ | ⟨running, -, update⟩
  · rw [idle]
    simp only [Outcome.idle, InStep, h paused, paused, Bool.not_true, Bool.false_and]
  · rw [update] at through ⊢
    exact updated running through
  · rw [update] at through ⊢
    obtain ⟨stop, rendered⟩ := (Outcome.stop_andThen_iff _ _).1 through
    rw [Outcome.andThen_of_none stop, render_through rendered]
    exact updated running stop

theorem Hushed.work {d : Disk} {s : Session} {f : Frame} (h : s.Hushed)
    (wave : s.beeper.wave ≠ none) (through : (s.work d f).stop = none) :
    (s.work d f).session.InStep := by
  obtain ⟨handled, advanced⟩ := (Outcome.stop_andThen_iff _ _).1 through
  have kept := (s.tuned_handleEvents d f.events).wave
  rw [Session.work, Outcome.andThen_of_none handled]
  exact (h.handleEvents wave handled).advance (kept ▸ wave) advanced

/-- The tone is in step with the machine at all waits that follow one another. -/
theorem Hushed.follow {d : Disk} {s : Session} {ws : List Wait} (chain : Follow d s ws)
    (h : s.Hushed) (wave : s.beeper.wave ≠ none) : ∀ w ∈ ws, w.session.InStep := by
  induction chain with
  | nil s => exact fun w mem => (nomatch mem)
  | @cons s f ws running through rest ih =>
      have step := h.work wave through
      intro w mem
      rcases List.mem_cons.1 mem with rfl | later
      · exact step
      · exact ih step.hushed ((s.tuned_work d f).wave ▸ wave) w later

theorem beeper_load (d : Disk) (s : Session) (path : Path) :
    (s.load d path).session.beeper = s.beeper := by
  rw [load]
  split <;> rfl

/-- A session that comes to its end is silent. -/
theorem playing_run {d : Disk} {s : Session} {script : List Frame} (wave : s.beeper.wave ≠ none)
    (through : (s.run d script).stop = none) :
    (s.run d script).session.beeper.playing = false := by
  have played := s.tuned_render.andThen fun t => t.tuned_frames d script
  obtain ⟨stop, -⟩ := (Outcome.stop_andThen_iff _ _).1 through
  rw [run, Outcome.andThen_of_none stop]
  exact Beeper.playing_update (played.wave ▸ wave) false

/-- A session starts with a silent beeper, which has a wave unless there is no device. -/
theorem start_through {settings : Settings} {machine : Machine} {mixer : Mixer} {o : Outcome}
    (h : Session.start settings machine mixer = .ok o) :
    o.session.beeper.playing = false ∧ switches o.effects = [] ∧
      (o.session.beeper.wave = none ↔ ∃ reason, mixer = .unavailable reason) := by
  obtain ⟨found, made, rfl⟩ := exists_made_of_start h
  obtain ⟨playing, wave⟩ := Beeper.of_make made
  have opening : switches (.sound Beeper.opening :: found.2.map .log) = [] := switches_log found.2
  refine ⟨playing, ?_, wave⟩
  rw [switches_append, opening]
  rfl

/-- The tone of a session that starts, loads a program and runs: with a device it is on at
every wait for the clock exactly while the machine beeps and the session is not paused, it is
switched on and off in turn, and it is off when the session comes to its end. Without a device
it is never switched. -/
theorem tone_in_step {settings : Settings} {machine : Machine} {mixer : Mixer} {opened : Outcome}
    (h : Session.start settings machine mixer = .ok opened) (d : Disk) (path : Path)
    (script : List Frame) :
    let loaded := opened.session.load d path
    let s := loaded.session
    let played := s.run d script
    let switched := switches (opened.effects ++ loaded.effects ++ played.effects)
    (∀ frequency channels, mixer = .ready frequency channels →
      (∀ before rate after, played.effects = before ++ .clock rate :: after →
        ∃ passed w rest, s.waits d script = passed ++ w :: rest ∧
          before = .flip s.picture :: (passed.flatMap Wait.trace ++ w.effects) ∧
          w.session.beeper.playing = (!w.session.paused && w.session.machine.sound != 0)) ∧
      (∀ i b, switched[i]? = some b → b = decide (i % 2 = 0)) ∧
      (played.stop = none →
        played.session.beeper.playing = false ∧ switched.count true = switched.count false)) ∧
    (∀ reason, mixer = .unavailable reason → switched = []) := by
  intro loaded s played switched
  obtain ⟨playing, quiet, wave⟩ := start_through h
  have load : opened.session.Tuned loaded := opened.session.tuned_load d path
  have run : s.Tuned played := s.tuned_run d script
  have all : switched = switches loaded.effects ++ switches played.effects := by
    simp only [switched, switches_append, quiet, List.nil_append]
  constructor
  · rintro frequency channels rfl
    have device : s.beeper.wave ≠ none := by
      rw [load.wave, Ne, wave]
      simp
    have hushed : s.Hushed := by
      intro _
      rw [opened.session.beeper_load d path, playing]
    have toggles : Toggles false switched played.session.beeper.playing := by
      rw [all, ← playing]
      exact load.toggles.append run.toggles
    refine ⟨?_, fun i b place => by simpa using toggles.getElem?_eq place, ?_⟩
    · intro before rate after effects
      obtain ⟨passed, w, rest, waits, place⟩ := exists_wait effects
      have mem : w ∈ s.waits d script := by simp [waits]
      exact ⟨passed, w, rest, waits, place, hushed.follow (s.follow_waits d script) device w mem⟩
    · intro ended
      have off := playing_run device ended
      refine ⟨off, ?_⟩
      have counted := toggles.count_eq
      rw [off] at counted
      simpa using counted
  · rintro reason rfl
    have silent : opened.session.beeper.wave = none := wave.2 ⟨reason, rfl⟩
    rw [all, load.silent silent, run.silent (load.wave.trans silent), List.append_nil]

/-- A disk with a program that turns the tone on and then stays where it is. -/
def toneDisk : Disk :=
  Disk.empty.install "tone.ch8" (.file [0x60, 0x05, 0xF0, 0x18, 0x12, 0x04])

/-- Settings with three ticks in a frame, so that the tone is on after the first of them. -/
def toneSettings : Settings := { Settings.default with clockHz := 180, glow := false }

/-- A session with a mono device, before it loads a program. -/
def toneOpened : Outcome :=
  ⟨⟨toneSettings, Machine.initial (Generator.cycle []), none, true, false, ⟨false, some
    ⟨44100, 1, 100, Wave.level toneSettings.volume true, Wave.level toneSettings.volume false⟩⟩⟩,
    [.sound Beeper.opening, .caption ⟨"no ROM", .plain⟩], none⟩

/-- The session with the program of the tone. -/
def toneLoaded : Outcome := toneOpened.session.load toneDisk (Path.ofString "tone.ch8")

/-- A frame without events, then one that pauses the session and one that resumes it. -/
def toneScript : List Frame :=
  [⟨[], []⟩, ⟨[.keyDown Controls.pause], []⟩, ⟨[.keyDown Controls.pause], []⟩]

/-- A program that turns the tone on and leaves it on, in a session that is paused and goes
on again. -/
theorem tone_in_step_of_pause :
    let s := toneLoaded.session
    let played := s.run toneDisk toneScript
    let switched := switches (toneOpened.effects ++ toneLoaded.effects ++ played.effects)
    Session.start toneSettings (Machine.initial (Generator.cycle [])) (.ready 44100 1) =
        .ok toneOpened ∧
      (s.waits toneDisk toneScript).map (fun w => w.session.beeper.playing) =
        [true, false, true, true] ∧
      switched = [true, false, true, false] ∧ played.stop = none ∧
      (∃ before rate after, played.effects = before ++ .clock rate :: after ∧
        ∃ passed w rest, s.waits toneDisk toneScript = passed ++ w :: rest ∧
          before = .flip s.picture :: (passed.flatMap Wait.trace ++ w.effects) ∧
          w.session.beeper.playing = (!w.session.paused && w.session.machine.sound != 0)) ∧
      (∀ i b, switched[i]? = some b → b = decide (i % 2 = 0)) ∧
      played.session.beeper.playing = false ∧ switched.count true = switched.count false := by
  have started : Session.start toneSettings (Machine.initial (Generator.cycle []))
      (.ready 44100 1) = .ok toneOpened := rfl
  obtain ⟨clocks, alternate, ended⟩ :=
    (tone_in_step started toneDisk (Path.ofString "tone.ch8") toneScript).1 44100 1 rfl
  rw [← toneLoaded] at clocks alternate ended
  obtain ⟨waits, switched, through⟩ :
      (toneLoaded.session.waits toneDisk toneScript).map (fun w => w.session.beeper.playing) =
          [true, false, true, true] ∧
        switches (toneOpened.effects ++ toneLoaded.effects ++
          (toneLoaded.session.run toneDisk toneScript).effects) = [true, false, true, false] ∧
        (toneLoaded.session.run toneDisk toneScript).stop.isNone := by decide +kernel
  have stop := Option.isNone_iff_eq_none.1 through
  have waiting : toneLoaded.session.waits toneDisk toneScript ≠ [] := by
    intro none
    simp [none] at waits
  obtain ⟨w, rest, list⟩ := List.exists_cons_of_ne_nil waiting
  rw [← List.nil_append (w :: rest)] at list
  obtain ⟨after, effects⟩ := split_of_waits (by decide +kernel) list
  have clock := clocks _ _ _ effects
  exact ⟨started, waits, switched, stop, ⟨_, _, _, effects, clock⟩, alternate, ended stop⟩

end Session

end Chip8
