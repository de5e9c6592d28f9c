import Chip8.Proofs.Standstill
import Chip8.Proofs.Waits

/-!
# The caption of a session

Three activities set the caption: loading a program, pausing or going on, and a frame in which
the machine reported a condition. At every wait for the clock the caption of a session that is
not paused is plain or tells of a condition. The caption of a paused session says so, unless the
program was started over in the pause: the load sets a plain caption, and the session stays
paused.

## Implementation notes

A caption that tells of a condition is set again in every frame, because the machine stands
still. This is part of the invariant, so that a caption which a frame does not set again is known
to be plain.
-/

namespace Chip8

/-- The caption that an effect sets, if it sets one. -/
def Effect.caption? : Effect → Option Caption
  | .caption c => some c
  | _ => none

namespace Session

/-- The caption of the window: the one that was set last. -/
def lastCaption (effects : List Effect) : Option Caption :=
  effects.reverse.findSome? Effect.caption?

theorem lastCaption_append (past effects : List Effect) :
    lastCaption (past ++ effects) = (lastCaption effects).or (lastCaption past) := by
  simp [lastCaption, List.findSome?_append]

theorem lastCaption_map {α : Type} {f : α → Effect} (h : ∀ a, (f a).caption? = none)
    (l : List α) : lastCaption (l.map f) = none := by
  simp [lastCaption, List.findSome?_eq_none_iff, h]

/-- The captions that are set, in their order. -/
def captions (effects : List Effect) : List Caption := effects.filterMap Effect.caption?

theorem captions_map {α : Type} {f : α → Effect} (h : ∀ a, (f a).caption? = none)
    (l : List α) : captions (l.map f) = [] := by
  simp [captions, h]

theorem lastCaption_eq_getLast? (effects : List Effect) :
    lastCaption effects = (captions effects).getLast? :=
  List.getLast?_filterMap.symm

/-- A caption names the program of its session. -/
theorem caption_of_rom {s t : Session} (h : t.rom = s.rom) : t.caption = s.caption := by
  funext status
  rw [caption, caption, h]

section Batches
variable {keys : Keypad} {b : Batch} {c : Condition}

/-- The condition of a batch is the one that its machine goes on to report. -/
def Batch.Consistent (b : Batch) : Prop := ∀ c, b.error = some c → b.machine.Refuses c

theorem Batch.Consistent.add (h : b.Consistent)
    (through : (b.add (b.machine.tickWith keys)).fault = none) :
    (b.add (b.machine.tickWith keys)).Consistent := by
  cases ended : (b.machine.tickWith keys).output with
  | error f => simp [Batch.add, ended] at through
  | ok out =>
      intro c reported
      simp only [Batch.add, ended] at reported ⊢
      cases failed : out.error with
      | some c' =>
          obtain rfl : c' = c := by simpa [failed] using reported
          exact (Machine.refuses_of_error ended failed).machine_tickWith keys
      | none =>
          have before : b.error = some c := by simpa [failed] using reported
          exact (h c before).machine_tickWith keys

theorem Batch.Consistent.run {n : Nat} (h : b.Consistent)
    (through : (Batch.run keys n b).fault = none) : (Batch.run keys n b).Consistent := by
  induction n generalizing b with
  | zero => exact h
  | succ n ih =>
      simp only [Batch.run, fault_of_run through] at through ⊢
      exact ih (h.add (fault_of_run through)) through

/-- A machine that refuses reports its condition in every batch. -/
theorem Batch.error_run_of_refuses {n : Nat} (h : b.machine.Refuses c)
    (before : n = 0 → b.error = some c) (through : (Batch.run keys n b).fault = none) :
    (Batch.run keys n b).error = some c := by
  induction n generalizing b with
  | zero => exact before rfl
  | succ n ih =>
      have tick : b.add (b.machine.tickWith keys) =
          b.add ((b.machine.ready keys).report c) := by rw [h.tickWith keys]
      simp only [Batch.run, fault_of_run through] at through ⊢
      refine ih ?_ (fun _ => ?_) through
      · rw [tick]
        exact h.of_same rfl rfl rfl
      · rw [tick]
        rfl

/-- The condition that a frame reports is the one that its machine goes on to report, and a
machine that refuses has it reported in every frame. -/
theorem error_batch {s : Session} {held : List Int} (through : (s.batch held).fault = none) :
    (s.batch held).Consistent ∧
      ∀ c, s.machine.Refuses c → (s.batch held).error = some c := by
  obtain ⟨n, ticks⟩ := exists_ticksPerFrame_eq s.settings
  rw [batch, ticks] at through ⊢
  have start : (Batch.start s.machine).Consistent := by
    intro c reported
    cases reported
  constructor
  · exact start.run through
  · exact fun c refuses => Batch.error_run_of_refuses refuses (absurd · n.succ_ne_zero) through

end Batches

/-- Whether of the keys that pause and restart a restart was pressed last. -/
def endsRestarted (events : List WindowEvent) : Bool :=
  events.reverse.find? (fun e => e = .keyDown Controls.pause || e = .keyDown Controls.backspace) =
    some (.keyDown Controls.backspace)

theorem endsRestarted_concat (events : List WindowEvent) (e : WindowEvent) :
    endsRestarted (events ++ [e]) =
      if e = .keyDown Controls.pause then false
      else if e = .keyDown Controls.backspace then true
      else endsRestarted events := by
  by_cases pauses : e = .keyDown Controls.pause
  · subst pauses
    simp [endsRestarted, Controls.pause, Controls.backspace, Controls.codeOf]
  · by_cases restarts : e = .keyDown Controls.backspace
    · subst restarts
      simp [endsRestarted, Controls.pause, Controls.backspace, Controls.codeOf]
    · simp [endsRestarted, pauses, restarts]

/-- What is known of a session's caption after some effects and events. -/
structure Titled (past : List Effect) (seen : List WindowEvent) (s : Session)
    (status : Status) : Prop where
  caption : lastCaption past = some (s.caption status)
  paused : s.paused = true →
    status = if s.rom.isSome && endsRestarted seen then .plain else .paused
  going : s.paused = false →
    status = .plain ∨ ∃ pc word c c', status = .failed pc word c ∧ s.machine.Refuses c'

section Events
variable {d : Disk} {s : Session}

/-- A restart sets a plain caption if there is a program. -/
theorem lastCaption_restart (through : (s.restart d).stop = none) :
    lastCaption (s.restart d).effects =
      s.rom.map fun _ => (s.restart d).session.caption .plain := by
  cases rom : s.rom with
  | none =>
      simp only [restart, rom]
      rfl
  | some path =>
      cases read : Program.read d path with
      | error e => simp [restart, rom, load, read] at through
      | ok found =>
          simp only [restart, rom, load, read, lastCaption_append, Option.map_some]
          rfl

theorem lastCaption_togglePause :
    lastCaption s.togglePause.effects =
      some (s.togglePause.session.caption (if s.paused then .plain else .paused)) := by
  have silent : lastCaption (if s.paused then [] else (s.beeper.update false).2.map .sound) =
      none := by
    split
    · rfl
    · exact lastCaption_map (fun _ => rfl) _
  rw [s.effects_togglePause, ← List.singleton_append, lastCaption_append, silent,
    s.togglePause_eq.2]
  rfl

/-- An update sets a caption if it has a condition to report, and then only this one. -/
theorem captions_update {held : List Int} (through : (s.update held).outcome.stop = none) :
    captions (s.update held).outcome.effects =
      ((s.batch held).error.map fun c =>
        s.caption (.failed (s.batch held).machine.pc (s.batch held).machine.fetch c)).toList := by
  obtain ⟨fault, -⟩ := update_through through
  have notices (l : List Machine.Notice) : captions (noticeEffects l) = [] :=
    captions_map (fun _ => rfl) l
  have sounds (t : Session) (beep : Bool) : captions (t.switchBeeper beep).effects = [] :=
    captions_map (fun _ => rfl) _
  simp only [captions] at notices sounds ⊢
  simp only [update, fault, Outcome.andThen, List.filterMap_append, sounds, notices]
  cases (s.batch held).error with
  | none => rfl
  | some c => rfl

theorem lastCaption_update {held : List Int} (through : (s.update held).outcome.stop = none) :
    lastCaption (s.update held).outcome.effects =
      (s.batch held).error.map fun c =>
        s.caption (.failed (s.batch held).machine.pc (s.batch held).machine.fetch c) := by
  rw [lastCaption_eq_getLast?, captions_update through]
  cases (s.batch held).error with
  | none => rfl
  | some c => rfl

end Events

/-- What a caption may say of the machine of a session that is not paused. -/
def Tells (m : Machine) (status : Status) : Prop :=
  status = .plain ∨ ∃ c, m.Refuses c ∧ status = .failed m.pc m.fetch c

namespace Titled
variable {past : List Effect} {seen : List WindowEvent} {s : Session} {status : Status}

/-- An activity that sets no caption keeps what is known of it. -/
theorem keep (h : Titled past seen s status) {t : Session} {effects : List Effect}
    {seen' : List WindowEvent} (silent : lastCaption effects = none) (rom : t.rom = s.rom)
    (paused : t.paused = s.paused)
    (control : (s.rom.isSome && endsRestarted seen') = (s.rom.isSome && endsRestarted seen))
    (machine : ∀ c, s.machine.Refuses c → ∃ c', t.machine.Refuses c') :
    Titled (past ++ effects) seen' t status where
  caption := by
    rw [lastCaption_append, silent, Option.none_or, caption_of_rom rom]
    exact h.caption
  paused now := by
    rw [rom, control]
    exact h.paused (paused ▸ now)
  going now := by
    rcases h.going (paused ▸ now) with plain | ⟨pc, word, c, c', failed, refuses⟩
    · exact .inl plain
    · obtain ⟨c'', refuses⟩ := machine c' refuses
      exact .inr ⟨pc, word, c, c'', failed, refuses⟩

/-- Effects that set no caption keep what is known of it. -/
theorem append (h : Titled past seen s status) {effects : List Effect}
    (silent : lastCaption effects = none) : Titled (past ++ effects) seen s status :=
  h.keep silent rfl rfl rfl fun c refuses => ⟨c, refuses⟩

/-- Pausing and going on set the caption that fits, whatever it was. -/
theorem of_togglePause (past : List Effect) (seen : List WindowEvent) (s : Session) :
    Titled (past ++ s.togglePause.effects) (seen ++ [.keyDown Controls.pause])
      s.togglePause.session (if s.paused then .plain else .paused) := by
  have controls := endsRestarted_concat seen (.keyDown Controls.pause)
  rw [if_pos rfl] at controls
  constructor
  · rw [lastCaption_append, lastCaption_togglePause]
    rfl
  · rw [s.togglePause_eq.2, controls, Bool.and_false]
    intro now
    have before : s.paused = false := by simpa using now
    rw [before]
  · rw [s.togglePause_eq.2]
    intro now
    have before : s.paused = true := by simpa using now
    exact .inl (if_pos before)

/-- A restart sets a plain caption, also in a pause. Without a program it sets none, and the
machine finds no instruction. -/
theorem restart {d : Disk} (h : Titled past seen s status) (through : (s.restart d).stop = none) :
    ∃ status', Titled (past ++ (s.restart d).effects) (seen ++ [.keyDown Controls.backspace])
      (s.restart d).session status' := by
  have controls := endsRestarted_concat seen (.keyDown Controls.backspace)
  rw [if_neg (by decide), if_pos rfl] at controls
  obtain ⟨n, session, -⟩ := restart_through through
  have caption := lastCaption_restart through
  cases rom : s.rom with
  | none =>
      rw [rom] at caption
      refine ⟨status, h.keep caption (by rw [session]) (by rw [session]) (by simp [rom]) ?_⟩
      intro c _
      have reset : (s.restart d).session.machine = s.machine.reset := by
        rw [Session.restart, rom]
        rfl
      rw [reset]
      exact ⟨_, Machine.refuses_initial _⟩
  | some path =>
      rw [rom] at caption
      refine ⟨.plain, ?_, ?_, fun _ => .inl rfl⟩
      · rw [lastCaption_append, caption]
        rfl
      · intro _
        rw [session, rom, controls]
        rfl

theorem handleEvent {d : Disk} {e : WindowEvent} (h : Titled past seen s status)
    (through : (s.handleEvent d e).stop = none) :
    ∃ status', Titled (past ++ (s.handleEvent d e).effects) (seen ++ [e])
      (s.handleEvent d e).session status' := by
  have controls := endsRestarted_concat seen e
  rcases s.handleEvent_cases d e with
    ⟨ends, same⟩ | ⟨rfl, same⟩ | ⟨rfl, same⟩ | ⟨-, -, pauses, restarts, same⟩
  · have other : e ≠ .keyDown Controls.pause ∧ e ≠ .keyDown Controls.backspace := by
      rcases ends with rfl | rfl <;> decide
    rw [if_neg other.1, if_neg other.2] at controls
    rw [same]
    exact ⟨status, h.keep rfl rfl rfl (by rw [controls]) fun c refuses => ⟨c, refuses⟩⟩
  · rw [same]
    exact ⟨_, of_togglePause past seen s⟩
  · rw [same] at through ⊢
    exact h.restart through
  · rw [if_neg pauses, if_neg restarts] at controls
    rw [same]
    exact ⟨status, h.keep rfl rfl rfl (by rw [controls]) fun c refuses => ⟨c, refuses⟩⟩

theorem handleEvents {d : Disk} {events : List WindowEvent} (h : Titled past seen s status)
    (through : (s.handleEvents d events).stop = none) :
    ∃ status', Titled (past ++ (s.handleEvents d events).effects) (seen ++ events)
      (s.handleEvents d events).session status' := by
  induction events generalizing s past seen status with
  | nil =>
      refine ⟨status, ?_⟩
      rw [List.append_nil]
      exact h.append rfl
  | cons e rest ih =>
      obtain ⟨first, later⟩ := (Outcome.stop_andThen_iff _ _).1 through
      obtain ⟨status', next⟩ := h.handleEvent first
      obtain ⟨status'', last⟩ := ih next later
      rw [Session.handleEvents, Outcome.andThen_of_none first]
      refine ⟨status'', ?_⟩
      simpa only [List.append_assoc, List.singleton_append] using last

/-- The caption is plain before ticks that report no condition: one that tells of a condition
would be set again. -/
theorem plain_of_unreported {held : List Int} (h : Titled past seen s status)
    (going : s.paused = false) (fault : (s.batch held).fault = none)
    (error : (s.batch held).error = none) : status = .plain := by
  rcases h.going going with plain | ⟨-, -, -, c, -, refuses⟩
  · exact plain
  · cases error.symm.trans ((error_batch fault).2 c refuses)

/-- The ticks of a frame leave a plain caption, or one that tells of the condition that the
machine goes on to report. -/
theorem update {held : List Int} (h : Titled past seen s status) (going : s.paused = false)
    (through : (s.update held).outcome.stop = none) :
    ∃ status', Titled (past ++ (s.update held).outcome.effects) seen
        (s.update held).outcome.session status' ∧
      Tells (s.update held).outcome.session.machine status' := by
  obtain ⟨fault, -, session⟩ := update_through through
  have consistent := (error_batch fault).1
  have caption := lastCaption_update through
  rw [session]
  cases error : (s.batch held).error with
  | some c =>
      have refuses := consistent c error
      rw [error] at caption
      refine ⟨_, ⟨?_, fun now => ?_, fun _ => ?_⟩, .inr ⟨c, refuses, rfl⟩⟩
      · rw [lastCaption_append, caption]
        rfl
      · cases going.symm.trans now
      · exact .inr ⟨_, _, _, c, rfl, refuses⟩
  | none =>
      have plain := h.plain_of_unreported going fault error
      rw [error] at caption
      refine ⟨.plain, ⟨?_, fun now => ?_, fun _ => .inl rfl⟩, .inl rfl⟩
      · rw [lastCaption_append, caption, ← plain]
        exact h.caption
      · cases going.symm.trans now

/-- The machine's part of a frame. -/
theorem advance {held : List Int} (h : Titled past seen s status)
    (through : (s.advance held).stop = none) :
    ∃ status', Titled (past ++ (s.advance held).effects) seen (s.advance held).session status' ∧
      ((s.advance held).session.paused = false →
        Tells (s.advance held).session.machine status') := by
  rcases s.advance_cases held with ⟨paused, idle⟩ | ⟨going, -, update⟩ | ⟨going, -, update⟩
  · rw [idle]
    refine ⟨status, h.append rfl, fun now => ?_⟩
    cases paused.symm.trans now
  · rw [update] at through ⊢
    obtain ⟨status', titled, tells⟩ := h.update going through
    exact ⟨status', titled, fun _ => tells⟩
  · rw [update] at through ⊢
    obtain ⟨updated, rendered⟩ := (Outcome.stop_andThen_iff _ _).1 through
    obtain ⟨status', titled, tells⟩ := h.update going updated
    rw [Outcome.andThen_of_none updated, render_through rendered, ← List.append_assoc]
    refine ⟨status', ?_, fun _ => tells⟩
    exact titled.append rfl

/-- One frame keeps what is known of the caption. -/
theorem work {d : Disk} {f : Frame} (h : Titled past seen s status)
    (through : (s.work d f).stop = none) :
    ∃ status', Titled (past ++ (s.work d f).effects) (seen ++ f.events) (s.work d f).session
        status' ∧
      ((s.work d f).session.paused = false → Tells (s.work d f).session.machine status') := by
  obtain ⟨handled, advanced⟩ := (Outcome.stop_andThen_iff _ _).1 through
  obtain ⟨status', titled⟩ := h.handleEvents handled
  rw [Session.work, Outcome.andThen_of_none handled, ← List.append_assoc]
  exact titled.advance advanced

/-- An activity without a caption leaves the status of the caption. -/
theorem status_eq (h : Titled past seen s status) {t : Session} {effects : List Effect}
    {seen' : List WindowEvent} {status' : Status} (later : Titled (past ++ effects) seen' t status')
    (silent : lastCaption effects = none) : status' = status := by
  have same := later.caption
  rw [lastCaption_append, silent, Option.none_or, h.caption] at same
  exact (congrArg Caption.status (Option.some.inj same)).symm

/-- The caption of a session that goes on is plain before ticks that set none. -/
theorem plain_of_silent_advance {held : List Int} (h : Titled past seen s status)
    (going : s.paused = false) (through : (s.advance held).stop = none)
    (silent : lastCaption (s.advance held).effects = none) : status = .plain := by
  have updated (stop : (s.update held).outcome.stop = none)
      (silent : lastCaption (s.update held).outcome.effects = none) : status = .plain := by
    rw [lastCaption_update stop, Option.map_eq_none_iff] at silent
    exact h.plain_of_unreported going (update_through stop).1 silent
  rcases s.advance_cases held with ⟨paused, -⟩ | ⟨-, -, update⟩ | ⟨-, -, update⟩
  · cases going.symm.trans paused
  · rw [update] at through silent
    exact updated through silent
  · rw [update] at through silent
    obtain ⟨stop, -⟩ := (Outcome.stop_andThen_iff _ _).1 through
    rw [Outcome.andThen_of_none stop, lastCaption_append, Option.or_eq_none_iff] at silent
    exact updated stop silent.2

/-- The caption of a session that goes on is plain before a frame that sets none. -/
theorem plain_of_silent_work {d : Disk} {f : Frame} (h : Titled past seen s status)
    (going : s.paused = false) (through : (s.work d f).stop = none)
    (silent : lastCaption (s.work d f).effects = none) : status = .plain := by
  obtain ⟨handled, advanced⟩ := (Outcome.stop_andThen_iff _ _).1 through
  rw [Session.work, Outcome.andThen_of_none handled, lastCaption_append,
    Option.or_eq_none_iff] at silent
  obtain ⟨status', titled⟩ := h.handleEvents handled
  obtain rfl : status' = status := h.status_eq titled silent.2
  cases paused : (s.handleEvents d f.events).session.paused with
  | false => exact titled.plain_of_silent_advance paused advanced silent.1
  | true =>
      -- Nothing but a restart can have led to a plain caption in a pause, and a pause sets one.
      have known := titled.paused paused
      rcases h.going going with plain | ⟨pc, word, c, -, failed, -⟩
      · exact plain
      · split at known
        · exact known
        · cases known.symm.trans failed

/-- What is known of the caption is known again after some frames. -/
theorem passes {d : Disk} {t : Session} {fs : List Frame} {ws : List Wait}
    (h : Titled past seen s status) (played : Passes d s fs ws t) :
    ∃ status', Titled (past ++ ws.flatMap Wait.trace) (seen ++ fs.flatMap Frame.events) t
      status' := by
  induction played generalizing past seen status with
  | nil s => exact ⟨status, by simpa using h⟩
  | cons running through rest ih =>
      obtain ⟨status', next, -⟩ := h.work through
      have silent (rate : Int) : lastCaption [.clock rate] = none := rfl
      obtain ⟨status'', last⟩ := ih (next.append (silent _))
      exact ⟨status'', by simpa [Wait.trace] using last⟩

/-- What is known of the caption before some waits is known at each of them. -/
theorem follow {d : Disk} {passed rest : List Wait} {w : Wait} (h : Titled past seen s status)
    (chain : Follow d s (passed ++ w :: rest)) :
    ∃ status', Titled (past ++ (passed.flatMap Wait.trace ++ w.effects))
        (seen ++ (passed ++ [w]).flatMap fun v => v.frame.events) w.session status' ∧
      (w.session.paused = false → Tells w.session.machine status') := by
  obtain ⟨t, played, through, wait⟩ := chain.passes
  obtain ⟨status', titled⟩ := h.passes played
  obtain ⟨status'', last, tells⟩ := titled.work through
  rw [wait]
  refine ⟨status'', ?_, tells⟩
  simpa [List.flatMap_map] using last

end Titled

/-- A new session has a plain caption. -/
theorem titled_start {settings : Settings} {machine : Machine} {mixer : Mixer} {opened : Outcome}
    (h : Session.start settings machine mixer = .ok opened) :
    Titled opened.effects [] opened.session .plain ∧ opened.session.paused = false := by
  obtain ⟨found, -, rfl⟩ := exists_made_of_start h
  refine ⟨⟨?_, fun now => ?_, fun _ => .inl rfl⟩, rfl⟩
  · rw [lastCaption_append]
    rfl
  · cases now

/-- Loading a program leaves a plain caption, also if the program cannot be read. -/
theorem Titled.load {past : List Effect} {seen : List WindowEvent} {s : Session}
    (h : Titled past seen s .plain) (going : s.paused = false) (d : Disk) (path : Path) :
    Titled (past ++ (s.load d path).effects) seen (s.load d path).session .plain := by
  cases read : Program.read d path with
  | error e =>
      simp only [Session.load, read, List.append_nil]
      exact h
  | ok found =>
      simp only [Session.load, read]
      refine ⟨?_, fun now => ?_, fun _ => .inl rfl⟩
      · rw [lastCaption_append, lastCaption_append]
        rfl
      · cases going.symm.trans now

/-- A session that has started, loaded a program and shown its first picture has a plain
caption. -/
theorem titled_shown {settings : Settings} {machine : Machine} {mixer : Mixer} {opened : Outcome}
    (h : Session.start settings machine mixer = .ok opened) (d : Disk) (path : Path) :
    let loaded := opened.session.load d path
    Titled (opened.effects ++ loaded.effects ++ [.flip loaded.session.picture]) [] loaded.session
      .plain := by
  intro loaded
  obtain ⟨new, going⟩ := titled_start h
  exact (new.load going d path).append rfl

/-- The caption of a session that starts, loads a program and runs: at every wait for the clock
it is plain or tells of the condition that the machine goes on to report, if the session is not
paused. If it is paused, the caption says so, unless the program was started over since. -/
theorem caption_at_wait {settings : Settings} {machine : Machine} {mixer : Mixer}
    {opened : Outcome} (h : Session.start settings machine mixer = .ok opened) (d : Disk)
    (path : Path) (script : List Frame) :
    let loaded := opened.session.load d path
    let s := loaded.session
    ∀ before rate after, (s.run d script).effects = before ++ .clock rate :: after →
      ∃ passed w rest, s.waits d script = passed ++ w :: rest ∧
        before = .flip s.picture :: (passed.flatMap Wait.trace ++ w.effects) ∧
        ∃ status,
          lastCaption (opened.effects ++ loaded.effects ++ before) =
            some (w.session.caption status) ∧
          if w.session.paused then
            status = if w.session.rom.isSome &&
                endsRestarted ((passed ++ [w]).flatMap fun v => v.frame.events)
              then .plain else .paused
          else Tells w.session.machine status := by
  intro loaded s before rate after effects
  obtain ⟨passed, w, rest, waits, rfl⟩ := exists_wait effects
  refine ⟨passed, w, rest, waits, rfl, ?_⟩
  obtain ⟨status, titled, tells⟩ :=
    (titled_shown h d path).follow (waits ▸ s.follow_waits d script)
  rw [List.append_assoc, List.singleton_append] at titled
  refine ⟨status, titled.caption, ?_⟩
  split
  · next paused => exact titled.paused paused
  · next going => exact tells (Bool.not_eq_true _ ▸ going)

/-- A disk with a program that returns without a call. -/
def returnDisk : Disk := Disk.empty.install "game.ch8" (.file [0x00, 0xEE])

/-- Settings with one tick in a frame. -/
def muteSettings : Settings := { Settings.default with clockHz := 60, glow := false }

/-- A session without a sound device, before it loads a program. -/
def muteOpened : Outcome :=
  ⟨⟨muteSettings, Machine.initial (Generator.cycle []), none, true, false, ⟨false, none⟩⟩,
    [.sound Beeper.opening,
      .log ⟨.warning, .session, "Audio unavailable, running silent: no device"⟩,
      .caption ⟨"no ROM", .plain⟩], none⟩

/-- The session with the program that returns. -/
def returnLoaded : Outcome := muteOpened.session.load returnDisk (Path.ofString "game.ch8")

/-- A frame without events, then one that pauses the session and starts the program over. -/
def returnScript : List Frame :=
  [⟨[], []⟩, ⟨[.keyDown Controls.pause, .keyDown Controls.backspace], []⟩]

/-- The program reports its condition in the first frame, and the second ends in a pause. -/
theorem waits_return :
    let failed := returnLoaded.session.work returnDisk ⟨[], []⟩
    let restarted := failed.session.work returnDisk
      ⟨[.keyDown Controls.pause, .keyDown Controls.backspace], []⟩
    returnLoaded.session.waits returnDisk returnScript =
      [⟨⟨[], []⟩, failed.effects, failed.session⟩] ++
        ⟨⟨[.keyDown Controls.pause, .keyDown Controls.backspace], []⟩, restarted.effects,
          restarted.session⟩ :: restarted.session.waits returnDisk [] := by
  intro failed restarted
  have first : returnLoaded.session.running = true ∧ failed.stop = none :=
    ⟨by decide +kernel, Option.isNone_iff_eq_none.1 (by decide +kernel)⟩
  have second : failed.session.running = true ∧ restarted.stop = none :=
    ⟨by decide +kernel, Option.isNone_iff_eq_none.1 (by decide +kernel)⟩
  rw [returnScript, waits_cons first.1 first.2, waits_cons second.1 second.2]
  rfl

/-- The wait after the frame in which the program reports that it returns without a call. -/
theorem caption_at_wait_of_return :
    let s := returnLoaded.session
    Session.start muteSettings (Machine.initial (Generator.cycle []))
        (.unavailable "no device") = .ok muteOpened ∧
      ∃ before rate after, (s.run returnDisk returnScript).effects =
          before ++ .clock rate :: after ∧
        (lastCaption (muteOpened.effects ++ returnLoaded.effects ++ before)).map Caption.text =
          some "chip8vm - game - $200: RET (return with an empty stack)" ∧
        ∃ passed w rest, s.waits returnDisk returnScript = passed ++ w :: rest ∧
          before = .flip s.picture :: (passed.flatMap Wait.trace ++ w.effects) ∧
          ∃ status,
            lastCaption (muteOpened.effects ++ returnLoaded.effects ++ before) =
              some (w.session.caption status) ∧
            if w.session.paused then
              status = if w.session.rom.isSome &&
                  endsRestarted ((passed ++ [w]).flatMap fun v => v.frame.events)
                then .plain else .paused
            else Tells w.session.machine status := by
  intro s
  have started : Session.start muteSettings (Machine.initial (Generator.cycle []))
      (.unavailable "no device") = .ok muteOpened := rfl
  have first : s.waits returnDisk returnScript = [] ++ _ :: _ := waits_return
  obtain ⟨after, effects⟩ := split_of_waits (by decide +kernel) first
  refine ⟨started, _, _, after, effects, by decide +kernel, ?_⟩
  exact caption_at_wait started returnDisk (Path.ofString "game.ch8") returnScript _ _ _ effects

/-- After a restart in a pause the caption is plain, as if the session were not paused. -/
theorem plain_caption_in_pause :
    let s := returnLoaded.session
    ∃ before rate after passed w rest,
      (s.run returnDisk returnScript).effects = before ++ .clock rate :: after ∧
      s.waits returnDisk returnScript = passed ++ w :: rest ∧
      before = .flip s.picture :: (passed.flatMap Wait.trace ++ w.effects) ∧
      w.session.paused = true ∧
      lastCaption (muteOpened.effects ++ returnLoaded.effects ++ before) =
        some (w.session.caption .plain) ∧
      (lastCaption (muteOpened.effects ++ returnLoaded.effects ++ before)).map Caption.text =
        some "chip8vm - game" := by
  intro s
  obtain ⟨after, effects⟩ := split_of_waits (by decide +kernel) waits_return
  refine ⟨_, _, after, _, _, _, effects, waits_return, rfl, ?_⟩
  decide +kernel

end Session

end Chip8
