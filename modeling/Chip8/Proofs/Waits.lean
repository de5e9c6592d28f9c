import Chip8.Proofs.Activities

/-!
# Waits for the clock

A session that is not broken off waits for the clock once in every frame. This module
lists the waits of a session with what each frame does before its wait, and finds the
wait that belongs to a place in the effects of the session. The waits follow one
another, so that what holds at every wait is proved by induction on them.
-/

namespace Chip8

/-- Whether an effect waits for the clock. -/
def Effect.isClock : Effect → Bool
  | .clock _ => true
  | _ => false

theorem Effect.isClock_of_isQuiet {e : Effect} (h : e.isQuiet = true) : e.isClock = false := by
  cases e <;> simp_all [isQuiet, isClock]

namespace Session

/-- What a frame does before it waits for the clock. -/
def work (d : Disk) (s : Session) (f : Frame) : Outcome :=
  (s.handleEvents d f.events).andThen fun t => t.advance f.held

theorem frame_eq (d : Disk) (s : Session) (f : Frame) :
    s.frame d f = (s.work d f).andThen awaitClock := rfl

theorem isClock_of_mem_advance {s : Session} {held : List Int} {e : Effect}
    (h : e ∈ (s.advance held).effects) : e.isClock = false := by
  have quiet := fun mem => Effect.isClock_of_isQuiet (s.quiet_update held e mem)
  rcases s.advance_cases held with ⟨-, idle⟩ | ⟨-, -, update⟩ | ⟨-, -, update⟩
  · rw [idle] at h
    cases h
  · exact quiet (update ▸ h)
  · rw [update] at h
    rcases Outcome.mem_effects_andThen h with before | shown
    · exact quiet before
    · rw [render] at shown
      split at shown
      · rw [List.mem_singleton.1 shown]
        rfl
      · cases shown

/-- The wait at the end of a frame is the only one that comes of it. -/
theorem isClock_of_mem_work {d : Disk} {s : Session} {f : Frame} {e : Effect}
    (h : e ∈ (s.work d f).effects) : e.isClock = false := by
  rcases Outcome.mem_effects_andThen h with events | machine
  · exact Effect.isClock_of_isQuiet (s.quiet_handleEvents d f.events e events)
  · exact isClock_of_mem_advance machine

/-- A wait for the clock: the frame that ends with it, what the frame did before, and
the session that waits. -/
structure Wait where
  frame : Frame
  effects : List Effect
  session : Session

/-- The effects of a frame with its wait. -/
def Wait.trace (w : Wait) : List Effect := w.effects ++ [.clock w.session.settings.frameRate]

/-- The frame in which the window is closed. -/
def closing : Frame := ⟨[.quit], []⟩

/-- The wait of one frame and those that come after it. -/
def waitsFrom (d : Disk) (s : Session) (f : Frame) (rest : Session → List Wait) : List Wait :=
  if s.running then
    let o := s.work d f
    match o.stop with
    | some _ => []
    | none => ⟨f, o.effects, o.session⟩ :: rest o.session
  else []

/-- The waits for the clock while the frames of a script are played and the window is
closed. -/
def waits (d : Disk) (s : Session) : List Frame → List Wait
  | [] => s.waitsFrom d closing fun _ => []
  | f :: rest => s.waitsFrom d f fun t => t.waits d rest

theorem waits_cons {d : Disk} {s : Session} {f : Frame} (running : s.running = true)
    (through : (s.work d f).stop = none) (rest : List Frame) :
    s.waits d (f :: rest) =
      ⟨f, (s.work d f).effects, (s.work d f).session⟩ :: (s.work d f).session.waits d rest := by
  simp [waits, waitsFrom, running, through]

theorem waits_of_stop {d : Disk} {s : Session} {f : Frame} {stop : Stop}
    (h : (s.work d f).stop = some stop) (rest : List Frame) : s.waits d (f :: rest) = [] := by
  simp [waits, waitsFrom, h]

/-- Waits that follow one another from a session on. -/
inductive Follow (d : Disk) : Session → List Wait → Prop
  | nil (s : Session) : Follow d s []
  | cons {s : Session} {f : Frame} {ws : List Wait} (running : s.running = true)
      (through : (s.work d f).stop = none) (rest : Follow d (s.work d f).session ws) :
      Follow d s (⟨f, (s.work d f).effects, (s.work d f).session⟩ :: ws)

theorem follow_waitsFrom {d : Disk} {rest : Session → List Wait} (h : ∀ t, Follow d t (rest t))
    (s : Session) (f : Frame) : Follow d s (s.waitsFrom d f rest) := by
  by_cases running : s.running = true
  · cases through : (s.work d f).stop with
    | some stop => simpa [waitsFrom, running, through] using .nil s
    | none => simpa [waitsFrom, running, through] using .cons running through (h _)
  · simpa [waitsFrom, running] using .nil s

/-- The waits of a session follow one another. -/
theorem follow_waits (d : Disk) (s : Session) (script : List Frame) :
    Follow d s (s.waits d script) := by
  induction script generalizing s with
  | nil => exact follow_waitsFrom (fun t => .nil t) s closing
  | cons f rest ih => exact follow_waitsFrom (fun t => ih t) s f

/-- A session plays some frames to their end: their waits and the session after them. -/
inductive Passes (d : Disk) : Session → List Frame → List Wait → Session → Prop
  | nil (s : Session) : Passes d s [] [] s
  | cons {s t : Session} {f : Frame} {fs : List Frame} {ws : List Wait}
      (running : s.running = true) (through : (s.work d f).stop = none)
      (rest : Passes d (s.work d f).session fs ws t) :
      Passes d s (f :: fs) (⟨f, (s.work d f).effects, (s.work d f).session⟩ :: ws) t

section Passes
variable {d : Disk} {s t : Session} {fs : List Frame} {ws : List Wait}

theorem Passes.length_eq (h : Passes d s fs ws t) : ws.length = fs.length := by
  induction h with
  | nil s => rfl
  | cons running through rest ih => rw [List.length_cons, List.length_cons, ih]

/-- The waits of a script go on after its first frames as the session does that they lead to. -/
theorem Passes.waits_append (h : Passes d s fs ws t) (script : List Frame) :
    s.waits d (fs ++ script) = ws ++ t.waits d script := by
  induction h with
  | nil s => rfl
  | cons running through rest ih =>
      rw [List.cons_append, waits_cons running through, ih, List.cons_append]

end Passes

/-- Up to any of the waits that follow one another, a session plays the frames of those before. -/
theorem Follow.passes {d : Disk} {s : Session} {passed rest : List Wait} {w : Wait}
    (h : Follow d s (passed ++ w :: rest)) :
    ∃ t, Passes d s (passed.map Wait.frame) passed t ∧ (t.work d w.frame).stop = none ∧
      w = ⟨w.frame, (t.work d w.frame).effects, (t.work d w.frame).session⟩ := by
  induction passed generalizing s with
  | nil =>
      cases h with
      | cons running through rest => exact ⟨s, .nil s, through, rfl⟩
  | cons v passed ih =>
      cases h with
      | cons running through rest =>
          obtain ⟨t, played, last⟩ := ih rest
          exact ⟨t, .cons running through played, last⟩

/-- An activity consists of waits and of effects without a wait after the last of them. -/
def Paced (o : Outcome) (ws : List Wait) : Prop :=
  ∃ tail, (∀ e ∈ tail, e.isClock = false) ∧ o.effects = ws.flatMap Wait.trace ++ tail

theorem paced_idle (s : Session) : Paced (.idle s) [] :=
  ⟨[], fun _ mem => (nomatch mem), rfl⟩

theorem paced_frame {d : Disk} {next : Session → Outcome} {rest : Session → List Wait}
    (h : ∀ t, Paced (next t) (rest t)) (s : Session) (f : Frame) :
    Paced (if s.running then (s.frame d f).andThen next else .idle s) (s.waitsFrom d f rest) := by
  by_cases running : s.running = true
  · rw [if_pos running]
    cases through : (s.work d f).stop with
    | some stop =>
        have frame : s.frame d f = s.work d f := Outcome.andThen_of_some through _
        rw [frame, Outcome.andThen_of_some through]
        refine ⟨(s.work d f).effects, fun e mem => isClock_of_mem_work mem, ?_⟩
        simp [waitsFrom, running, through]
    | none =>
        obtain ⟨tail, quiet, effects⟩ := h (s.work d f).session
        have frame : s.frame d f = ⟨(s.work d f).session,
            (s.work d f).effects ++ [.clock (s.work d f).session.settings.frameRate], none⟩ := by
          rw [frame_eq, Outcome.andThen_of_none through]
          rfl
        refine ⟨tail, quiet, ?_⟩
        rw [frame, Outcome.andThen_of_none rfl]
        simp [waitsFrom, running, through, effects, Wait.trace]
  · simpa [waitsFrom, running] using paced_idle s

theorem paced_frames (d : Disk) (s : Session) (script : List Frame) :
    Paced (s.frames d script) (s.waits d script) := by
  induction script generalizing s with
  | nil =>
      have last := paced_frame (d := d) paced_idle s closing
      rwa [Outcome.andThen_idle] at last
  | cons f rest ih => exact paced_frame (fun t => ih t) s f

/-- A session whose pictures can be worked out shows one, plays its frames and ends
without another wait. -/
theorem paced_run {d : Disk} {s : Session} (h : Display.isDrawable s.settings = true)
    (script : List Frame) :
    ∃ tail, (∀ e ∈ tail, e.isClock = false) ∧
      (s.run d script).effects =
        .flip s.picture :: ((s.waits d script).flatMap Wait.trace ++ tail) := by
  obtain ⟨tail, quiet, effects⟩ := s.paced_frames d script
  have shown : s.render = ⟨s, [.flip s.picture], none⟩ := if_pos h
  have opened : (s.render.andThen fun t => t.frames d script).effects =
      .flip s.picture :: (s.frames d script).effects := by
    rw [shown, Outcome.andThen_of_none rfl]
    rfl
  obtain ⟨last, ended, silent⟩ := Outcome.effects_andThen
    (s.render.andThen fun t => t.frames d script) fun t => t.switchBeeper false
  refine ⟨tail ++ last, ?_, ?_⟩
  · intro e mem
    exact (List.mem_append.1 mem).elim (quiet e) fun mem =>
      Effect.isClock_of_isQuiet (quiet_switchBeeper _ _ e (silent mem))
  · rw [run, ended, opened, effects, List.cons_append, List.append_assoc]

theorem isClock_of_mem_follow {d : Disk} {s : Session} {ws : List Wait} (h : Follow d s ws) :
    ∀ w ∈ ws, ∀ e ∈ w.effects, e.isClock = false := by
  induction h with
  | nil s => exact fun w mem => (nomatch mem)
  | cons running through rest ih =>
      intro w mem e
      rcases List.mem_cons.1 mem with rfl | later
      · exact isClock_of_mem_work
      · exact ih w later e

/-- A wait for the clock among the effects of waits is the wait of one of them. -/
theorem exists_wait_of_split {ws : List Wait} {tail before after : List Effect} {rate : Int}
    (silent : ∀ w ∈ ws, ∀ e ∈ w.effects, e.isClock = false)
    (ended : ∀ e ∈ tail, e.isClock = false)
    (h : ws.flatMap Wait.trace ++ tail = before ++ .clock rate :: after) :
    ∃ passed w rest, ws = passed ++ w :: rest ∧
      before = passed.flatMap Wait.trace ++ w.effects := by
  induction ws generalizing before with
  | nil =>
      have wait : Effect.clock rate ∈ tail := by
        rw [List.flatMap_nil, List.nil_append] at h
        simp [h]
      cases ended _ wait
  | cons v ws ih =>
      have split : v.effects ++ (.clock v.session.settings.frameRate ::
          (ws.flatMap Wait.trace ++ tail)) = before ++ .clock rate :: after := by
        simpa [Wait.trace] using h
      rcases List.append_eq_append_iff.1 split with ⟨past, rfl, later⟩ | ⟨past, inside, earlier⟩
      · cases past with
        | nil => exact ⟨[], v, ws, rfl, by simp⟩
        | cons e past =>
            obtain ⟨rfl, rest⟩ := List.cons_eq_cons.1 later
            obtain ⟨passed, w, more, rfl, rfl⟩ :=
              ih (fun w mem => silent w (List.mem_cons_of_mem v mem)) rest
            exact ⟨v :: passed, w, more, rfl, by simp [Wait.trace]⟩
      · cases past with
        | nil => exact ⟨[], v, ws, rfl, by simpa using inside.symm⟩
        | cons e past =>
            have wait : Effect.clock rate ∈ v.effects := by
              rw [inside, (List.cons_eq_cons.1 earlier).1]
              simp
            cases silent v List.mem_cons_self _ wait

/-- Every wait for the clock in the effects of a session is in the list of its waits. -/
theorem exists_wait {d : Disk} {s : Session} {script : List Frame} {before after : List Effect}
    {rate : Int} (h : (s.run d script).effects = before ++ .clock rate :: after) :
    ∃ passed w rest, s.waits d script = passed ++ w :: rest ∧
      before = .flip s.picture :: (passed.flatMap Wait.trace ++ w.effects) := by
  by_cases drawable : Display.isDrawable s.settings = true
  · obtain ⟨tail, ended, effects⟩ := s.paced_run (d := d) drawable script
    rw [effects] at h
    cases before with
    | nil => cases (List.cons_eq_cons.1 h).1
    | cons e before =>
        obtain ⟨rfl, rest⟩ := List.cons_eq_cons.1 h
        obtain ⟨passed, w, more, waits, rfl⟩ :=
          exists_wait_of_split (isClock_of_mem_follow (s.follow_waits d script)) ended rest
        exact ⟨passed, w, more, waits, rfl⟩
  · have none : (s.run d script).effects = [] := by
      simp [run, render, drawable, Outcome.andThen]
    rw [none] at h
    cases before <;> cases h

/-- A wait is known by what was done before it. -/
theorem place_unique {ws passed rest passed' rest' : List Wait} {w w' : Wait}
    (place : ws = passed ++ w :: rest) (place' : ws = passed' ++ w' :: rest')
    (same : passed.flatMap Wait.trace ++ w.effects = passed'.flatMap Wait.trace ++ w'.effects) :
    passed = passed' ∧ w = w' := by
  subst place
  induction passed generalizing passed' with
  | nil =>
      cases passed' with
      | nil => exact ⟨rfl, (List.cons.inj place').1⟩
      | cons v passed' =>
          obtain rfl := (List.cons.inj place').1
          have length := congrArg List.length same
          simp [Wait.trace] at length
  | cons v passed ih =>
      cases passed' with
      | nil =>
          obtain rfl := (List.cons.inj place').1
          have length := congrArg List.length same
          simp [Wait.trace] at length
      | cons v' passed' =>
          obtain ⟨rfl, later⟩ := List.cons.inj place'
          simp only [List.flatMap_cons, List.append_assoc, List.append_cancel_left_eq] at same
          obtain ⟨rfl, rfl⟩ := ih same later
          exact ⟨rfl, rfl⟩

/-- Every wait in the list of the waits of a session has its place in the effects. -/
theorem split_of_waits {d : Disk} {s : Session} {script : List Frame} {passed rest : List Wait}
    {w : Wait} (drawable : Display.isDrawable s.settings = true)
    (h : s.waits d script = passed ++ w :: rest) :
    ∃ after, (s.run d script).effects =
      (.flip s.picture :: (passed.flatMap Wait.trace ++ w.effects)) ++
        .clock w.session.settings.frameRate :: after := by
  obtain ⟨tail, -, effects⟩ := s.paced_run (d := d) drawable script
  exact ⟨rest.flatMap Wait.trace ++ tail, by simp [effects, h, Wait.trace]⟩

end Session

end Chip8
