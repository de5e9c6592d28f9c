import Chip8.Proofs.Redraw
import Chip8.Proofs.Captions

/-!
# What there is at a wait for the clock

At every wait a session has its machine, the pictures that it has shown, a tone that is on or
off, and a caption. Pictures and caption come of all effects up to the wait, so that they are
gathered along the effects of the session. What is gathered before some waits matters to them
only through the pictures and the caption.
-/

namespace Chip8.Session

/-- What there is at a wait for the clock: the machine, the pictures that were shown so far,
whether the tone is on, and the caption. -/
structure Sight where
  machine : Machine
  pictures : List Picture
  playing : Bool
  caption : Option Caption

/-- A session that waits after some effects. -/
def sight (s : Session) (past : List Effect) : Sight :=
  ⟨s.machine, past.filterMap Effect.picture?, s.beeper.playing, lastCaption past⟩

/-- What there is at every wait among some effects, which come after others. The sessions
that wait are given in order. -/
def sights (past : List Effect) : List Effect → List Session → List Sight
  | .clock rate :: rest, t :: ts => t.sight past :: sights (past ++ [.clock rate]) rest ts
  | e :: rest, ts => sights (past ++ [e]) rest ts
  | [], _ => []

/-- What there is at the waits of a list, after some effects. -/
def looks (past : List Effect) : List Wait → List Sight
  | [] => []
  | w :: ws => w.session.sight (past ++ w.effects) :: looks (past ++ w.trace) ws

section Looks
variable {past past' : List Effect}

theorem sights_of_silent {effects : List Effect} (h : ∀ e ∈ effects, e.isClock = false)
    (more : List Effect) (ts : List Session) :
    sights past (effects ++ more) ts = sights (past ++ effects) more ts := by
  induction effects generalizing past with
  | nil => simp
  | cons e rest ih =>
      have later : sights (past ++ [e]) (rest ++ more) ts = _ :=
        ih fun e' mem => h e' (List.mem_cons_of_mem e mem)
      cases e
      case clock rate => cases h _ List.mem_cons_self
      all_goals simpa [sights] using later

theorem sights_waits {ws : List Wait} {tail : List Effect}
    (silent : ∀ w ∈ ws, ∀ e ∈ w.effects, e.isClock = false)
    (ended : ∀ e ∈ tail, e.isClock = false) :
    sights past (ws.flatMap Wait.trace ++ tail) (ws.map Wait.session) = looks past ws := by
  induction ws generalizing past with
  | nil =>
      rw [List.flatMap_nil, List.nil_append, ← List.append_nil tail, sights_of_silent ended]
      rfl
  | cons w ws ih =>
      have trace : (w :: ws).flatMap Wait.trace ++ tail =
          w.effects ++ .clock w.session.settings.frameRate :: (ws.flatMap Wait.trace ++ tail) := by
        simp [Wait.trace]
      rw [trace, sights_of_silent (silent w List.mem_cons_self), List.map_cons, sights,
        ih fun v mem => silent v (List.mem_cons_of_mem w mem), looks, Wait.trace,
        List.append_assoc]

theorem looks_append (past : List Effect) (ws ws' : List Wait) :
    looks past (ws ++ ws') = looks past ws ++ looks (past ++ ws.flatMap Wait.trace) ws' := by
  induction ws generalizing past with
  | nil => simp [looks]
  | cons w ws ih => simp [looks, ih]

theorem length_looks (past : List Effect) (ws : List Wait) :
    (looks past ws).length = ws.length := by
  induction ws generalizing past with
  | nil => rfl
  | cons w ws ih => simp [looks, ih]

/-- Effects after which the same pictures were shown and the window has the same caption. -/
structure SameView (past past' : List Effect) : Prop where
  pictures : past'.filterMap Effect.picture? = past.filterMap Effect.picture?
  caption : lastCaption past' = lastCaption past

theorem SameView.append (h : SameView past past') (effects : List Effect) :
    SameView (past ++ effects) (past' ++ effects) where
  pictures := by rw [List.filterMap_append, List.filterMap_append, h.pictures]
  caption := by rw [lastCaption_append, lastCaption_append, h.caption]

theorem SameView.sight_eq (h : SameView past past') (s : Session) :
    s.sight past' = s.sight past := by
  rw [sight, sight, h.pictures, h.caption]

theorem SameView.looks_eq (h : SameView past past') (ws : List Wait) :
    looks past' ws = looks past ws := by
  induction ws generalizing past past' with
  | nil => rfl
  | cons w ws ih => rw [looks, looks, (h.append _).sight_eq, ih (h.append _)]

end Looks

/-- What there is at the waits of a session that can show its pictures. -/
theorem sights_run (s : Session) (d : Disk) (past : List Effect) (script : List Frame) :
    sights past (s.run d script).effects ((s.waits d script).map Wait.session) =
      if Display.isDrawable s.settings then looks (past ++ [.flip s.picture]) (s.waits d script)
      else [] := by
  split
  next drawable =>
    obtain ⟨tail, ended, effects⟩ := s.paced_run (d := d) drawable script
    have silent := isClock_of_mem_follow (s.follow_waits d script)
    rw [effects, ← List.singleton_append, sights_of_silent (by simp [Effect.isClock]),
      sights_waits silent ended]
  next undrawable =>
    have none : (s.run d script).effects = [] := by
      simp [run, render, undrawable, Outcome.andThen]
    rw [none, sights]

end Chip8.Session
