import Chip8.Proofs.Batches
import Chip8.Proofs.Redraw

/-!
# Reports of a change

A tick reports a change exactly if it runs an instruction that clears the screen or draws a sprite.
Every tick starts without the mark of the one before, so a frame gathers the reports of its ticks;
when it has none to pass on, the picture is still the one from before the frame.
-/

namespace Chip8

namespace Machine

/-- The next tick runs a word that clears the screen or draws a sprite. -/
def Paints (m : Machine) : Prop :=
  m.awaiting = none ∧
    (m.fetch.value = 0x00E0 ∨ HasForm Opcode.draw.form.toList m.fetch.value)

/-- A machine that clears its screen or draws a sprite marks the change, and no other does. -/
theorem changed_execute_iff {m n : Machine} {w : Word} {op : Opcode} {move : Move}
    (done : m.execute ⟨w, op⟩ = .done n move) (unmarked : m.changed = false) :
    n.changed = true ↔ op = .clearScreen ∨ op = .draw := by
  rcases execute_screen done with ⟨rfl, -, marked⟩ | ⟨rfl, rfl⟩ | ⟨clears, draws, -, same⟩
  · exact iff_of_true marked (.inl rfl)
  · exact iff_of_true rfl (.inr rfl)
  · rw [same, unmarked]
    exact iff_of_false Bool.false_ne_true (not_or.2 ⟨clears, draws⟩)

/-- The instruction of a word clears the screen or draws exactly if the word has such a form. -/
theorem opcode_screen_iff (op : Opcode) {w : Word} (form : HasForm op.form.toList w.value) :
    op = .clearScreen ∨ op = .draw ↔
      w.value = 0x00E0 ∨ HasForm Opcode.draw.form.toList w.value := by
  rw [← hasForm_clearScreen_iff]
  constructor
  · rintro (rfl | rfl)
    · exact .inl form
    · exact .inr form
  · exact Or.imp (Opcode.eq_of_hasForm form) (Opcode.eq_of_hasForm form)

/-- No condition arises from a word that clears the screen or draws. -/
theorem Arises.not_screen {m : Machine} {c : Condition} (arises : m.Arises c) :
    ¬ (m.fetch.value = 0x00E0 ∨ HasForm Opcode.draw.form.toList m.fetch.value) := by
  intro screen
  cases c with
  | unrecognized word =>
      rcases screen with clears | draws
      · exact arises.2 .clearScreen ((hasForm_clearScreen_iff _).2 clears)
      · exact arises.2 .draw draws
  | stackOverflow =>
      have other := (opcode_screen_iff .call arises.1).2 screen
      simp at other
  | stackUnderflow =>
      have form := (hasForm_returnFromCall_iff m.fetch).2 arises.1
      have other := (opcode_screen_iff .returnFromCall form).2 screen
      simp at other

/-- A tick marks a change exactly if it paints. -/
theorem Transition.changed_iff {m n : Machine} {keys : Keypad} (t : Transition m keys n) :
    n.changed = true ↔ m.Paints := by
  cases t with
  | wait waiting up =>
      refine iff_of_false Bool.false_ne_true ?_
      simp [Paints, waiting]
  | resume waiting down =>
      refine iff_of_false Bool.false_ne_true ?_
      simp [Paints, waiting]
  | refuse running arises =>
      exact iff_of_false Bool.false_ne_true fun paints => arises.not_screen paints.2
  | @execute op n move running form done =>
      calc n.changed = true
        _ ↔ op = .clearScreen ∨ op = .draw := changed_execute_iff done rfl
        _ ↔ m.fetch.value = 0x00E0 ∨ HasForm Opcode.draw.form.toList m.fetch.value :=
          opcode_screen_iff op form
        _ ↔ m.Paints := (and_iff_right running).symm

/-- What a tick of a reachable machine reports about its picture. -/
theorem tick_changed_iff {m : Machine} (h : Reachable m) (keys : Keypad) :
    ∃ out, (m.tick keys.toList).output = .ok out ∧ (out.changed = true ↔ m.Paints) ∧
      (out.changed = false → (m.tick keys.toList).machine.screen = m.screen) := by
  obtain ⟨n, notices, ended, t⟩ := transition h.bounded.toSafe keys
  have output := h.output_tickWith keys
  rw [tick_toList]
  refine ⟨_, output, ?_, screen_tickWith output⟩
  rw [ended]
  exact t.changed_iff

/-- A run in which no tick paints ends with the picture it began with. -/
theorem screen_follow {m : Machine} (h : Reachable m) {history : List Keypad}
    (idle : m.Throughout history fun n _ => ¬ n.Paints) :
    (m.follow history).screen = m.screen := by
  induction history generalizing m with
  | nil => rfl
  | cons keys history ih =>
      obtain ⟨first, later⟩ := (throughout_cons_iff _ _ _ _).1 idle
      obtain ⟨out, -, painted, kept⟩ := tick_changed_iff h keys
      rw [tick_toList] at kept
      have same := kept (Bool.eq_false_iff.2 (mt painted.1 first))
      rw [follow_cons]
      exact (ih (h.tickWith keys) later).trans same

end Machine

namespace Session

open Machine

/-- Ticks report a change exactly if they clear the screen or draw, a frame exactly if one of its
ticks does; and without a report the picture is as it was. -/
theorem changes_reported_exactly {s : Session} (h : Reachable s.machine) :
    (∀ keys : Keypad, ∃ out, (s.machine.tick keys.toList).output = .ok out ∧
      (out.changed = true ↔ s.machine.awaiting = none ∧
        (s.machine.fetch.value = 0x00E0 ∨
          HasForm Opcode.draw.form.toList s.machine.fetch.value)) ∧
      (out.changed = false →
        (s.machine.tick keys.toList).machine.screen = s.machine.screen)) ∧
    ∀ held, (s.update held).outcome.stop = none ∧
      ((s.update held).changed = true ↔ ∃ t ∈ s.frameTicks held, t.Marks) ∧
      ((s.update held).changed = false →
        (s.update held).outcome.session.machine.screen = s.machine.screen) := by
  refine ⟨tick_changed_iff h, ?_⟩
  intro held
  have through := stop_update_of_reachable held h
  refine ⟨through, ?_, (screen_update through).2⟩
  rw [(update_through through).2.1]
  exact s.changed_batch_iff held

/-- A session with two ticks in a frame and a program that draws a sprite and then stays. -/
def drawingSession : Session :=
  ⟨{ Settings.default with clockHz := 120 }, loaded [0xD0, 0x05, 0x12, 0x02], none, true, false,
    ⟨false, none⟩⟩

/-- The frame that draws the sprite: its last tick reports nothing, the frame does. -/
theorem changes_reported_of_sprite :
    Reachable drawingSession.machine ∧
      (drawingSession.update []).changed = true ∧
      (drawingSession.update []).outcome.session.machine.changed = false ∧
      ∃ t ∈ drawingSession.frameTicks [], t.Marks := by
  have reachable : Reachable drawingSession.machine := reachable_loaded _
  have reported : (drawingSession.update []).changed = true := by decide +kernel
  have iff := ((changes_reported_exactly reachable).2 []).2.1
  exact ⟨reachable, reported, by decide +kernel, iff.1 reported⟩

end Session

end Chip8
