import Chip8.Proofs.Runs

/-!
# Reported conditions

A tick reports a condition exactly if it arises from the word at the program
counter and the stack pointer before the tick. The condition is noticed before
anything is written: apart from the keys, the report itself, the mark of change
and the count of the delay timer, the machine is as it was.
-/

namespace Chip8.Machine

/-- A report goes back to the one transition that makes it. -/
theorem Transition.refused {m n : Machine} {keys : Keypad} {c : Condition}
    (t : Transition m keys n) (reported : n.lastError = some c) :
    m.awaiting = none ∧ m.Arises c ∧ n = { m.ready keys with lastError := some c } := by
  cases t with
  | wait waiting up => cases reported
  | resume waiting down => cases reported
  | refuse running arises =>
      cases reported
      exact ⟨running, arises, rfl⟩
  | execute running form done =>
      have silent : (m.ready keys).lastError = none := rfl
      rw [← (execute_control done).2.2] at silent
      cases silent.symm.trans reported

/-- What a tick reports, and what it leaves as it was when it does. -/
theorem tick_error_iff_arises {m : Machine} (h : Reachable m) (keys : Keypad) :
    ∃ out, (m.tick keys.toList).output = .ok out ∧
      (∀ c, out.error = some c ↔ m.awaiting = none ∧ m.Arises c) ∧
      (out.error ≠ none → out.changed = false ∧
        (m.tick keys.toList).machine =
          { m with
            keypad := keys
            lastError := out.error
            changed := false
            delay := if 0 < m.delay then m.delay - 1 else m.delay }) := by
  obtain ⟨n, notices, ended, t⟩ := transition h.bounded.toSafe keys
  rw [tick_toList]
  refine ⟨n.output, by rw [ended]; rfl, ?_, ?_⟩
  · intro c
    constructor
    · intro reported
      obtain ⟨running, arises, -⟩ := t.refused reported
      exact ⟨running, arises⟩
    · rintro ⟨running, arises⟩
      have same := ended.symm.trans (tickWith_refuse running arises)
      exact congrArg (fun tick => tick.machine.lastError) same
  · intro some
    obtain ⟨c, reported⟩ := Option.ne_none_iff_exists'.1 some
    obtain ⟨-, -, rfl⟩ := t.refused reported
    rw [ended]
    exact ⟨rfl, rfl⟩

/-- A call on a full stack, while the delay timer runs. -/
theorem tick_error_of_overflow :
    let m := ((loaded [0x60, 0x14, 0xF0, 0x15, 0x22, 0x04]).follow (List.replicate 18 Keypad.none))
    Reachable m ∧ m.delay = 4 ∧ ∃ out, (m.tick Keypad.none.toList).output = .ok out ∧
      out.error = some .stackOverflow ∧
      (m.tick Keypad.none.toList).machine =
        { m with lastError := some .stackOverflow, delay := 3 } := by
  intro m
  have reachable : Reachable m := (reachable_loaded _).follow _
  have state : m.delay = 4 ∧ m.awaiting = none ∧ m.stack.pointer = 16 ∧ m.keypad = Keypad.none ∧
      m.changed = false ∧ Opcode.lookup m.fetch.value = some .call := by decide +kernel
  obtain ⟨delay, running, full, keypad, changed, call⟩ := state
  obtain ⟨out, ended, iff, kept⟩ := tick_error_iff_arises reachable Keypad.none
  have overflow : out.error = some .stackOverflow :=
    (iff _).2 ⟨running, (Opcode.lookup_eq_some_iff _ _).1 call, full⟩
  refine ⟨reachable, delay, out, ended, overflow, ?_⟩
  rw [(kept (by simp [overflow])).2, overflow, delay, ← keypad, ← changed]
  rfl

end Chip8.Machine
