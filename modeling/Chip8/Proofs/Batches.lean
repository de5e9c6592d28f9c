import Chip8.Proofs.Activities
import Chip8.Proofs.Runs
import Mathlib.Data.List.Basic

/-!
# The ticks of a frame

A frame makes a run of ticks with the same keys and adds up what they hand out. It reports a change
if a tick did, and keeps a condition if a tick reported one. The batch of a reachable machine is
never broken off, and ends with the machine at the end of the run.
-/

namespace Chip8

namespace Machine.Tick

/-- A tick reports a change of the picture. -/
def Marks (t : Tick) : Prop := ∃ out, t.output = .ok out ∧ out.changed = true

/-- A tick reports a condition. -/
def Reports (t : Tick) (c : Condition) : Prop := ∃ out, t.output = .ok out ∧ out.error = some c

end Machine.Tick

namespace Session

open Machine

/-- The ticks of one frame with the given keys held. -/
def frameTicks (s : Session) (held : List Int) : List Tick :=
  s.machine.run (List.replicate s.settings.ticksPerFrame.toNat (Controls.snapshot held).toList)

namespace Batch
variable {keys : Keypad} {b : Batch} {n : Nat}

/-- A batch adds up the ticks of a run. -/
theorem run_eq_foldl (h : b.fault = none) :
    run keys n b = (b.machine.run (List.replicate n keys.toList)).foldl add b := by
  induction n generalizing b with
  | zero => rfl
  | succ n ih =>
      rw [run, h, List.replicate_succ, Machine.run, tick_toList]
      cases ended : (b.machine.tickWith keys).output with
      | ok out =>
          have through : (b.add (b.machine.tickWith keys)).fault = none := by
            rw [add, ended]
          have machine : (b.add (b.machine.tickWith keys)).machine =
              (b.machine.tickWith keys).machine := by
            rw [add, ended]
          rw [List.foldl_cons, ← machine]
          exact ih through
      | error f =>
          have broken : (b.add (b.machine.tickWith keys)).fault = some f := by
            rw [add, ended]
          exact run_of_fault broken n

section Sums
variable (b) (ticks : List Tick)

/-- A change is reported exactly if one was before, or a tick reports one. -/
theorem changed_foldl_iff :
    (ticks.foldl add b).changed = true ↔ b.changed = true ∨ ∃ t ∈ ticks, t.Marks := by
  induction ticks generalizing b with
  | nil => simp
  | cons t ticks ih =>
      have first : (b.add t).changed = true ↔ b.changed = true ∨ t.Marks := by
        cases ended : t.output with
        | ok out => simp [add, ended, Tick.Marks]
        | error f => simp [add, ended, Tick.Marks]
      rw [List.foldl_cons, ih, first, or_assoc, List.exists_mem_cons_iff]

/-- There is no condition exactly if there was none before, and no tick reports one. -/
theorem error_foldl_iff :
    (ticks.foldl add b).error = none ↔ b.error = none ∧ ∀ t ∈ ticks, ∀ c, ¬ t.Reports c := by
  induction ticks generalizing b with
  | nil => simp
  | cons t ticks ih =>
      have first : (b.add t).error = none ↔ b.error = none ∧ ∀ c, ¬ t.Reports c := by
        cases ended : t.output with
        | ok out =>
            have silent : out.error = none ↔ ∀ c, ¬ out.error = some c :=
              Option.eq_none_iff_forall_ne_some
            simp [add, ended, Tick.Reports, ← silent, and_comm]
        | error f => simp [add, ended, Tick.Reports]
      rw [List.foldl_cons, ih, first, and_assoc, List.forall_mem_cons]

end Sums

/-- A batch of a reachable machine is not broken off and follows its ticks. -/
theorem run_of_reachable (h : Reachable b.machine) (fault : b.fault = none) (n : Nat) :
    (run keys n b).fault = none ∧
      (run keys n b).machine = b.machine.follow (List.replicate n keys) := by
  induction n generalizing b with
  | zero => exact ⟨fault, rfl⟩
  | succ n ih =>
      have ended := h.output_tickWith keys
      have machine : (b.add (b.machine.tickWith keys)).machine =
          (b.machine.tickWith keys).machine := by
        rw [add, ended]
      have through : (b.add (b.machine.tickWith keys)).fault = none := by
        rw [add, ended]
      rw [run, fault, List.replicate_succ, follow_cons, ← machine]
      exact ih (machine ▸ h.tickWith keys) through

end Batch

section Frames
variable (s : Session) (held : List Int)

theorem batch_eq_foldl : s.batch held = (s.frameTicks held).foldl Batch.add (.start s.machine) :=
  Batch.run_eq_foldl rfl

/-- The batch of a frame reports a change exactly if one of its ticks does. -/
theorem changed_batch_iff : (s.batch held).changed = true ↔ ∃ t ∈ s.frameTicks held, t.Marks := by
  rw [batch_eq_foldl, Batch.changed_foldl_iff]
  exact or_iff_right Bool.false_ne_true

/-- The batch of a frame keeps no condition exactly if none of its ticks reports one. -/
theorem error_batch_iff :
    (s.batch held).error = none ↔ ∀ t ∈ s.frameTicks held, ∀ c, ¬ t.Reports c := by
  rw [batch_eq_foldl, Batch.error_foldl_iff]
  exact and_iff_right rfl

theorem stop_update_iff : (s.update held).outcome.stop = none ↔ (s.batch held).fault = none := by
  constructor
  · intro through
    exact (update_through through).1
  · intro fault
    simp only [update, fault]
    rfl

variable {s} in
/-- A frame of a reachable machine is never broken off. -/
theorem stop_update_of_reachable (h : Reachable s.machine) :
    (s.update held).outcome.stop = none :=
  (s.stop_update_iff held).2 (Batch.run_of_reachable (b := .start s.machine) h rfl _).1

end Frames

end Session

end Chip8
