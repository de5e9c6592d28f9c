import Chip8.Proofs.Batches
import Chip8.Proofs.Captions

/-!
# The captions of failures

A frame goes on after a tick that reports a condition, and its caption is made up at the end, from
the machine as it then is and from the condition reported last. It tells of the tick that failed
first all the same: from there on the machine stands still, so the program counter and the word
are those of that tick, and every later tick reports its condition again.
-/

namespace Chip8

namespace Machine
variable {m : Machine} {c c' : Condition}

/-- A tick of a run is made by the machine that stands there. -/
theorem run_eq_append_cons (h : Reachable m) {history : List Keypad} {passed rest : List Tick}
    {t : Tick} (place : m.run (history.map Vector.toList) = passed ++ t :: rest) :
    ∃ before keys later, history = before ++ keys :: later ∧
      passed = m.run (before.map Vector.toList) ∧ t = (m.follow before).tickWith keys := by
  induction passed generalizing m history with
  | nil =>
      cases history with
      | nil => simp [run] at place
      | cons keys later =>
          rw [h.run_cons] at place
          exact ⟨[], keys, later, rfl, rfl, (List.cons_eq_cons.1 place).1.symm⟩
  | cons u passed ih =>
      cases history with
      | nil => simp [run] at place
      | cons first history =>
          rw [h.run_cons, List.cons_append, List.cons_eq_cons] at place
          obtain ⟨rfl, place⟩ := place
          obtain ⟨before, keys, later, rfl, rfl, tick⟩ := ih (h.tickWith first) place
          exact ⟨first :: before, keys, later, rfl, (h.run_cons first before).symm, tick⟩

/-- A machine that stands still has one condition to report. -/
theorem Stuck.eq_of_refuses (h : m.Stuck c) (timer : 0 ≤ m.delay) (refuses : m.Refuses c') :
    c' = c := by
  have tick := (refuses.tickWith Keypad.none).symm.trans (h.tickWith timer Keypad.none)
  exact Option.some.inj (congrArg (fun t => t.machine.lastError) tick)

end Machine

namespace Session

open Machine

section Frames
variable {s : Session} {held : List Int} {passed rest : List Tick} {t : Tick} {c : Condition}

/-- A tick of a frame is made by the machine that stands there, and the frame ends with the
machine that the rest of its ticks lead to. -/
theorem frameTicks_eq_append_cons (h : Reachable s.machine)
    (place : s.frameTicks held = passed ++ t :: rest) :
    let n := s.machine.afterRun passed
    let keys := Controls.snapshot held
    Reachable n ∧ t = n.tickWith keys ∧
      ∃ later, (s.batch held).machine = n.follow (keys :: later) := by
  intro n keys
  rw [frameTicks, ← List.map_replicate] at place
  obtain ⟨before, keys', later, history, rfl, tick⟩ := run_eq_append_cons h place
  obtain rfl : keys' = keys :=
    List.eq_of_mem_replicate (history ▸ List.mem_append_right _ List.mem_cons_self)
  have stands : n = s.machine.follow before := afterRun_run h before
  rw [stands]
  refine ⟨h.follow before, tick, later, ?_⟩
  rw [← follow_append, ← history]
  exact (Batch.run_of_reachable (b := .start s.machine) h rfl _).2

/-- The batch of a frame keeps the condition that one of its ticks reports, and its machine shows
the program counter and the word of that tick. -/
theorem batch_of_reports (h : Reachable s.machine) (place : s.frameTicks held = passed ++ t :: rest)
    (reports : t.Reports c) :
    (s.batch held).error = some c ∧
      (s.batch held).machine.pc = (s.machine.afterRun passed).pc ∧
      (s.batch held).machine.fetch = (s.machine.afterRun passed).fetch := by
  obtain ⟨reachable, tick, later, ends⟩ := frameTicks_eq_append_cons h place
  obtain ⟨out, ended, failed⟩ := reports
  rw [tick] at ended
  have stuck := stuck_of_error reachable.bounded.toSafe ended failed
  have stood := stuck.follow reachable.bounded.delay.1 (Controls.snapshot held) later
  rw [ends, stood]
  refine ⟨?_, rfl, rfl⟩
  have kept : (s.batch held).error ≠ none := by
    rw [Ne, error_batch_iff]
    intro silent
    exact silent t (by simp [place]) c ⟨out, tick ▸ ended, failed⟩
  obtain ⟨c', error⟩ := Option.ne_none_iff_exists'.1 kept
  have through := (s.stop_update_iff held).1 (stop_update_of_reachable held h)
  have refuses := (error_batch through).1 c' error
  rw [ends, stood] at refuses
  rw [error, (stuck.stood _ _).eq_of_refuses (delay_stood_nonneg _ _ _ _) refuses]

end Frames

/-- A frame sets a caption exactly if one of its ticks reports a condition, and then one caption
alone. Whichever of these ticks is taken, and so for the first, the status names the program
counter and the word that it found and the condition that it reported. -/
theorem failure_named_once {s : Session} (h : Reachable s.machine) (held : List Int) :
    (s.update held).outcome.stop = none ∧
      (captions (s.update held).outcome.effects ≠ [] ↔
        ∃ t ∈ s.frameTicks held, ∃ c, t.Reports c) ∧
      ∀ passed t rest c, s.frameTicks held = passed ++ t :: rest → t.Reports c →
        let n := s.machine.afterRun passed
        t = n.tick (Controls.snapshot held).toList ∧
          ∃ caption, captions (s.update held).outcome.effects = [caption] ∧
            caption.program = (s.caption .plain).program ∧
            Caption.statusText caption.status =
              "$" ++ Text.Hex.text 3 n.pc ++ ": " ++ wordText n.fetch.value ++
                " (" ++ c.message ++ ")" := by
  have through := stop_update_of_reachable held h
  have set := captions_update through
  refine ⟨through, ?_, ?_⟩
  · have silent : captions (s.update held).outcome.effects = [] ↔ (s.batch held).error = none := by
      rw [set, Option.toList_eq_nil_iff, Option.map_eq_none_iff]
    rw [Ne, silent, error_batch_iff]
    simp only [not_forall, not_not, exists_prop]
  · intro passed t rest c place reports n
    obtain ⟨-, tick, -⟩ := frameTicks_eq_append_cons h place
    obtain ⟨error, pc, fetch⟩ := batch_of_reports h place reports
    rw [tick_toList]
    rw [error, pc, fetch] at set
    exact ⟨tick, _, set, rfl, rfl⟩

/-- A session with four ticks in a frame and a program that sets a register and then returns from
no call. -/
def failingSession : Session :=
  ⟨{ Settings.default with clockHz := 240 }, loaded [0x60, 0x05, 0x00, 0xEE], none, true, false,
    ⟨false, none⟩⟩

/-- The frame in which the second of four ticks is the first to fail. -/
theorem failure_named_once_of_return :
    ∃ passed t rest, failingSession.frameTicks [] = passed ++ t :: rest ∧ passed.length = 1 ∧
      rest.length = 2 ∧ t.Reports .stackUnderflow ∧
      ∃ caption, captions (failingSession.update []).outcome.effects = [caption] ∧
        Caption.statusText caption.status = "$202: RET (return with an empty stack)" := by
  have reachable : Reachable failingSession.machine := reachable_loaded _
  have count : failingSession.settings.ticksPerFrame.toNat = 1 + 3 := by decide +kernel
  let keys := Controls.snapshot []
  let m := (failingSession.machine.tickWith keys).machine
  have second : Reachable m := reachable.tickWith keys
  let later := List.replicate 2 keys
  have place : failingSession.frameTicks [] = [failingSession.machine.tickWith keys] ++
      m.tickWith keys :: (m.tickWith keys).machine.run (later.map Vector.toList) := by
    rw [frameTicks, count, ← List.map_replicate]
    exact (reachable.run_cons keys _).trans (congrArg _ (second.run_cons keys later))
  have reports : (m.tickWith keys).Reports .stackUnderflow :=
    ⟨_, second.output_tickWith keys, by decide +kernel⟩
  obtain ⟨-, caption, set, -, status⟩ :=
    (failure_named_once reachable []).2.2 _ _ _ _ place reports
  refine ⟨_, _, _, place, rfl, length_run (second.tickWith keys) later, reports, caption, set, ?_⟩
  rw [status]
  decide +kernel

end Session

end Chip8
