import Chip8.Machine.Run
import Chip8.Proofs.Decoding
import Chip8.Proofs.Execution

/-!
# What a tick may do

A tick that no fault breaks off is one of four transitions: the machine goes on
waiting for a key, a key ends the wait, a condition is reported, or an instruction
is carried out. `transition` says that these are all, and that the tick hands out
what the machine shows afterwards.

## Implementation notes

Only the stack pointer, the delay timer and the awaited register can lead to a
fault. Their bounds are kept apart from those of the other parts, so that states
with an unbounded program counter have the same four transitions.
-/

namespace Chip8.Machine

/-- The bounds that keep faults away. -/
structure Safe (m : Machine) : Prop where
  stack : m.stack.Within
  delay : 0 ≤ m.delay ∧ m.delay < 256
  awaiting : ∀ register, m.awaiting = some register → 0 ≤ register ∧ register < 16

/-- The machine that a running tick carries its instruction out on. -/
def ready (m : Machine) (keys : Keypad) : Machine := (m.begin keys).countDown

theorem delay_ready (m : Machine) (keys : Keypad) :
    (m.ready keys).delay = if 0 < m.delay then m.delay - 1 else m.delay := rfl

/-- A condition arises from the word at the program counter and the stack pointer. -/
def Arises (m : Machine) : Condition → Prop
  | .unrecognized word =>
    word = m.fetch.value ∧ ∀ op : Opcode, ¬ HasForm op.form.toList m.fetch.value
  | .stackOverflow => HasForm Opcode.call.form.toList m.fetch.value ∧ m.stack.pointer = 16
  | .stackUnderflow => m.fetch.value = 0x00EE ∧ m.stack.pointer = 0

/-- What one tick makes of a machine. -/
inductive Transition (m : Machine) (keys : Keypad) : Machine → Prop
  | wait {register : Int} (waiting : m.awaiting = some register) (up : keys.lowest? = none) :
      Transition m keys (m.begin keys)
  | resume {register key : Fin 16} (waiting : m.awaiting = some (register.val : Int))
      (down : keys.lowest? = some key) :
      Transition m keys
        { (m.begin keys).setReg register (UInt8.ofNat key.val) with awaiting := none }
  | refuse {c : Condition} (running : m.awaiting = none) (arises : m.Arises c) :
      Transition m keys { m.ready keys with lastError := some c }
  | execute {op : Opcode} {n : Machine} {move : Move} (running : m.awaiting = none)
      (form : HasForm op.form.toList m.fetch.value)
      (done : (m.ready keys).execute ⟨m.fetch, op⟩ = .done n move) :
      Transition m keys { n with pc := moved n.pc move }

section Equations
variable {m : Machine} {keys : Keypad}

theorem tickWith_wait {register : Int} (waiting : m.awaiting = some register)
    (up : keys.lowest? = none) : m.tickWith keys = .ended (m.begin keys) [] := by
  simp [tickWith, begin, waiting, sampleKey, up]

theorem tickWith_resume {register key : Fin 16} (waiting : m.awaiting = some (register.val : Int))
    (down : keys.lowest? = some key) :
    m.tickWith keys =
      .ended { (m.begin keys).setReg register (UInt8.ofNat key.val) with awaiting := none }
        [.keyStored key register.val] := by
  have place : position? 16 .registerPosition (register.val : Int) = .ok register :=
    position?_of_lt (by omega)
  simp [tickWith, begin, waiting, sampleKey, down, place]

theorem tickWith_sample {register : Int} (waiting : m.awaiting = some register) :
    m.tickWith keys = (m.begin keys).sampleKey register := by
  simp [tickWith, begin, waiting]

theorem tickWith_run (running : m.awaiting = none) :
    m.tickWith keys = (m.ready keys).step := by
  simp [tickWith, ready, begin, running]

theorem tickWith_refuse {c : Condition} (running : m.awaiting = none)
    (arises : m.Arises c) : m.tickWith keys = (m.ready keys).report c := by
  have fetched : (m.ready keys).fetch = m.fetch := rfl
  rw [tickWith_run running]
  cases c with
  | unrecognized word =>
      obtain ⟨rfl, none⟩ := arises
      simp [step, current, fetched, (Instruction.decode?_eq_none_iff m.fetch).2 none]
  | stackOverflow =>
      have decoded := (Instruction.decode?_eq_some_iff m.fetch ⟨m.fetch, .call⟩).2 ⟨rfl, arises.1⟩
      have refused : (m.ready keys).execute ⟨m.fetch, .call⟩ =
          .refused (m.ready keys) .stackOverflow :=
        execute_call_of_full m.fetch arises.2
      simp [step, current, fetched, decoded, refused]
  | stackUnderflow =>
      have decoded := (Instruction.decode?_eq_some_iff m.fetch ⟨m.fetch, .returnFromCall⟩).2
        ⟨rfl, (hasForm_returnFromCall_iff m.fetch).2 arises.1⟩
      have refused : (m.ready keys).execute ⟨m.fetch, .returnFromCall⟩ =
          .refused (m.ready keys) .stackUnderflow :=
        execute_returnFromCall_of_empty m.fetch arises.2
      simp [step, current, fetched, decoded, refused]

theorem tickWith_execute {op : Opcode} {n : Machine} {move : Move} (running : m.awaiting = none)
    (form : HasForm op.form.toList m.fetch.value)
    (done : (m.ready keys).execute ⟨m.fetch, op⟩ = .done n move) :
    m.tickWith keys =
      .ended { n with pc := moved n.pc move } (instructionNotices ⟨m.fetch, op⟩) := by
  have fetched : (m.ready keys).fetch = m.fetch := rfl
  have decoded := (Instruction.decode?_eq_some_iff m.fetch ⟨m.fetch, op⟩).2 ⟨rfl, form⟩
  simp [tickWith_run running, step, current, fetched, decoded, done]

end Equations

theorem Safe.ready {m : Machine} (h : m.Safe) (keys : Keypad) :
    0 ≤ (m.ready keys).delay ∧ (m.ready keys).delay < 256 := by
  have bounds := h.delay
  rw [delay_ready]
  split <;> omega

/-- What a refused instruction reports arises from the word and the stack pointer. -/
theorem arises_of_refused {m : Machine} (hs : m.stack.Within) {op : Opcode} {c : Condition}
    {keys : Keypad} (form : HasForm op.form.toList m.fetch.value)
    (refused : (m.ready keys).execute ⟨m.fetch, op⟩ = .refused (m.ready keys) c) :
    m.Arises c := by
  rcases ((execute_refused_iff (m := m.ready keys) hs _ _ c).1 refused).2 with
    ⟨rfl, full, rfl⟩ | ⟨rfl, empty, rfl⟩
  · exact ⟨form, full⟩
  · exact ⟨(hasForm_returnFromCall_iff m.fetch).1 form, empty⟩

/-- Every tick of a safe machine comes to its end by one of the four transitions. -/
theorem transition {m : Machine} (h : m.Safe) (keys : Keypad) :
    ∃ n notices, m.tickWith keys = .ended n notices ∧ Transition m keys n := by
  cases waiting : m.awaiting with
  | some register =>
      obtain ⟨r, rfl⟩ : ∃ r : Fin 16, register = r.val :=
        have := h.awaiting register waiting
        ⟨⟨register.toNat, by omega⟩, (Int.toNat_of_nonneg this.1).symm⟩
      cases lowest : keys.lowest? with
      | none => exact ⟨_, _, tickWith_wait waiting lowest, .wait waiting lowest⟩
      | some key => exact ⟨_, _, tickWith_resume waiting lowest, .resume waiting lowest⟩
  | none =>
      cases decoded : Instruction.decode? m.fetch with
      | none =>
          have arises : m.Arises (.unrecognized m.fetch.value) :=
            ⟨rfl, (Instruction.decode?_eq_none_iff m.fetch).1 decoded⟩
          exact ⟨_, _, tickWith_refuse waiting arises, .refuse waiting arises⟩
      | some ins =>
          obtain ⟨w, op⟩ := ins
          obtain ⟨rfl, form⟩ := (Instruction.decode?_eq_some_iff _ _).1 decoded
          have outcome := execute_done_or_refused (m := m.ready keys) h.stack (h.ready keys)
            ⟨m.fetch, op⟩
          rcases outcome with ⟨n, move, done⟩ | ⟨c, refused⟩
          · exact ⟨_, _, tickWith_execute waiting form done, .execute waiting form done⟩
          · have arises := arises_of_refused h.stack form refused
            exact ⟨_, _, tickWith_refuse waiting arises, .refuse waiting arises⟩

end Chip8.Machine
