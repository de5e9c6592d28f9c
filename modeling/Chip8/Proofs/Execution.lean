import Chip8.Machine.Execute
import Chip8.Proofs.CallStack

/-!
# What an instruction may do

Every instruction writes a few parts of the machine and leaves the others as they
were. Only calls and returns can be refused, and then they write nothing. As long
as the stack pointer and the delay timer are in their bounds no instruction leads
to a fault.
-/

namespace Chip8

/-- The parts of a machine. The program counter, the keys and the last error are left
to the tick and count as one part. -/
inductive Part
  | control
  | memory
  | registers
  | index
  | stack
  | delay
  | sound
  | screen
  | awaiting
  | generator
deriving DecidableEq

/-- The parts that an instruction may write. -/
def Opcode.writes : Opcode → List Part
  | clearScreen => [.screen]
  | returnFromCall | call => [.stack]
  | jump | jumpOffset | skipIfByte | skipUnlessByte | skipIfEqual | skipUnlessEqual
  | skipIfPressed | skipUnlessPressed => []
  | setByte | addByte | copy | or | and | xor | add | subtract | shiftRight | subtractFrom
  | shiftLeft | readDelay | loadRegisters => [.registers]
  | setIndex | pointAtGlyph => [.index]
  | random => [.registers, .generator]
  | draw => [.registers, .screen]
  | awaitKey => [.awaiting]
  | setDelay => [.delay]
  | setSound => [.sound]
  | addToIndex => [.registers, .index]
  | storeDigits | storeRegisters => [.memory]

namespace Opcode

theorem memory_mem_writes_iff (op : Opcode) :
    .memory ∈ op.writes ↔ op = .storeDigits ∨ op = .storeRegisters := by
  cases op <;> decide

theorem stack_mem_writes_iff (op : Opcode) :
    .stack ∈ op.writes ↔ op = .call ∨ op = .returnFromCall := by
  cases op <;> decide

theorem delay_mem_writes_iff (op : Opcode) : .delay ∈ op.writes ↔ op = .setDelay := by
  cases op <;> decide

theorem sound_mem_writes_iff (op : Opcode) : .sound ∈ op.writes ↔ op = .setSound := by
  cases op <;> decide

theorem screen_mem_writes_iff (op : Opcode) :
    .screen ∈ op.writes ↔ op = .clearScreen ∨ op = .draw := by
  cases op <;> decide

theorem awaiting_mem_writes_iff (op : Opcode) : .awaiting ∈ op.writes ↔ op = .awaitKey := by
  cases op <;> decide

theorem generator_mem_writes_iff (op : Opcode) : .generator ∈ op.writes ↔ op = .random := by
  cases op <;> decide

end Opcode

namespace Machine

/-- A part of the second machine is as in the first. The picture goes with the mark
that it was drawn on. -/
def SameAt (m n : Machine) : Part → Prop
  | .control => n.pc = m.pc ∧ n.keypad = m.keypad ∧ n.lastError = m.lastError
  | .memory => n.memory = m.memory
  | .registers => n.registers = m.registers
  | .index => n.index = m.index
  | .stack => n.stack = m.stack
  | .delay => n.delay = m.delay
  | .sound => n.sound = m.sound
  | .screen => n.screen = m.screen ∧ n.changed = m.changed
  | .awaiting => n.awaiting = m.awaiting
  | .generator => n.generator = m.generator

/-- Registers set one after the other change nothing but registers. -/
theorem foldl_setReg (m : Machine) (f : Fin 16 → UInt8) (rs : List (Fin 16)) :
    rs.foldl (fun n i => n.setReg i (f i)) m =
      { m with registers := (rs.foldl (fun n i => n.setReg i (f i)) m).registers } := by
  induction rs generalizing m with
  | nil => rfl
  | cons r rs ih =>
      rw [List.foldl_cons, ih]
      rfl

theorem restore_eq (m : Machine) (r : Fin 16) :
    m.restore r = { m with registers := (m.restore r).registers } :=
  foldl_setReg m _ (upTo r)

section Equations
variable {m : Machine} (w : Word)

theorem execute_call (h : m.stack.Within) (room : m.stack.pointer < 16) :
    m.execute ⟨w, .call⟩ =
      .done { m with stack := m.stack.pushed ((m.pc + 2) % 4096) } (.jump w.nnn) := by
  simp [execute, CallStack.push_of_room h room, Instruction.nnn, Instruction.size, Memory.size]

theorem execute_call_of_full (h : m.stack.pointer = 16) :
    m.execute ⟨w, .call⟩ = .refused m .stackOverflow := by
  simp [execute, CallStack.push_of_full h]

theorem execute_returnFromCall (h : m.stack.Within) (entry : 0 < m.stack.pointer) :
    m.execute ⟨w, .returnFromCall⟩ =
      .done { m with stack := m.stack.popped } (.jump m.stack.top) := by
  simp [execute, CallStack.pop_of_entry h entry]

theorem execute_returnFromCall_of_empty (h : m.stack.pointer = 0) :
    m.execute ⟨w, .returnFromCall⟩ = .refused m .stackUnderflow := by
  simp [execute, CallStack.pop_of_empty h]

theorem execute_readDelay (h : 0 ≤ m.delay ∧ m.delay < 256) :
    m.execute ⟨w, .readDelay⟩ = .done (m.setReg w.x (UInt8.ofNat m.delay.toNat)) .next := by
  simp [execute, byte?, h, Instruction.x]

end Equations

/-- What an instruction does not write stays as it was. -/
theorem execute_frame {m n : Machine} {ins : Instruction} {move : Move}
    (h : m.execute ins = .done n move) (part : Part) (outside : part ∉ ins.opcode.writes) :
    m.SameAt n part := by
  obtain ⟨w, op⟩ := ins
  -- Every part is either untouched by the handler or listed for it.
  cases op
  case loadRegisters =>
    simp only [execute, Execution.done.injEq] at h
    rw [← h.1, restore_eq]
    cases part
    case registers => simp [Opcode.writes] at outside
    case control => exact ⟨rfl, rfl, rfl⟩
    case screen => exact ⟨rfl, rfl⟩
    all_goals rfl
  case returnFromCall | call | readDelay =>
    simp only [execute] at h
    split at h
    all_goals cases h
    all_goals cases part
    all_goals first
      | rfl
      | exact ⟨rfl, rfl⟩
      | exact ⟨rfl, rfl, rfl⟩
      | simp [Opcode.writes] at outside
  all_goals
    simp only [execute] at h
    cases h
    cases part
    all_goals first
      | rfl
      | exact ⟨rfl, rfl⟩
      | exact ⟨rfl, rfl, rfl⟩
      | simp [Opcode.writes] at outside

theorem execute_control {m n : Machine} {ins : Instruction} {move : Move}
    (h : m.execute ins = .done n move) :
    n.pc = m.pc ∧ n.keypad = m.keypad ∧ n.lastError = m.lastError := by
  refine execute_frame h .control ?_
  cases ins.opcode <;> decide

/-- Only calls and returns are refused, only for where the stack pointer stands, and before they
have changed anything. -/
theorem execute_refused_iff_pointer (m n : Machine) (ins : Instruction) (c : Condition) :
    m.execute ins = .refused n c ↔ n = m ∧
      (ins.opcode = .call ∧ 16 ≤ m.stack.pointer ∧ c = .stackOverflow ∨
        ins.opcode = .returnFromCall ∧ m.stack.pointer = 0 ∧ c = .stackUnderflow) := by
  obtain ⟨w, op⟩ := ins
  cases op
  case call =>
    simp only [execute, CallStack.push]
    by_cases full : 16 ≤ m.stack.pointer
    · rw [if_pos full]
      constructor
      · rintro ⟨⟩
        exact ⟨rfl, .inl ⟨trivial, full, rfl⟩⟩
      · rintro ⟨rfl, ⟨-, -, rfl⟩ | ⟨back, -⟩⟩
        · rfl
        · cases back
    · cases m.stack.write m.stack.pointer ((m.pc + Instruction.size) % Memory.size) <;>
        simp [full]
  case returnFromCall =>
    simp only [execute, CallStack.pop]
    by_cases empty : m.stack.pointer = 0
    · rw [if_pos empty]
      constructor
      · rintro ⟨⟩
        exact ⟨rfl, .inr ⟨trivial, empty, rfl⟩⟩
      · rintro ⟨rfl, ⟨call, -⟩ | ⟨-, -, rfl⟩⟩
        · cases call
        · rfl
    · cases position? 16 .stackRead (m.stack.pointer - 1) <;> simp [empty]
  case readDelay =>
    simp only [execute]
    split <;> simp
  all_goals simp [execute]

/-- A refused instruction leaves the machine as it was. -/
theorem eq_of_execute_refused {m n : Machine} {ins : Instruction} {c : Condition}
    (h : m.execute ins = .refused n c) : n = m :=
  ((execute_refused_iff_pointer m n ins c).1 h).1

/-- Only a call on a full stack and a return on an empty one are refused. -/
theorem execute_refused_iff {m : Machine} (h : m.stack.Within) (n : Machine) (ins : Instruction)
    (c : Condition) : m.execute ins = .refused n c ↔ n = m ∧
      (ins.opcode = .call ∧ m.stack.pointer = 16 ∧ c = .stackOverflow ∨
        ins.opcode = .returnFromCall ∧ m.stack.pointer = 0 ∧ c = .stackUnderflow) := by
  have full : 16 ≤ m.stack.pointer ↔ m.stack.pointer = 16 := by
    have := h.2
    omega
  rw [execute_refused_iff_pointer, full]

/-- Within the bounds of stack and timer an instruction is carried out or refused. -/
theorem execute_done_or_refused {m : Machine} (hs : m.stack.Within)
    (hd : 0 ≤ m.delay ∧ m.delay < 256) (ins : Instruction) :
    (∃ n move, m.execute ins = .done n move) ∨ ∃ c, m.execute ins = .refused m c := by
  obtain ⟨w, op⟩ := ins
  obtain ⟨low, high⟩ := hs
  cases op
  case call =>
    by_cases full : m.stack.pointer = 16
    · exact .inr ⟨_, execute_call_of_full w full⟩
    · exact .inl ⟨_, _, execute_call w ⟨low, high⟩ (by omega)⟩
  case returnFromCall =>
    by_cases empty : m.stack.pointer = 0
    · exact .inr ⟨_, execute_returnFromCall_of_empty w empty⟩
    · exact .inl ⟨_, _, execute_returnFromCall w ⟨low, high⟩ (by omega)⟩
  case readDelay => exact .inl ⟨_, _, execute_readDelay w hd⟩
  all_goals exact .inl ⟨_, _, rfl⟩

section Parts
variable {m n : Machine} {w : Word} {op : Opcode} {move : Move}

/-- Calls and returns are the only instructions that reach the stack. -/
theorem execute_stack (hs : m.stack.Within) (h : m.execute ⟨w, op⟩ = .done n move) :
    op = .call ∧ m.stack.pointer < 16 ∧
        n.stack = m.stack.pushed ((m.pc + 2) % 4096) ∧ move = .jump w.nnn ∨
      op = .returnFromCall ∧ 0 < m.stack.pointer ∧
        n.stack = m.stack.popped ∧ move = .jump m.stack.top ∨
      op ≠ .call ∧ op ≠ .returnFromCall ∧ n.stack = m.stack := by
  have bounds := hs
  obtain ⟨low, high⟩ := bounds
  by_cases writes : .stack ∈ op.writes
  · rcases op.stack_mem_writes_iff.1 writes with rfl | rfl
    · by_cases full : m.stack.pointer = 16
      · rw [execute_call_of_full w full] at h
        cases h
      · have room : m.stack.pointer < 16 := by omega
        rw [execute_call w hs room] at h
        cases h
        exact .inl ⟨rfl, room, rfl, rfl⟩
    · by_cases empty : m.stack.pointer = 0
      · rw [execute_returnFromCall_of_empty w empty] at h
        cases h
      · have entry : 0 < m.stack.pointer := by omega
        rw [execute_returnFromCall w hs entry] at h
        cases h
        exact .inr (.inl ⟨rfl, entry, rfl, rfl⟩)
  · have others := not_or.1 (mt op.stack_mem_writes_iff.2 writes)
    exact .inr (.inr ⟨others.1, others.2, execute_frame h _ writes⟩)

theorem execute_delay (h : m.execute ⟨w, op⟩ = .done n move) :
    n.delay = if op = .setDelay then ((m.reg w.x).toNat : Int) else m.delay := by
  by_cases writes : op = .setDelay
  · subst writes
    cases h
    rfl
  · rw [if_neg writes]
    exact execute_frame h .delay (mt op.delay_mem_writes_iff.1 writes)

theorem execute_sound (h : m.execute ⟨w, op⟩ = .done n move) :
    n.sound = if op = .setSound then ((m.reg w.x).toNat : Int) else m.sound := by
  by_cases writes : op = .setSound
  · subst writes
    cases h
    rfl
  · rw [if_neg writes]
    exact execute_frame h .sound (mt op.sound_mem_writes_iff.1 writes)

theorem execute_awaiting (h : m.execute ⟨w, op⟩ = .done n move) :
    n.awaiting = if op = .awaitKey then some (w.x.val : Int) else m.awaiting := by
  by_cases writes : op = .awaitKey
  · subst writes
    cases h
    rfl
  · rw [if_neg writes]
    exact execute_frame h .awaiting (mt op.awaiting_mem_writes_iff.1 writes)

/-- The picture is cleared, drawn on or left alone, and marked unless left alone. -/
theorem execute_screen (h : m.execute ⟨w, op⟩ = .done n move) :
    op = .clearScreen ∧ n.screen = Screen.blank ∧ n.changed = true ∨
      op = .draw ∧ n = m.drawSprite w.x w.y w.n ∨
      op ≠ .clearScreen ∧ op ≠ .draw ∧ n.screen = m.screen ∧ n.changed = m.changed := by
  by_cases writes : .screen ∈ op.writes
  · rcases op.screen_mem_writes_iff.1 writes with rfl | rfl
    · cases h
      exact .inl ⟨rfl, rfl, rfl⟩
    · cases h
      exact .inr (.inl ⟨rfl, rfl⟩)
  · have others := not_or.1 (mt op.screen_mem_writes_iff.2 writes)
    exact .inr (.inr ⟨others.1, others.2, execute_frame h _ writes⟩)

/-- A jump leads to a twelve-bit address, unless it is a return. -/
theorem execute_jump {address : Int} (h : m.execute ⟨w, op⟩ = .done n (.jump address)) :
    op = .returnFromCall ∨ ∃ a : Address, address = a.value := by
  have sequential : ∀ condition, skipIf condition ≠ .jump address := by
    intro condition
    cases condition <;> simp [skipIf]
  cases op
  case returnFromCall => exact .inl rfl
  case jump =>
    cases h
    exact .inr ⟨Address.ofFin w.nnn, rfl⟩
  case jumpOffset =>
    cases h
    exact .inr ⟨_, rfl⟩
  case call =>
    simp only [execute] at h
    split at h
    all_goals cases h
    exact .inr ⟨Address.ofFin w.nnn, rfl⟩
  case readDelay =>
    simp only [execute] at h
    split at h <;> cases h
  all_goals
    simp only [execute, Execution.done.injEq] at h
    first
      | exact absurd h.2 (sequential _)
      | cases h.2

end Parts

end Machine

end Chip8
