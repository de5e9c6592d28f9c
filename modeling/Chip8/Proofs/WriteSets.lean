import Chip8.Proofs.Inputs
import Chip8.Proofs.Stores

/-!
# The write set of a tick

An instruction sets its first operand, the flag, both of them, the registers up to its first
operand, or none. A tick changes a register only if its instruction sets it or a key was awaited
for it. Index, stack, tone, picture and awaited register change only where the instruction writes
them or a key ends the wait, and a byte is taken for every random instruction and for no other.
-/

namespace Chip8

/-- The registers that an instruction with the operands of a word may set. -/
def Opcode.Sets (w : Word) (j : Fin 16) : Opcode → Prop
  | setByte | addByte | copy | or | and | xor | random | readDelay => j = w.x
  | add | subtract | shiftRight | subtractFrom | shiftLeft => j = w.x ∨ j = Machine.flag
  | draw | addToIndex => j = Machine.flag
  | loadRegisters => j ≤ w.x
  | clearScreen | returnFromCall | jump | call | skipIfByte | skipUnlessByte | skipIfEqual
  | skipUnlessEqual | setIndex | jumpOffset | skipIfPressed | skipUnlessPressed | awaitKey
  | setDelay | setSound | pointAtGlyph | storeDigits | storeRegisters => False

theorem Opcode.index_mem_writes_iff (op : Opcode) :
    .index ∈ op.writes ↔ op = .setIndex ∨ op = .addToIndex ∨ op = .pointAtGlyph := by
  cases op <;> decide

namespace Machine

/-- What registers hold after some of them were set to values of their own. -/
theorem reg_foldl_setReg (m : Machine) (f : Fin 16 → UInt8) (rs : List (Fin 16)) (j : Fin 16) :
    (rs.foldl (fun n i => n.setReg i (f i)) m).reg j =
      if rs.contains j then f j else m.reg j := by
  induction rs generalizing m with
  | nil => simp
  | cons r rs ih =>
      rw [List.foldl_cons, ih, reg_setReg]
      by_cases later : j ∈ rs
      · simp [later]
      · by_cases here : r = j
        · simp [here]
        · simp [later, here, Ne.symm here]

theorem mem_upTo_iff (x j : Fin 16) : j ∈ upTo x ↔ j ≤ x := by
  constructor
  · intro inside
    obtain ⟨i, bound, rfl⟩ := List.mem_take_iff_getElem.1 inside
    have bound : i < x.val + 1 := (Nat.lt_min.1 bound).1
    simpa [Fin.le_def] using Nat.le_of_lt_succ bound
  · intro h
    exact List.mem_of_getElem? (getElem?_upTo x h)

theorem reg_restore (m : Machine) (x j : Fin 16) :
    (m.restore x).reg j = if j ≤ x then m.memory.get (m.index.offset j.val) else m.reg j := by
  rw [restore, reg_foldl_setReg m fun i => m.memory.get (m.index.offset i.val)]
  simp only [List.contains_iff_mem, mem_upTo_iff]

theorem reg_setWithFlag (m : Machine) (x j : Fin 16) (b : UInt8) (up : Bool)
    (other : ¬ (j = x ∨ j = flag)) : (m.setWithFlag x b up).reg j = m.reg j := by
  obtain ⟨notX, notFlag⟩ := not_or.1 other
  rw [setWithFlag, reg_setReg, if_neg (Ne.symm notFlag), reg_setReg, if_neg (Ne.symm notX)]

/-- An instruction leaves the registers alone that it does not set. -/
theorem reg_of_execute {m n : Machine} {w : Word} {op : Opcode} {move : Move}
    (done : m.execute ⟨w, op⟩ = .done n move) {j : Fin 16} (outside : ¬ op.Sets w j) :
    n.reg j = m.reg j := by
  by_cases writes : .registers ∈ op.writes
  · cases op
    case setByte | addByte | copy | or | and | xor =>
      cases done
      exact (reg_setReg _ _ _ _).trans (if_neg (Ne.symm outside))
    case random =>
      rw [execute_random] at done
      cases done
      exact (reg_setReg _ _ _ _).trans (if_neg (Ne.symm outside))
    case readDelay =>
      simp only [execute] at done
      split at done
      · cases done
        exact (reg_setReg _ _ _ _).trans (if_neg (Ne.symm outside))
      · cases done
    case add | subtract | shiftRight | subtractFrom | shiftLeft =>
      cases done
      exact reg_setWithFlag _ _ _ _ _ outside
    case draw | addToIndex =>
      cases done
      exact (reg_setReg _ _ _ _).trans (if_neg (Ne.symm outside))
    case loadRegisters =>
      cases done
      exact (reg_restore _ _ _).trans (if_neg outside)
    all_goals exact absurd writes (by decide)
  · have same : n.registers = m.registers := execute_frame done .registers writes
    rw [reg, same]
    rfl

/-- A part that an instruction changes is one that it writes. -/
theorem mem_writes_of_changed {m n : Machine} {ins : Instruction} {move : Move}
    (done : m.execute ins = .done n move) (part : Part) (changed : ¬ m.SameAt n part) :
    part ∈ ins.opcode.writes :=
  not_imp_comm.1 (execute_frame done part) changed

/-- What a tick may change, and the byte that it may take. -/
structure WriteStep (m : Machine) (keys : Keypad) (n : Machine) : Prop where
  register : ∀ j, n.reg j ≠ m.reg j →
    m.awaiting = some (j.val : Int) ∨ ∃ op, m.Executes keys op ∧ op.Sets m.fetch j
  index : n.index ≠ m.index →
    m.Executes keys .setIndex ∨ m.Executes keys .addToIndex ∨ m.Executes keys .pointAtGlyph
  slot : n.stack.slots ≠ m.stack.slots → m.Executes keys .call
  pointer : n.stack.pointer ≠ m.stack.pointer →
    m.Executes keys .call ∨ m.Executes keys .returnFromCall
  sound : n.sound ≠ m.sound → m.Executes keys .setSound
  screen : n.screen ≠ m.screen → m.Executes keys .clearScreen ∨ m.Executes keys .draw
  awaiting : n.awaiting ≠ m.awaiting → m.Executes keys .awaitKey ∨
    m.awaiting ≠ none ∧ n.awaiting = none ∧ ∃ key, keys.isDown key = true
  oneByte : m.Executes keys .random →
    n.generator = { m.generator with position := m.generator.position + 1 }
  noByte : ¬ m.Executes keys .random → n.generator = m.generator

/-- A tick that carries an instruction out changes what that instruction may write. -/
theorem WriteStep.of_execute {m n : Machine} {keys : Keypad} {op : Opcode} {move : Move}
    (hs : m.stack.Within) (only : ∀ other, m.Executes keys other ↔ other = op)
    (done : (m.ready keys).execute ⟨m.fetch, op⟩ = .done n move) :
    WriteStep m keys { n with pc := moved n.pc move } := by
  have executes : m.Executes keys op := (only op).2 rfl
  constructor
  case register =>
    intro j changed
    exact .inr ⟨op, executes, not_imp_comm.1 (reg_of_execute done) changed⟩
  case index =>
    intro changed
    have writes := mem_writes_of_changed done .index changed
    rcases op.index_mem_writes_iff.1 writes with rfl | rfl | rfl
    · exact .inl executes
    · exact .inr (.inl executes)
    · exact .inr (.inr executes)
  case slot =>
    intro changed
    rcases execute_stack (m := m.ready keys) hs done with
      ⟨rfl, -⟩ | ⟨-, -, popped, -⟩ | ⟨-, -, same⟩
    · exact executes
    · exact absurd (congrArg CallStack.slots popped) changed
    · exact absurd (congrArg CallStack.slots same) changed
  case pointer =>
    intro changed
    have writes := mem_writes_of_changed done .stack fun same =>
      changed (congrArg CallStack.pointer same)
    rcases op.stack_mem_writes_iff.1 writes with rfl | rfl
    · exact .inl executes
    · exact .inr executes
  case sound =>
    intro changed
    have writes := mem_writes_of_changed done .sound changed
    obtain rfl := op.sound_mem_writes_iff.1 writes
    exact executes
  case screen =>
    intro changed
    have writes := mem_writes_of_changed done .screen fun same => changed same.1
    rcases op.screen_mem_writes_iff.1 writes with rfl | rfl
    · exact .inl executes
    · exact .inr executes
  case awaiting =>
    intro changed
    have writes := mem_writes_of_changed done .awaiting changed
    obtain rfl := op.awaiting_mem_writes_iff.1 writes
    exact .inl executes
  case oneByte =>
    intro random
    obtain rfl := (only _).1 random
    rw [execute_random] at done
    cases done
    rfl
  case noByte =>
    intro other
    exact execute_frame done .generator fun writes =>
      other ((only _).2 (op.generator_mem_writes_iff.1 writes).symm)

/-- A tick that carries nothing out may still end a wait. -/
theorem WriteStep.of_idle {m n : Machine} {keys : Keypad} (idle : ∀ op, ¬ m.Executes keys op)
    (same : n = { m with
      registers := n.registers, delay := n.delay, changed := n.changed, keypad := n.keypad,
      awaiting := n.awaiting, lastError := n.lastError })
    (register : ∀ j, n.reg j ≠ m.reg j → m.awaiting = some (j.val : Int))
    (awaiting : n.awaiting ≠ m.awaiting →
      m.awaiting ≠ none ∧ n.awaiting = none ∧ ∃ key, keys.isDown key = true) :
    WriteStep m keys n where
  register j changed := .inl (register j changed)
  index changed := absurd (congrArg Machine.index same) changed
  slot changed := absurd (congrArg (·.stack.slots) same) changed
  pointer changed := absurd (congrArg (·.stack.pointer) same) changed
  sound changed := absurd (congrArg Machine.sound same) changed
  screen changed := absurd (congrArg Machine.screen same) changed
  awaiting changed := .inr (awaiting changed)
  oneByte random := absurd random (idle _)
  noByte _ := by rw [same]

theorem writeStep_tickWith {m : Machine} (h : m.Safe) (keys : Keypad) :
    WriteStep m keys (m.tickWith keys).machine := by
  rcases executes_or_idles h keys with ⟨op, n, move, only, done, machine⟩ | ⟨idle, -⟩
  · rw [machine]
    exact WriteStep.of_execute h.stack only done
  · obtain ⟨n, notices, ended, t⟩ := transition h keys
    rw [ended]
    cases t with
    | wait waiting up =>
        exact WriteStep.of_idle idle rfl (fun j changed => absurd rfl changed)
          (fun changed => absurd rfl changed)
    | @resume register key waiting down =>
        refine WriteStep.of_idle idle rfl ?_ ?_
        · intro j changed
          have set : register = j := by
            by_contra other
            exact changed ((reg_setReg (m.begin keys) register j _).trans (if_neg other))
          rw [← set]
          exact waiting
        · intro _
          exact ⟨by simp [waiting], rfl, key, ((keys.lowest?_eq_some_iff key).1 down).1⟩
    | refuse running arises =>
        exact WriteStep.of_idle idle rfl (fun j changed => absurd rfl changed)
          (fun changed => absurd rfl changed)
    | @execute op n move running form done =>
        have silent : n.lastError = none := (execute_control done).2.2
        exact absurd ((executes_iff ended op).2 ⟨running, form, silent⟩) (idle op)

/-- Every tick of a reachable machine stays inside the write set of its instruction. -/
theorem tick_stays_in_write_set {m : Machine} (h : Reachable m) (keys : Keypad) :
    WriteStep m keys (m.tick keys.toList).machine := by
  rw [tick_toList]
  exact writeStep_tickWith h.bounded.toSafe keys

/-- A sum with a carry, and then a random byte of which nothing is kept. -/
theorem tick_stays_in_write_set_of_carry_and_random :
    let k := Keypad.none
    let m := (loaded [0x60, 0xC8, 0x80, 0x04, 0xC1, 0x00]).follow [k]
    let n := m.follow [k]
    Reachable m ∧ m.Executes k .add ∧
      (∀ j, (m.tick k.toList).machine.reg j ≠ m.reg j → j = 0 ∨ j = flag) ∧
      (m.tick k.toList).machine.generator = m.generator ∧
      n.reg 0 = 144 ∧ n.reg flag = 1 ∧ n.Executes k .random ∧
      (n.tick k.toList).machine.generator.position = n.generator.position + 1 ∧
      (n.tick k.toList).machine.registers = n.registers := by
  intro k m n
  have reachable : Reachable m := (reachable_loaded _).follow [k]
  have reachable' : Reachable n := reachable.follow [k]
  have add : m.Executes k .add :=
    executes_of_lookup reachable.bounded.toSafe (by decide +kernel)
  have random : n.Executes k .random :=
    executes_of_lookup reachable'.bounded.toSafe (by decide +kernel)
  obtain ⟨operand, sum, carry, kept⟩ : m.fetch.x = 0 ∧ n.reg 0 = 144 ∧ n.reg flag = 1 ∧
      (n.tick k.toList).machine.registers = n.registers := by decide +kernel
  have first := tick_stays_in_write_set reachable k
  have second := tick_stays_in_write_set reachable' k
  have other : ¬ m.Executes k .random := fun random =>
    absurd (Opcode.eq_of_hasForm random.2.1 add.2.1) (by decide)
  refine ⟨reachable, add, ?_, first.noByte other, sum, carry, random, ?_, kept⟩
  · intro j changed
    rcases first.register j changed with waiting | ⟨op, executes, sets⟩
    · cases waiting.symm.trans add.1
    · obtain rfl := Opcode.eq_of_hasForm executes.2.1 add.2.1
      rw [← operand]
      exact sets
  · rw [second.oneByte random]

end Machine

end Chip8
