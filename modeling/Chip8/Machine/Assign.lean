import Chip8.Machine.State

/-!
# States put together by hand

A state can be assembled by assignments to its parts, for instance to inspect
how an instruction acts on it. Registers take bytes only; the index keeps twelve
bits; nothing else is checked.
-/

namespace Chip8.Machine

/-- An assignment to one part of the state. -/
inductive Assignment
  | register (position value : Int)
  | index (i : Int)
  | pc (i : Int)
  | stackPointer (i : Int)
  | delay (i : Int)
  | sound (i : Int)
  | awaiting (register : Option Int)
  | slot (position value : Int)
  | pixels (b : UInt8)

/-- The position and the byte of an assignment to a register. An enormous position
is noticed before a wrong value, a wrong value before a position out of range. -/
def registerTarget (position value : Int) : Except Fault (Fin 16 × UInt8) :=
  match position? 16 .registerPosition position with
  | .error .positionSize => .error .positionSize
  | place => do
    let b ← byte? value
    let r ← place
    pure (r, b)

/-- The state after one assignment. -/
def assign (m : Machine) : Assignment → Except Fault Machine
  | .register position value => do
    let (r, b) ← registerTarget position value
    pure (m.setReg r b)
  | .index i => pure { m with index := Address.ofInt i }
  | .pc i => pure { m with pc := i }
  | .stackPointer i => pure { m with stack := { m.stack with pointer := i } }
  | .delay i => pure { m with delay := i }
  | .sound i => pure { m with sound := i }
  | .awaiting register => pure { m with awaiting := register }
  | .slot position value => do
    let stack ← m.stack.write position value
    pure { m with stack := stack }
  | .pixels b => pure { m with screen := Grid.fill b }

/-- The state after assignments in order, up to the first that fails. -/
def assignAll (m : Machine) : List Assignment → Machine × Option Fault
  | [] => (m, none)
  | a :: rest =>
    match m.assign a with
    | .ok n => assignAll n rest
    | .error f => (m, some f)

/-- The state with bytes written to memory, whatever stands there; what does not fit is
dropped. -/
def poke (m : Machine) (start : Nat) (bytes : List UInt8) : Machine :=
  if inside : start ≤ Memory.size then
    { m with
      memory := m.memory.write start (bytes.take (Memory.size - start))
        (Memory.room_take (Nat.le_of_eq (Nat.add_sub_of_le inside))) }
  else m

/-- The state with a word written at the program counter. -/
def placeWord (m : Machine) (w : Word) : Machine :=
  { m with
    memory := (m.memory.set (Address.ofInt m.pc) w.highByte).set (Address.ofInt (m.pc + 1)) w.kk }

end Chip8.Machine
