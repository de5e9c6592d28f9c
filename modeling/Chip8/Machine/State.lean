import Chip8.Memory
import Chip8.Word
import Chip8.Screen
import Chip8.Keypad
import Chip8.Generator
import Chip8.CallStack

/-!
# The state of the machine

Memory, registers and picture have fixed sizes. The program counter, the call
stack, the timers and the awaited register are plain integers, so that a state
put together by hand can leave the bounds that every run from a fresh machine
keeps.
-/

namespace Chip8

/-- Everything that a machine remembers. -/
structure Machine where
  memory : Memory
  registers : Vector UInt8 16
  index : Address
  pc : Int
  stack : CallStack
  delay : Int
  sound : Int
  screen : Screen
  changed : Bool
  keypad : Keypad
  awaiting : Option Int
  lastError : Option Condition
  generator : Generator

namespace Machine

/-- The number of registers. -/
def registerCount : Nat := 16

/-- The register that holds carries, borrows and collisions. -/
def flag : Fin 16 := Fin.last 15

/-- A fresh machine. -/
def initial (g : Generator) : Machine where
  memory := Memory.initial
  registers := Vector.replicate 16 0
  index := ⟨0, by decide⟩
  pc := Memory.programStart
  stack := CallStack.empty
  delay := 0
  sound := 0
  screen := Screen.blank
  changed := false
  keypad := Keypad.none
  awaiting := none
  lastError := none
  generator := g

/-- A fresh machine that goes on with the same random bytes. -/
def reset (m : Machine) : Machine := initial m.generator

/-- The value of a register. -/
def reg (m : Machine) (r : Fin 16) : UInt8 := m.registers[r]

/-- The machine with one register changed. -/
def setReg (m : Machine) (r : Fin 16) (b : UInt8) : Machine :=
  { m with registers := m.registers.set r b }

theorem reg_setReg (m : Machine) (r r' : Fin 16) (b : UInt8) :
    (m.setReg r b).reg r' = if r = r' then b else m.reg r' := by
  obtain ⟨r, hr⟩ := r
  obtain ⟨r', hr'⟩ := r'
  simp only [reg, setReg, Fin.getElem_fin, Vector.getElem_set, Fin.mk.injEq]

/-- The word at the program counter, which wraps at the end of memory. -/
def fetch (m : Machine) : Word :=
  Word.ofBytes (m.memory.get (Address.ofInt m.pc)) (m.memory.get (Address.ofInt (m.pc + 1)))

/-- Whether the tone is on. -/
def beeping (m : Machine) : Bool := m.sound != 0

/-- What is worth a line in the log. -/
inductive Notice
  | truncated (bytes : Nat)
  | loaded (bytes : Nat)
  | waiting (register : Fin 16)
  | keyStored (key : Fin 16) (register : Int)
  | failed (pc : Int) (c : Condition)
deriving DecidableEq

/-- The machine with a program copied to its place; what does not fit is dropped. -/
def load (m : Machine) (program : List UInt8) : Machine :=
  { m with
    memory := m.memory.write Memory.programStart (program.take Memory.capacity)
      (Memory.room_take (by decide)) }

/-- What is reported about a load. -/
def loadNotices (program : List UInt8) : List Notice :=
  (if Memory.capacity < program.length then [.truncated program.length] else []) ++
    [.loaded (program.take Memory.capacity).length]

end Machine

end Chip8
