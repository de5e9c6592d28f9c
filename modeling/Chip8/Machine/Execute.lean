import Chip8.Machine.State
import Chip8.Instruction

/-!
# Executing an instruction

An instruction either is carried out and says how the program counter moves, or
is refused with a condition. The flag register is written last, so it holds the
flag even if it is the destination.
-/

namespace Chip8.Machine

/-- How the program counter moves. -/
inductive Move
  | next
  | skip
  | jump (address : Int)
deriving DecidableEq

/-- What comes of an instruction, with the machine that it leaves. -/
inductive Execution
  | done (m : Machine) (move : Move)
  | refused (m : Machine) (c : Condition)
  | fault (m : Machine) (f : Fault)

/-- Skips the next instruction under a condition. -/
def skipIf (condition : Bool) : Move := if condition then .skip else .next

/-- A result and then the flag. -/
def setWithFlag (m : Machine) (r : Fin 16) (result : UInt8) (up : Bool) : Machine :=
  (m.setReg r result).setReg flag (if up then 1 else 0)

/-- The registers from the first to the given one. -/
def upTo (r : Fin 16) : List (Fin 16) := (List.finRange 16).take (r.val + 1)

/-- The key that a register names by its low nibble. -/
def keyOf (b : UInt8) : Fin 16 := ⟨b.toNat % 16, by omega⟩

/-- The decimal digits of a byte in three places. -/
def decimalDigits (b : UInt8) : List UInt8 := [b / 100, b / 10 % 10, b % 10]

/-- Some bytes stored from the index on, wrapping at the end of memory. -/
def store (m : Machine) (bytes : List UInt8) : Machine :=
  { m with
    memory := (bytes.zipIdx).foldl (fun memory b => memory.set (m.index.offset b.2) b.1) m.memory }

/-- The registers up to the given one, taken from the index on. -/
def restore (m : Machine) (r : Fin 16) : Machine :=
  (upTo r).foldl (fun n i => n.setReg i (m.memory.get (m.index.offset i.val))) m

/-- The picture with a sprite drawn; the flag tells of a collision. -/
def drawSprite (m : Machine) (x y n : Fin 16) : Machine :=
  let drawing :=
    m.screen.draw (m.reg x).toNat (m.reg y).toNat (m.memory.read m.index n.val)
  { m.setReg flag drawing.collision with screen := drawing.screen, changed := true }

/-- One instruction. -/
def execute (m : Machine) (ins : Instruction) : Execution :=
  let x := ins.x
  let vx := m.reg ins.x
  let vy := m.reg ins.y
  match ins.opcode with
  | .clearScreen => .done { m with screen := Screen.blank, changed := true } .next
  | .returnFromCall =>
    match m.stack.pop with
    | .done stack address => .done { m with stack := stack } (.jump address)
    | .refused stack => .refused { m with stack := stack } .stackUnderflow
    | .fault stack f => .fault { m with stack := stack } f
  | .jump => .done m (.jump ins.nnn)
  | .call =>
    match m.stack.push ((m.pc + Instruction.size) % Memory.size) with
    | .done stack () => .done { m with stack := stack } (.jump ins.nnn)
    | .refused stack => .refused { m with stack := stack } .stackOverflow
    | .fault stack f => .fault { m with stack := stack } f
  | .skipIfByte => .done m (skipIf (vx == ins.kk))
  | .skipUnlessByte => .done m (skipIf (vx != ins.kk))
  | .skipIfEqual => .done m (skipIf (vx == vy))
  | .setByte => .done (m.setReg x ins.kk) .next
  | .addByte => .done (m.setReg x (vx + ins.kk)) .next
  | .copy => .done (m.setReg x vy) .next
  | .or => .done (m.setReg x (vx ||| vy)) .next
  | .and => .done (m.setReg x (vx &&& vy)) .next
  | .xor => .done (m.setReg x (vx ^^^ vy)) .next
  | .add => .done (m.setWithFlag x (vx + vy) (decide (0xFF < vx.toNat + vy.toNat))) .next
  | .subtract => .done (m.setWithFlag x (vx - vy) (decide (vy ≤ vx))) .next
  | .shiftRight => .done (m.setWithFlag x (vx >>> 1) (vx &&& 0x01 != 0)) .next
  | .subtractFrom => .done (m.setWithFlag x (vy - vx) (decide (vx ≤ vy))) .next
  | .shiftLeft => .done (m.setWithFlag x (vx <<< 1) (vx &&& 0x80 != 0)) .next
  | .skipUnlessEqual => .done m (skipIf (vx != vy))
  | .setIndex => .done { m with index := Address.ofFin ins.nnn } .next
  | .jumpOffset =>
    .done m (.jump (Address.ofInt (ins.nnn.val + (m.reg Instruction.offset).toNat : Nat)).value)
  | .random =>
    let (byte, generator) := m.generator.next
    .done ({ m with generator := generator }.setReg x (byte &&& ins.kk)) .next
  | .draw => .done (m.drawSprite ins.x ins.y ins.n) .next
  | .skipIfPressed => .done m (skipIf (m.keypad.isDown (keyOf vx)))
  | .skipUnlessPressed => .done m (skipIf (!m.keypad.isDown (keyOf vx)))
  | .readDelay =>
    match byte? m.delay with
    | .ok b => .done (m.setReg x b) .next
    | .error f => .fault m f
  | .awaitKey => .done { m with awaiting := some x.val } .next
  | .setDelay => .done { m with delay := vx.toNat } .next
  | .setSound => .done { m with sound := vx.toNat } .next
  | .addToIndex =>
    let (index, carry) := m.index.overflowingAdd vx.toNat
    .done ({ m with index := index }.setReg flag (if carry then 1 else 0)) .next
  | .pointAtGlyph =>
    .done { m with
      index := Address.ofInt (Memory.fontStart + (keyOf vx).val * Memory.glyphSize : Nat) } .next
  | .storeDigits => .done (m.store (decimalDigits vx)) .next
  | .storeRegisters => .done (m.store ((upTo x).map m.reg)) .next
  | .loadRegisters => .done (m.restore x) .next

/-- The program counter after a move. -/
def moved (pc : Int) : Move → Int
  | .next => (pc + Instruction.size) % Memory.size
  | .skip => (pc + 2 * Instruction.size) % Memory.size
  | .jump address => address

end Chip8.Machine
