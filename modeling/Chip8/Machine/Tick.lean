import Chip8.Machine.Execute
import Chip8.Log

/-!
# Ticks

A tick is the only step of the machine. It takes a snapshot of the keypad. While
a key is awaited it does nothing but look for one; otherwise it counts the delay
timer down and executes one instruction. What a program does wrong is reported
and leaves everything else as it was.
-/

namespace Chip8.Machine

/-- What a tick hands out. -/
structure Output where
  screen : Screen
  changed : Bool
  beep : Bool
  error : Option Condition

/-- What comes of a tick. -/
structure Tick where
  machine : Machine
  output : Except Fault Output
  notices : List Notice

/-- What the machine shows. -/
def output (m : Machine) : Output where
  screen := m.screen
  changed := m.changed
  beep := m.beeping
  error := m.lastError

/-- A tick that came to its end. -/
def Tick.ended (m : Machine) (notices : List Notice) : Tick := ⟨m, .ok m.output, notices⟩

/-- A tick that a fault broke off. -/
def Tick.broken (m : Machine) (f : Fault) : Tick := ⟨m, .error f, []⟩

/-- The instruction at the program counter. -/
def current (m : Machine) : Except Condition Instruction := Instruction.decode m.fetch.value

/-- The machine at the start of a tick. -/
def begin (m : Machine) (keys : Keypad) : Machine :=
  { m with keypad := keys, changed := false, lastError := none }

/-- The delay timer counted down, but not below zero. -/
def countDown (m : Machine) : Machine :=
  { m with delay := if 0 < m.delay then m.delay - 1 else m.delay }

/-- The lowest key that is down ends the wait and goes to the awaited register. -/
def sampleKey (m : Machine) (register : Int) : Tick :=
  match m.keypad.lowest? with
  | none => .ended m []
  | some key =>
    match position? 16 .registerPosition register with
    | .ok r =>
      .ended { m.setReg r (UInt8.ofNat key.val) with awaiting := none }
        [.keyStored key register]
    | .error f => .broken m f

/-- A tick that reports a condition. -/
def report (m : Machine) (c : Condition) : Tick :=
  .ended { m with lastError := some c } [.failed m.pc c]

/-- What an instruction has to say. -/
def instructionNotices (ins : Instruction) : List Notice :=
  if ins.opcode = .awaitKey then [.waiting ins.x] else []

/-- The instruction at the program counter. -/
def step (m : Machine) : Tick :=
  match m.current with
  | .error c => m.report c
  | .ok ins =>
    match m.execute ins with
    | .done n move => .ended { n with pc := moved n.pc move } (instructionNotices ins)
    | .refused n c => n.report c
    | .fault n f => .broken n f

/-- One tick with a snapshot of the right size. -/
def tickWith (m : Machine) (keys : Keypad) : Tick :=
  let m := m.begin keys
  match m.awaiting with
  | some register => m.sampleKey register
  | none => m.countDown.step

/-- One tick. A snapshot of another size is a fault, and nothing happens. -/
def tick (m : Machine) (keys : List Bool) : Tick :=
  match Keypad.ofList? keys with
  | some keypad => m.tickWith keypad
  | none => .broken m (.keypadSize keys.length)

/-- The line that a notice is worth. -/
def Notice.line : Notice → Log.Line
  | truncated bytes =>
    ⟨.debug, .machine, "Program truncated from " ++ toString bytes ++ " to " ++
      toString Memory.capacity ++ " bytes."⟩
  | loaded bytes =>
    ⟨.debug, .machine, "Loaded " ++ toString bytes ++ " bytes at 0x" ++
      Text.Hex.text 3 Memory.programStart ++ "."⟩
  | waiting register =>
    ⟨.debug, .machine, "Waiting for a key press into V" ++ Text.Hex.text 1 register.val ++ "."⟩
  | keyStored key register =>
    ⟨.debug, .machine, "Key " ++ Text.Hex.text 1 key.val ++ " stored in V" ++
      Text.Hex.text 1 register ++ ", resuming."⟩
  | failed pc c =>
    ⟨.warning, .machine, "PC $" ++ Text.Hex.text 3 pc ++ ": " ++ c.message⟩

end Chip8.Machine
