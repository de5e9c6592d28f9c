import Chip8.Pattern

/-!
# The instruction set

The thirty-four instructions and the form of the words that encode each. The
table pairs every instruction with its pattern, in the order in which words are
looked up.
-/

namespace Chip8

/-- The instructions, named for what they do. -/
inductive Opcode
  | clearScreen
  | returnFromCall
  | jump
  | call
  | skipIfByte
  | skipUnlessByte
  | skipIfEqual
  | setByte
  | addByte
  | copy
  | or
  | and
  | xor
  | add
  | subtract
  | shiftRight
  | subtractFrom
  | shiftLeft
  | skipUnlessEqual
  | setIndex
  | jumpOffset
  | random
  | draw
  | skipIfPressed
  | skipUnlessPressed
  | readDelay
  | awaitKey
  | setDelay
  | setSound
  | addToIndex
  | pointAtGlyph
  | storeDigits
  | storeRegisters
  | loadRegisters
deriving DecidableEq

namespace Opcode

/-- The form of the words of an instruction: fixed digits in upper case, operands
in lower case. -/
def form : Opcode → String
  | clearScreen => "00E0"
  | returnFromCall => "00EE"
  | jump => "1nnn"
  | call => "2nnn"
  | skipIfByte => "3xkk"
  | skipUnlessByte => "4xkk"
  | skipIfEqual => "5xy0"
  | setByte => "6xkk"
  | addByte => "7xkk"
  | copy => "8xy0"
  | or => "8xy1"
  | and => "8xy2"
  | xor => "8xy3"
  | add => "8xy4"
  | subtract => "8xy5"
  | shiftRight => "8xy6"
  | subtractFrom => "8xy7"
  | shiftLeft => "8xyE"
  | skipUnlessEqual => "9xy0"
  | setIndex => "Annn"
  | jumpOffset => "Bnnn"
  | random => "Cxkk"
  | draw => "Dxyn"
  | skipIfPressed => "Ex9E"
  | skipUnlessPressed => "ExA1"
  | readDelay => "Fx07"
  | awaitKey => "Fx0A"
  | setDelay => "Fx15"
  | setSound => "Fx18"
  | addToIndex => "Fx1E"
  | pointAtGlyph => "Fx29"
  | storeDigits => "Fx33"
  | storeRegisters => "Fx55"
  | loadRegisters => "Fx65"

/-- All instructions, in the order of their forms. -/
def all : List Opcode :=
  [clearScreen, returnFromCall, jump, call, skipIfByte, skipUnlessByte, skipIfEqual, setByte,
    addByte, copy, or, and, xor, add, subtract, shiftRight, subtractFrom, shiftLeft,
    skipUnlessEqual, setIndex, jumpOffset, random, draw, skipIfPressed, skipUnlessPressed,
    readDelay, awaitKey, setDelay, setSound, addToIndex, pointAtGlyph, storeDigits,
    storeRegisters, loadRegisters]

theorem mem_all (op : Opcode) : op ∈ all := by
  cases op <;> decide

/-- The pattern of the words of an instruction. -/
def pattern (op : Opcode) : Pattern := Pattern.ofForm op.form

/-- Every instruction with its pattern. -/
def table : List (Pattern × Opcode) := all.map fun op => (op.pattern, op)

/-- The first row of a table whose pattern accepts an integer. -/
def search (rows : List (Pattern × Opcode)) (i : Int) : Option Opcode :=
  (rows.find? fun row => row.1.accepts i).map Prod.snd

/-- The instruction that an integer of any size encodes in its low sixteen bits. -/
def lookup (i : Int) : Option Opcode := search table i

end Opcode

end Chip8
