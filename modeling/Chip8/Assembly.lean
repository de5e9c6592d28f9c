import Chip8.Text.Hex
import Chip8.Instruction

/-!
# Assembly text

An instruction is written as a name and its operands, set apart by commas. The
two shifts work on one register and name no other. A word that is no
instruction is written as data.
-/

namespace Chip8

/-- What may stand behind the name of an instruction. -/
inductive Operand
  | register (r : Fin 16)
  | address (a : Fin 0x1000)
  | byte (b : UInt8)
  | nibble (n : Fin 16)
  | index
  | atIndex
  | delayTimer
  | soundTimer
  | key
  | glyph
  | digits
deriving DecidableEq

namespace Operand

/-- Numbers are hexadecimal, with all the digits of their width. -/
def text : Operand → String
  | register r => "V" ++ Text.Hex.text 1 r.val
  | address a => "0x" ++ Text.Hex.text 3 a.val
  | byte b => "0x" ++ Text.Hex.text 2 b.toNat
  | nibble n => "0x" ++ Text.Hex.text 1 n.val
  | index => "I"
  | atIndex => "[I]"
  | delayTimer => "DT"
  | soundTimer => "ST"
  | key => "K"
  | glyph => "F"
  | digits => "B"

end Operand

namespace Instruction

/-- The name that an instruction is written with. -/
def name (ins : Instruction) : String :=
  match ins.opcode with
  | .clearScreen => "CLS"
  | .returnFromCall => "RET"
  | .jump | .jumpOffset => "JP"
  | .call => "CALL"
  | .skipIfByte | .skipIfEqual => "SE"
  | .skipUnlessByte | .skipUnlessEqual => "SNE"
  | .setByte | .copy | .setIndex | .readDelay | .awaitKey | .setDelay | .setSound
  | .pointAtGlyph | .storeDigits | .storeRegisters | .loadRegisters => "LD"
  | .addByte | .add | .addToIndex => "ADD"
  | .or => "OR"
  | .and => "AND"
  | .xor => "XOR"
  | .subtract => "SUB"
  | .shiftRight => "SHR"
  | .subtractFrom => "SUBN"
  | .shiftLeft => "SHL"
  | .random => "RND"
  | .draw => "DRW"
  | .skipIfPressed => "SKP"
  | .skipUnlessPressed => "SKNP"

/-- The operands of an instruction, in the order in which they are written. -/
def operands (ins : Instruction) : List Operand :=
  match ins.opcode with
  | .clearScreen | .returnFromCall => []
  | .jump | .call => [.address ins.nnn]
  | .skipIfByte | .skipUnlessByte | .setByte | .addByte | .random =>
    [.register ins.x, .byte ins.kk]
  | .skipIfEqual | .skipUnlessEqual | .copy | .or | .and | .xor | .add | .subtract
  | .subtractFrom => [.register ins.x, .register ins.y]
  | .shiftRight | .shiftLeft | .skipIfPressed | .skipUnlessPressed => [.register ins.x]
  | .setIndex => [.index, .address ins.nnn]
  | .jumpOffset => [.register Instruction.offset, .address ins.nnn]
  | .draw => [.register ins.x, .register ins.y, .nibble ins.n]
  | .readDelay => [.register ins.x, .delayTimer]
  | .awaitKey => [.register ins.x, .key]
  | .setDelay => [.delayTimer, .register ins.x]
  | .setSound => [.soundTimer, .register ins.x]
  | .addToIndex => [.index, .register ins.x]
  | .pointAtGlyph => [.glyph, .register ins.x]
  | .storeDigits => [.digits, .register ins.x]
  | .storeRegisters => [.atIndex, .register ins.x]
  | .loadRegisters => [.register ins.x, .atIndex]

/-- The name, then the operands if there are any. -/
def text (ins : Instruction) : String :=
  match ins.operands with
  | [] => ins.name
  | ops => ins.name ++ " " ++ String.intercalate ", " (ops.map Operand.text)

end Instruction

/-- The text of any integer taken as an instruction word. The low sixteen bits
decide which instruction it is; as data it is written in full. -/
def wordText (i : Int) : String :=
  match Instruction.decode? (Word.ofInt i) with
  | some ins => ins.text
  | none => ".word 0x" ++ Text.Hex.text 4 i ++ "   ; unknown opcode"

end Chip8
