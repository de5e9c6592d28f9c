import Chip8.Word
import Chip8.Opcode
import Chip8.Machine.Condition

/-!
# Decoded instructions

Decoding looks at the low sixteen bits of an integer and nothing else. A word
that has none of the forms is not an instruction.
-/

namespace Chip8

/-- A word together with the instruction that it is taken for. -/
structure Instruction where
  word : Word
  opcode : Opcode
deriving DecidableEq

namespace Instruction

/-- The bytes that an instruction takes up. -/
def size : Nat := 2

/-- The register whose value a jump with offset adds to its address. -/
def offset : Fin 16 := ⟨0, by decide⟩

/-- The instruction of a word, if it has one of the forms. -/
def decode? (w : Word) : Option Instruction := (Opcode.lookup w.value).map (Instruction.mk w)

theorem word_of_decode? {w : Word} {ins : Instruction} (h : decode? w = some ins) :
    ins.word = w := by
  simp only [decode?, Option.map_eq_some_iff] at h
  obtain ⟨op, -, rfl⟩ := h
  rfl

theorem lookup_of_decode? {w : Word} {ins : Instruction} (h : decode? w = some ins) :
    Opcode.lookup w.value = some ins.opcode := by
  simp only [decode?, Option.map_eq_some_iff] at h
  obtain ⟨op, hop, rfl⟩ := h
  exact hop

/-- The instruction that an integer encodes in its low sixteen bits. A word that is none is
reported as it was looked up, without the other bits. -/
def decode (i : Int) : Except Condition Instruction :=
  match decode? (Word.ofInt i) with
  | some ins => .ok ins
  | none => .error (.unrecognized (Word.ofInt i).value)

@[simp] theorem decode_value (w : Word) :
    decode w.value =
      match decode? w with
      | some ins => .ok ins
      | none => .error (.unrecognized w.value) := by
  rw [decode, Word.ofInt_value]

/-- The first nibble of the word. -/
def kind (ins : Instruction) : Fin 16 := ins.word.kind

/-- The first register operand. -/
def x (ins : Instruction) : Fin 16 := ins.word.x

/-- The second register operand. -/
def y (ins : Instruction) : Fin 16 := ins.word.y

/-- The nibble operand. -/
def n (ins : Instruction) : Fin 16 := ins.word.n

/-- The byte operand. -/
def kk (ins : Instruction) : UInt8 := ins.word.kk

/-- The address operand. -/
def nnn (ins : Instruction) : Fin 0x1000 := ins.word.nnn

end Instruction

end Chip8
