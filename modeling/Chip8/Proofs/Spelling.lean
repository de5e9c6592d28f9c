import Chip8.Proofs.Decoding
import Chip8.Proofs.Numerals
import Mathlib.Data.List.Forall2

/-!
# Words spelled in digits

A form is read as a template for the four hexadecimal digits of a word: its operand
letters stand for any digit, every other character for itself. Decoding finds the one
form that the digits fit, and the operands written into that form spell the word.
-/

namespace Chip8

/-- The letters of a form that stand for operands. -/
def operandLetters : List Char := ['x', 'y', 'n', 'k']

/-- A character of a form allows a digit: a letter allows every digit, a digit itself. -/
def Allows (c digit : Char) : Prop := c ∈ operandLetters ∨ c = digit

/-- A text fits a form character by character. -/
def Fits (form text : List Char) : Prop := List.Forall₂ Allows form text

/-- The four digits of the low sixteen bits of an integer. -/
def lowDigits (i : Int) : List Char := Text.Hex.chars 4 (i % 0x10000)

namespace Word

/-- The digits of a word are its four nibbles. -/
theorem chars_value (w : Word) :
    Text.Hex.chars 4 w.value =
      [Text.Hex.digit w.kind, Text.Hex.digit w.x, Text.Hex.digit w.y, Text.Hex.digit w.n] := by
  have bound := w.value_lt
  have first : w.value / 16 / 16 / 16 < 16 := by omega
  calc
    Text.Hex.chars 4 w.value = Text.Hex.padded 4 w.value := rfl
    _ = [Text.Hex.digit (w.value / 16 / 16 / 16), Text.Hex.digit (w.value / 16 / 16 % 16),
          Text.Hex.digit (w.value / 16 % 16), Text.Hex.digit (w.value % 16)] := by
      rw [Text.Hex.padded_succ (by omega), Text.Hex.padded_succ (by omega),
        Text.Hex.padded_succ (by omega), Text.Hex.padded_one first]
      rfl
    _ = _ := by simp only [kind, x, y, n, Nat.div_div_eq_div_mul]

theorem padded_nnn (w : Word) :
    Text.Hex.padded 3 w.nnn =
      [Text.Hex.digit w.x, Text.Hex.digit w.y, Text.Hex.digit w.n] := by
  have first : w.nnn.val / 16 / 16 < 16 := by omega
  have digits : w.nnn.val / 16 / 16 = w.x.val ∧ w.nnn.val / 16 % 16 = w.y.val ∧
      w.nnn.val % 16 = w.n.val := by
    simp only [nnn, x, y, n]
    omega
  rw [Text.Hex.padded_succ (by omega), Text.Hex.padded_succ (by omega),
    Text.Hex.padded_one first, digits.1, digits.2.1, digits.2.2]
  rfl

theorem padded_kk (w : Word) :
    Text.Hex.padded 2 w.kk.toNat = [Text.Hex.digit w.y, Text.Hex.digit w.n] := by
  have byte := w.kk.toNat_lt
  have first : w.kk.toNat / 16 < 16 := by omega
  have digits : w.kk.toNat / 16 = w.y.val ∧ w.kk.toNat % 16 = w.n.val := by
    simp only [kk, UInt8.toNat_ofNat', y, n]
    omega
  rw [Text.Hex.padded_succ (by omega), Text.Hex.padded_one first, digits.1, digits.2]
  rfl

end Word

theorem lowDigits_eq (i : Int) : lowDigits i = Text.Hex.chars 4 (Word.ofInt i).value := by
  rw [lowDigits, Word.value_ofInt]

theorem lowDigits_ofInt (i : Int) : lowDigits (Word.ofInt i).value = lowDigits i := by
  rw [lowDigits_eq, Word.ofInt_value, lowDigits_eq]

/-- Every character of a form is an operand letter or a digit. -/
theorem Opcode.letter_or_digit_of_mem_form {op : Opcode} {c : Char} (h : c ∈ op.form.toList) :
    c ∈ operandLetters ∨ Pattern.fixedNibble? c ≠ none := by
  -- The characters of a form are gone through one by one; there are too many others.
  have forms : ∀ op ∈ Opcode.all, op.form.toList.all fun c =>
      decide (c ∈ operandLetters ∨ Pattern.fixedNibble? c ≠ none) := by
    decide +kernel
  exact of_decide_eq_true (List.all_eq_true.1 (forms op op.mem_all) c h)

theorem fixedNibble?_of_letter {c : Char} (h : c ∈ operandLetters) :
    Pattern.fixedNibble? c = none := by
  simp only [operandLetters, List.mem_cons, List.not_mem_nil, or_false] at h
  rcases h with rfl | rfl | rfl | rfl <;> rfl

/-- A character of a form allows a digit exactly if it fixes no other nibble. -/
theorem allows_digit_iff {c : Char} (known : c ∈ operandLetters ∨ Pattern.fixedNibble? c ≠ none)
    {n : Nat} (h : n < 16) :
    Allows c (Text.Hex.digit n) ↔ ∀ d, Pattern.fixedNibble? c = some d → n = d := by
  cases fixed : Pattern.fixedNibble? c with
  | none =>
      have letter : c ∈ operandLetters := known.resolve_right (not_not_intro fixed)
      simp [Allows, letter]
  | some d =>
      have noLetter : c ∉ operandLetters := by
        intro letter
        rw [fixedNibble?_of_letter letter] at fixed
        cases fixed
      obtain rfl := Text.Hex.eq_digit_of_fixedNibble? fixed
      have bound := Pattern.fixedNibble?_lt fixed
      constructor
      · rintro (letter | same) e found
        · exact absurd letter noLetter
        · cases found
          exact (Text.Hex.digit_injective bound h same).symm
      · intro only
        exact .inr (congrArg Text.Hex.digit (only d rfl).symm)

/-- The digits of an integer fit a form exactly if the integer has it. -/
theorem fits_lowDigits_iff (op : Opcode) (i : Int) :
    Fits op.form.toList (lowDigits i) ↔ HasForm op.form.toList i := by
  have known (c : Char) (h : c ∈ op.form.toList) := op.letter_or_digit_of_mem_form h
  have bounds (n : Fin 16) : n.val < 16 := n.isLt
  have nibbles : nibbleAt i 3 = (Word.ofInt i).kind ∧ nibbleAt i 2 = (Word.ofInt i).x ∧
      nibbleAt i 1 = (Word.ofInt i).y ∧ nibbleAt i 0 = (Word.ofInt i).n := by
    simp only [nibbleAt, Int.shiftRight_eq_div_pow, Word.ofInt, Word.kind, Word.x, Word.y, Word.n]
    omega
  rw [lowDigits_eq, Word.chars_value]
  obtain ⟨a, b, c, d, form⟩ := List.length_eq_four.1 op.length_form
  rw [form] at known ⊢
  simp only [List.forall_mem_cons] at known
  obtain ⟨ha, hb, hc, hd, -⟩ := known
  simp [Fits, HasForm, Fin.forall_fin_succ, allows_digit_iff, bounds, nibbles, ha, hb, hc, hd]

namespace Instruction

/-- A form with the digits of its operands in place of the letters. -/
def fill (ins : Instruction) : List Char → List Char
  | 'n' :: 'n' :: 'n' :: rest => Text.Hex.padded 3 ins.nnn ++ ins.fill rest
  | 'k' :: 'k' :: rest => Text.Hex.padded 2 ins.kk.toNat ++ ins.fill rest
  | 'x' :: rest => Text.Hex.padded 1 ins.x ++ ins.fill rest
  | 'y' :: rest => Text.Hex.padded 1 ins.y ++ ins.fill rest
  | 'n' :: rest => Text.Hex.padded 1 ins.n ++ ins.fill rest
  | c :: rest => c :: ins.fill rest
  | [] => []

/-- The operands of an instruction spell its word exactly if its form fits. -/
theorem fill_form_iff (ins : Instruction) :
    ins.fill ins.opcode.form.toList = lowDigits ins.word.value ↔
      Fits ins.opcode.form.toList (lowDigits ins.word.value) := by
  obtain ⟨w, op⟩ := ins
  have single (n : Fin 16) : Text.Hex.padded 1 n = [Text.Hex.digit n] :=
    Text.Hex.padded_one n.isLt
  rw [lowDigits_eq, Word.ofInt_value, Word.chars_value]
  -- A letter stands for the nibbles themselves; a fixed digit is asked of both sides.
  cases op <;>
    simp [Fits, Allows, operandLetters, Opcode.form, fill, x, y, n, kk, nnn, single,
      Word.padded_nnn, Word.padded_kk]

/-- An integer is decoded to the instruction that has its low bits and whose form they fit. -/
theorem decode_eq_ok_iff (i : Int) (ins : Instruction) :
    decode i = .ok ins ↔
      ins.word = Word.ofInt i ∧ Fits ins.opcode.form.toList (lowDigits i) := by
  rw [← lowDigits_ofInt, fits_lowDigits_iff, ← decode?_eq_some_iff, decode]
  cases decode? (Word.ofInt i) <;> simp

theorem decode_eq_error_iff (i : Int) (c : Condition) :
    decode i = .error c ↔
      c = .unrecognized (i % 0x10000) ∧ ∀ op : Opcode, ¬ Fits op.form.toList (lowDigits i) := by
  rw [← lowDigits_ofInt, ← Word.value_ofInt]
  simp only [fits_lowDigits_iff, ← decode?_eq_none_iff]
  rw [decode]
  cases decode? (Word.ofInt i) <;> simp [eq_comm]

end Instruction

/-- Looking an integer up finds the instruction that it is decoded to. -/
theorem Opcode.lookup_eq_some_iff_decode (i : Int) (op : Opcode) :
    lookup i = some op ↔ ∃ ins, Instruction.decode i = .ok ins ∧ ins.opcode = op := by
  rw [lookup_eq_some_iff, ← fits_lowDigits_iff]
  constructor
  · intro fits
    exact ⟨⟨Word.ofInt i, op⟩, (Instruction.decode_eq_ok_iff i _).2 ⟨rfl, fits⟩, rfl⟩
  · rintro ⟨ins, decoded, rfl⟩
    exact ((Instruction.decode_eq_ok_iff i ins).1 decoded).2

/-- Decoding follows the forms: the one form that the digits fit, whatever the order of
the table, with the operands spelling the word, and a report of the word if none fits. -/
theorem decode_follows_forms (i : Int) :
    (∀ op : Opcode, (∃ ins, Instruction.decode i = .ok ins ∧ ins.opcode = op) ↔
      Fits op.form.toList (lowDigits i)) ∧
    (∀ a b : Opcode, Fits a.form.toList (lowDigits i) → Fits b.form.toList (lowDigits i) →
      a = b) ∧
    (∀ rows : List (Pattern × Opcode), rows.Perm Opcode.table →
      Opcode.search rows i = Opcode.lookup i) ∧
    (∀ ins, Instruction.decode i = .ok ins →
      (ins.word.value : Int) = i % 0x10000 ∧
      ins.fill ins.opcode.form.toList = lowDigits i ∧
      (Text.Hex.value (ins.fill ins.opcode.form.toList) : Int) = i % 0x10000) ∧
    ((∀ op : Opcode, ¬ Fits op.form.toList (lowDigits i)) →
      Instruction.decode i = .error (.unrecognized (i % 0x10000))) ∧
    (∀ op : Opcode, Opcode.lookup i = some op ↔
      ∃ ins, Instruction.decode i = .ok ins ∧ ins.opcode = op) ∧
    (Opcode.lookup i = none ↔ ∃ c, Instruction.decode i = .error c) := by
  refine ⟨?_, ?_, ?_, ?_, ?_, Opcode.lookup_eq_some_iff_decode i, ?_⟩
  · intro op
    rw [← Opcode.lookup_eq_some_iff_decode, Opcode.lookup_eq_some_iff, fits_lowDigits_iff]
  · intro a b fitsA fitsB
    rw [fits_lowDigits_iff] at fitsA fitsB
    exact Opcode.eq_of_hasForm fitsA fitsB
  · intro rows perm
    apply Option.ext
    intro op
    rw [Opcode.lookup_eq_some_iff, Opcode.search_eq_some_iff fun row => perm.mem_iff]
  · intro ins decoded
    obtain ⟨word, fits⟩ := (Instruction.decode_eq_ok_iff i ins).1 decoded
    have low : lowDigits ins.word.value = lowDigits i := by
      rw [word, lowDigits_ofInt]
    have spelled := (Instruction.fill_form_iff ins).2 (low ▸ fits)
    refine ⟨by rw [word, Word.value_ofInt], spelled.trans low, ?_⟩
    rw [spelled, lowDigits_eq, Word.ofInt_value, word, ← Word.value_ofInt]
    exact congrArg Nat.cast (Text.Hex.value_padded 4 _)
  · intro none
    exact (Instruction.decode_eq_error_iff i _).2 ⟨rfl, none⟩
  · cases decoded : Instruction.decode i with
    | ok ins =>
        have found := (Opcode.lookup_eq_some_iff_decode i _).2 ⟨ins, decoded, rfl⟩
        simp [found]
    | error c =>
        have none : Opcode.lookup i = none := by
          rw [Option.eq_none_iff_forall_ne_some]
          intro op found
          obtain ⟨ins, other, -⟩ := (Opcode.lookup_eq_some_iff_decode i op).1 found
          rw [decoded] at other
          cases other
        simp [none]

/-- A negative integer is looked up by its low bits. -/
example : Opcode.lookup (-0x774A) = some .shiftRight := by decide +kernel

end Chip8
