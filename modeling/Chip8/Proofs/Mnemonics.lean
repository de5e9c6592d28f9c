import Chip8.Assembly
import Chip8.Proofs.Spelling

/-!
# Unambiguous assembly text

The text of an instruction can be taken apart again: its name ends at the first space,
its operands at commas, and an operand is read from its own characters. Names and kinds
of operands tell the instructions apart, so two words have the same text only if they
are equal or differ in the operand that a shift does not name.
-/

namespace Chip8

/-- What stands in front of the first mark and what stands behind it. -/
theorem append_cons_inj_of_notMem {mark : Char} {a b r s : List Char} (ha : mark ∉ a)
    (hb : mark ∉ b) (same : a ++ mark :: r = b ++ mark :: s) : a = b ∧ r = s := by
  induction a generalizing b with
  | nil =>
      cases b with
      | nil => exact ⟨rfl, (List.cons.inj same).2⟩
      | cons c b => exact absurd ((List.cons.inj same).1 ▸ List.mem_cons_self) hb
  | cons c a ih =>
      cases b with
      | nil => exact absurd ((List.cons.inj same).1 ▸ List.mem_cons_self) ha
      | cons d b =>
          obtain ⟨rfl, rest⟩ := List.cons.inj same
          obtain ⟨rfl, rfl⟩ := ih (fun h => ha (List.mem_cons_of_mem _ h))
            (fun h => hb (List.mem_cons_of_mem _ h)) rest
          exact ⟨rfl, rfl⟩

namespace Operand

/-- The operand of a numeral behind `0x`, told by the number of its digits. -/
def ofNumeral? (numeral : List Char) : Option Operand :=
  match numeral.length with
  | 1 => some (.nibble ⟨Text.Hex.value numeral % 16, by omega⟩)
  | 2 => some (.byte (UInt8.ofNat (Text.Hex.value numeral)))
  | 3 => some (.address ⟨Text.Hex.value numeral % 0x1000, by omega⟩)
  | _ => none

/-- The operand that some characters are the text of. -/
def read? : List Char → Option Operand
  | 'V' :: numeral => some (.register ⟨Text.Hex.value numeral % 16, by omega⟩)
  | '0' :: 'x' :: numeral => ofNumeral? numeral
  | ['I'] => some .index
  | ['[', 'I', ']'] => some .atIndex
  | ['D', 'T'] => some .delayTimer
  | ['S', 'T'] => some .soundTimer
  | ['K'] => some .key
  | ['F'] => some .glyph
  | ['B'] => some .digits
  | _ => none

theorem read?_numeral (width n : Nat) :
    read? ("0x" ++ Text.Hex.text width n).toList = ofNumeral? (Text.Hex.padded width n) := by
  rw [String.toList_append, Text.Hex.toList_text]
  rfl

/-- The text of an operand is read as that operand. -/
theorem read?_text (o : Operand) : read? o.text.toList = some o := by
  cases o with
  | register r =>
      simp [text, Text.Hex.toList_text, Text.Hex.chars, read?, Text.Hex.value_padded,
        Nat.mod_eq_of_lt r.isLt]
  | address a =>
      have length := Text.Hex.length_padded 3 (by omega) a.isLt
      rw [text, read?_numeral, ofNumeral?, length]
      simp [Text.Hex.value_padded, Nat.mod_eq_of_lt a.isLt]
  | byte b =>
      have length := Text.Hex.length_padded 2 (by omega) b.toNat_lt
      rw [text, read?_numeral, ofNumeral?, length]
      simp [Text.Hex.value_padded]
  | nibble n =>
      have length := Text.Hex.length_padded 1 (by omega) n.isLt
      rw [text, read?_numeral, ofNumeral?, length]
      simp [Text.Hex.value_padded, Nat.mod_eq_of_lt n.isLt]
  | index | atIndex | delayTimer | soundTimer | key | glyph | digits => decide

theorem text_injective {o p : Operand} (same : o.text = p.text) : o = p := by
  have read := read?_text o
  rw [same, read?_text p] at read
  exact (Option.some.inj read).symm

/-- Neither a comma nor a dot is in the text of an operand. -/
theorem mark_notMem_text {mark : Char} (h : mark = ',' ∨ mark = '.') (o : Operand) :
    mark ∉ o.text.toList := by
  have free : Pattern.fixedNibble? mark = none ∧ mark ≠ '-' ∧ mark ∉ "V".toList ∧
      mark ∉ "0x".toList := by
    rcases h with rfl | rfl <;> decide
  obtain ⟨noDigit, noSign, noV, noHex⟩ := free
  have numeral {start : String} (before : mark ∉ start.toList) (width n : Nat) :
      mark ∉ (start ++ Text.Hex.text width n).toList := by
    rw [String.toList_append, Text.Hex.toList_text, List.mem_append, not_or]
    exact ⟨before, Text.Hex.not_mem_chars noDigit noSign width n⟩
  cases o with
  | register r => exact numeral noV 1 r
  | address a => exact numeral noHex 3 a
  | byte b => exact numeral noHex 2 b.toNat
  | nibble n => exact numeral noHex 1 n
  | index | atIndex | delayTimer | soundTimer | key | glyph | digits =>
      rcases h with rfl | rfl <;> decide

/-- Operands in a row, each with a separator behind it. -/
def row (ops : List Operand) : List Char := ops.flatMap fun o => o.text.toList ++ [',', ' ']

theorem row_injective {ops ops' : List Operand} (same : row ops = row ops') : ops = ops' := by
  induction ops generalizing ops' with
  | nil =>
      cases ops' with
      | nil => rfl
      | cons p ops' => simp [row] at same
  | cons o ops ih =>
      cases ops' with
      | nil => simp [row] at same
      | cons p ops' =>
          simp only [row, List.flatMap_cons, List.append_assoc, List.cons_append,
            List.nil_append] at same
          obtain ⟨first, rest⟩ := append_cons_inj_of_notMem (mark_notMem_text (.inl rfl) o)
            (mark_notMem_text (.inl rfl) p) same
          rw [text_injective (String.toList_inj.1 first), ih (List.cons.inj rest).2]

/-- The texts of operands with separators in between and one more behind the last. -/
theorem intercalate_append (o : Operand) (ops : List Operand) :
    (String.intercalate ", " ((o :: ops).map text)).toList ++ [',', ' '] = row (o :: ops) := by
  induction ops generalizing o with
  | nil => simp [row]
  | cons p ops ih =>
      have next := ih p
      simp only [List.map_cons, String.intercalate_cons_cons, String.toList_append,
        List.append_assoc] at next ⊢
      rw [next]
      simp [row]

/-- An operand with its value left out. -/
def blank : Operand → Operand
  | register _ => register ⟨0, Nat.zero_lt_succ _⟩
  | address _ => address ⟨0, Nat.zero_lt_succ _⟩
  | byte _ => byte 0
  | nibble _ => nibble ⟨0, Nat.zero_lt_succ _⟩
  | o => o

end Operand

/-- The name of an instruction and the kinds of its operands. -/
def Opcode.shape (op : Opcode) : String × List Operand :=
  let sample : Instruction := ⟨Word.ofInt 0, op⟩
  (sample.name, sample.operands.map Operand.blank)

/-- No two instructions have one shape. -/
theorem Opcode.shape_injective : ∀ a ∈ all, ∀ b ∈ all, a.shape = b.shape → a = b := by
  decide +kernel

theorem Opcode.marks_notMem_name : ∀ op ∈ all,
    ' ' ∉ op.shape.1.toList ∧ '.' ∉ op.shape.1.toList := by
  decide +kernel

namespace Instruction

theorem shape_opcode (ins : Instruction) :
    ins.opcode.shape = (ins.name, ins.operands.map Operand.blank) := by
  obtain ⟨w, op⟩ := ins
  cases op <;> rfl

theorem marks_notMem_name (ins : Instruction) :
    ' ' ∉ ins.name.toList ∧ '.' ∉ ins.name.toList := by
  have free := Opcode.marks_notMem_name ins.opcode (Opcode.mem_all _)
  rwa [shape_opcode] at free

theorem text_of_no_operands {ins : Instruction} (h : ins.operands = []) : ins.text = ins.name := by
  rw [text, h]

/-- The text of an instruction with operands, with one more separator at its end. -/
theorem text_append {ins : Instruction} (h : ins.operands ≠ []) :
    ins.text.toList ++ [',', ' '] = ins.name.toList ++ ' ' :: Operand.row ins.operands := by
  obtain ⟨o, ops, operands⟩ := List.exists_cons_of_ne_nil h
  rw [text, operands, ← Operand.intercalate_append]
  simp

/-- A text without a space is a name alone. -/
theorem space_mem_text_iff (ins : Instruction) : ' ' ∈ ins.text.toList ↔ ins.operands ≠ [] := by
  constructor
  · intro inside none
    rw [text_of_no_operands none] at inside
    exact ins.marks_notMem_name.1 inside
  · intro some
    obtain ⟨o, ops, operands⟩ := List.exists_cons_of_ne_nil some
    rw [text, operands]
    simp

theorem dot_notMem_text (ins : Instruction) : '.' ∉ ins.text.toList := by
  have name := ins.marks_notMem_name.2
  by_cases none : ins.operands = []
  · rwa [text_of_no_operands none]
  · intro inside
    have longer := List.mem_append_left [',', ' '] inside
    rw [text_append none] at longer
    simp [name, Operand.row, Operand.mark_notMem_text (.inr rfl)] at longer

/-- The text of an instruction tells its name and its operands. -/
theorem eq_of_text {a b : Instruction} (same : a.text = b.text) :
    a.name = b.name ∧ a.operands = b.operands := by
  have alike : a.operands = [] ↔ b.operands = [] := by
    rw [← not_iff_not, ← ne_eq, ← ne_eq, ← space_mem_text_iff, ← space_mem_text_iff, same]
  by_cases none : a.operands = []
  · have none' := alike.1 none
    rw [text_of_no_operands none, text_of_no_operands none'] at same
    exact ⟨same, none.trans none'.symm⟩
  · have longer := text_append none
    rw [same, text_append (mt alike.2 none)] at longer
    obtain ⟨name, row⟩ := append_cons_inj_of_notMem b.marks_notMem_name.1
      a.marks_notMem_name.1 longer
    exact ⟨(String.toList_inj.1 name).symm, (Operand.row_injective row).symm⟩

/-- The text of an instruction tells which instruction it is. -/
theorem opcode_eq_of_text {a b : Instruction} (same : a.text = b.text) : a.opcode = b.opcode := by
  obtain ⟨name, operands⟩ := eq_of_text same
  apply Opcode.shape_injective a.opcode (Opcode.mem_all _) b.opcode (Opcode.mem_all _)
  rw [shape_opcode, shape_opcode, name, operands]

/-- The operands that are written settle the form, unless it is that of a shift. -/
theorem fill_eq_of_operands {v w : Word} {op : Opcode}
    (named : op ≠ .shiftRight ∧ op ≠ .shiftLeft)
    (same : operands ⟨v, op⟩ = operands ⟨w, op⟩) :
    fill ⟨v, op⟩ op.form.toList = fill ⟨w, op⟩ op.form.toList := by
  cases op
  case shiftRight => exact absurd rfl named.1
  case shiftLeft => exact absurd rfl named.2
  all_goals
    simp only [operands, List.cons.injEq, Operand.register.injEq, Operand.byte.injEq,
      Operand.address.injEq, Operand.nibble.injEq, and_true, true_and] at same
    simp [Opcode.form, fill, same]

end Instruction

/-- Two words encode the same shift of the same register. -/
def Word.SameShift (v w : Word) : Prop :=
  ∃ op : Opcode, (op = .shiftRight ∨ op = .shiftLeft) ∧
    HasForm op.form.toList v.value ∧ HasForm op.form.toList w.value ∧ v.x = w.x

theorem operands_shift {op : Opcode} (shift : op = .shiftRight ∨ op = .shiftLeft) (w : Word) :
    (⟨w, op⟩ : Instruction).operands = [.register w.x] := by
  rcases shift with rfl | rfl <;> rfl

/-- A word is settled by its opcode and its operands, unless it encodes a shift. -/
theorem eq_or_sameShift_of_operands {v w : Word} {op : Opcode}
    (hv : HasForm op.form.toList v.value) (hw : HasForm op.form.toList w.value)
    (same : (⟨v, op⟩ : Instruction).operands = (⟨w, op⟩ : Instruction).operands) :
    v = w ∨ v.SameShift w := by
  by_cases shift : op = .shiftRight ∨ op = .shiftLeft
  · rw [operands_shift shift, operands_shift shift] at same
    simp only [List.cons.injEq, Operand.register.injEq, and_true] at same
    exact .inr ⟨op, shift, hv, hw, same⟩
  · have filled := Instruction.fill_eq_of_operands (not_or.1 shift) same
    have spelledV := (Instruction.fill_form_iff ⟨v, op⟩).2 ((fits_lowDigits_iff op _).2 hv)
    have spelledW := (Instruction.fill_form_iff ⟨w, op⟩).2 ((fits_lowDigits_iff op _).2 hw)
    have digits := spelledV.symm.trans (filled.trans spelledW)
    rw [lowDigits_eq, lowDigits_eq, Word.ofInt_value, Word.ofInt_value] at digits
    exact .inl (Word.value_injective (Int.ofNat.inj (Text.Hex.chars_injective 4 digits)))

section WordText
variable {v w : Word} {ins : Instruction}

theorem wordText_of_some (h : Instruction.decode? w = some ins) : wordText w.value = ins.text := by
  rw [wordText, Word.ofInt_value, h]

theorem wordText_of_none (h : Instruction.decode? w = none) :
    wordText w.value = ".word 0x" ++ Text.Hex.text 4 w.value ++ "   ; unknown opcode" := by
  rw [wordText, Word.ofInt_value, h]

/-- Instructions are never written with a dot, data always. -/
theorem dot_mem_wordText_iff (w : Word) :
    '.' ∈ (wordText w.value).toList ↔ Instruction.decode? w = none := by
  cases found : Instruction.decode? w with
  | none => simp [wordText_of_none found]
  | some ins => simp [wordText_of_some found, ins.dot_notMem_text]

/-- Two words have the same text only if they are equal or the same shift. -/
theorem wordText_eq_iff (v w : Word) :
    wordText v.value = wordText w.value ↔ v = w ∨ v.SameShift w := by
  constructor
  · intro same
    have alike : Instruction.decode? v = none ↔ Instruction.decode? w = none := by
      rw [← dot_mem_wordText_iff, ← dot_mem_wordText_iff, same]
    cases foundV : Instruction.decode? v with
    | none =>
        rw [wordText_of_none foundV, wordText_of_none (alike.1 foundV)] at same
        have digits : Text.Hex.chars 4 v.value = Text.Hex.chars 4 w.value := by
          simpa [← String.toList_inj, Text.Hex.toList_text] using same
        exact .inl (Word.value_injective (Int.ofNat.inj (Text.Hex.chars_injective 4 digits)))
    | some a =>
        obtain ⟨b, foundW⟩ := Option.ne_none_iff_exists'.1 (mt alike.2 (by simp [foundV]))
        rw [wordText_of_some foundV, wordText_of_some foundW] at same
        obtain ⟨v, op⟩ := a
        obtain ⟨w, op'⟩ := b
        obtain ⟨rfl, formV⟩ := (Instruction.decode?_eq_some_iff _ _).1 foundV
        obtain ⟨rfl, formW⟩ := (Instruction.decode?_eq_some_iff _ _).1 foundW
        obtain rfl : op = op' := Instruction.opcode_eq_of_text same
        exact eq_or_sameShift_of_operands formV formW (Instruction.eq_of_text same).2
  · rintro (rfl | ⟨op, shift, formV, formW, x⟩)
    · rfl
    · rw [wordText_of_some ((Instruction.decode?_eq_some_iff v ⟨v, op⟩).2 ⟨rfl, formV⟩),
        wordText_of_some ((Instruction.decode?_eq_some_iff w ⟨w, op⟩).2 ⟨rfl, formW⟩)]
      have operands : (⟨v, op⟩ : Instruction).operands = (⟨w, op⟩ : Instruction).operands := by
        rw [operands_shift shift, operands_shift shift, x]
      rw [Instruction.text, Instruction.text, operands]
      rcases shift with rfl | rfl <;> rfl

end WordText

end Chip8
