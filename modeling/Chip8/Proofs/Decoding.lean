import Chip8.Instruction
import Chip8.Proofs.Forms

/-!
# Decoding

No two forms of the instruction set fit one integer, so the order of the table
does not matter: an integer encodes an instruction exactly if it has its form.
-/

namespace Chip8

namespace Opcode

/-- The digit that the form of an instruction fixes at a place, if it fixes one. -/
def fixedAt (op : Opcode) (j : Nat) : Option Nat := op.form.toList[j]?.bind Pattern.fixedNibble?

theorem length_form (op : Opcode) : op.form.toList.length = 4 := by
  cases op <;> decide

/-- Two instructions differ in a digit that both of their forms fix. -/
theorem fixedAt_differ : ∀ a ∈ all, ∀ b ∈ all, a ≠ b →
    ∃ j : Fin 4, a.fixedAt j ≠ none ∧ b.fixedAt j ≠ none ∧ a.fixedAt j ≠ b.fixedAt j := by
  decide +kernel

/-- The nibbles that a form asks for, place by place. -/
theorem hasForm_iff (op : Opcode) (i : Int) :
    HasForm op.form.toList i ↔ ∀ j < 4, ∀ d, op.fixedAt j = some d → nibbleAt i (3 - j) = d := by
  have len := op.length_form
  constructor
  · intro h j inside d fixed
    have here : j < op.form.toList.length := by omega
    rw [fixedAt, List.getElem?_eq_getElem here, Option.bind_some] at fixed
    have nibble := h ⟨j, here⟩ d fixed
    rwa [show op.form.toList.length - 1 - j = 3 - j by omega] at nibble
  · rintro h ⟨j, here⟩ d fixed
    rw [show op.form.toList.length - 1 - j = 3 - j by omega]
    apply h j (by omega) d
    rw [fixedAt, List.getElem?_eq_getElem here, Option.bind_some]
    exact fixed

/-- At most one form fits an integer. -/
theorem eq_of_hasForm {a b : Opcode} {i : Int} (ha : HasForm a.form.toList i)
    (hb : HasForm b.form.toList i) : a = b := by
  by_contra differ
  obtain ⟨j, fixedA, fixedB, apart⟩ := fixedAt_differ a (mem_all a) b (mem_all b) differ
  obtain ⟨d, hd⟩ := Option.ne_none_iff_exists'.1 fixedA
  obtain ⟨e, he⟩ := Option.ne_none_iff_exists'.1 fixedB
  have same : d = e := by
    calc
      d = nibbleAt i (3 - j) := ((a.hasForm_iff i).1 ha j j.isLt d hd).symm
      _ = e := (b.hasForm_iff i).1 hb j j.isLt e he
  apply apart
  rw [hd, he, same]

theorem pattern_accepts_iff (op : Opcode) (i : Int) :
    op.pattern.accepts i = true ↔ HasForm op.form.toList i :=
  Pattern.accepts_ofChars_iff op.form.toList i

/-- A search through the rows of the table, in whatever order they stand, finds the
one instruction whose form fits. -/
theorem search_eq_some_iff {rows : List (Pattern × Opcode)} (same : ∀ row, row ∈ rows ↔ row ∈ table)
    (i : Int) (op : Opcode) : search rows i = some op ↔ HasForm op.form.toList i := by
  have sound : ∀ found, search rows i = some found → HasForm found.form.toList i := by
    intro found h
    obtain ⟨row, hrow, rfl⟩ := Option.map_eq_some_iff.1 h
    obtain ⟨op', -, rfl⟩ := List.mem_map.1 ((same row).1 (List.mem_of_find?_eq_some hrow))
    have accepted := List.find?_some hrow
    exact (op'.pattern_accepts_iff i).1 accepted
  constructor
  · exact sound op
  · intro h
    cases found : search rows i with
    | none =>
        have row : (op.pattern, op) ∈ rows := (same _).2 (List.mem_map.2 ⟨op, mem_all op, rfl⟩)
        have refused := List.find?_eq_none.1 (Option.map_eq_none_iff.1 found) _ row
        exact absurd ((op.pattern_accepts_iff i).2 h) refused
    | some other => rw [eq_of_hasForm (sound other found) h]

theorem lookup_eq_some_iff (i : Int) (op : Opcode) :
    lookup i = some op ↔ HasForm op.form.toList i :=
  search_eq_some_iff (fun _ => Iff.rfl) i op

end Opcode

namespace Instruction

/-- A word is decoded to an instruction exactly if it has its form. -/
theorem decode?_eq_some_iff (w : Word) (ins : Instruction) :
    decode? w = some ins ↔ ins.word = w ∧ HasForm ins.opcode.form.toList w.value := by
  constructor
  · intro h
    exact ⟨word_of_decode? h, (Opcode.lookup_eq_some_iff _ _).1 (lookup_of_decode? h)⟩
  · rintro ⟨rfl, form⟩
    rw [decode?, (Opcode.lookup_eq_some_iff _ _).2 form, Option.map_some]

theorem decode?_eq_none_iff (w : Word) :
    decode? w = none ↔ ∀ op : Opcode, ¬ HasForm op.form.toList w.value := by
  constructor
  · intro h op form
    rw [(decode?_eq_some_iff w ⟨w, op⟩).2 ⟨rfl, form⟩] at h
    cases h
  · intro h
    cases found : decode? w with
    | none => rfl
    | some ins => exact absurd ((decode?_eq_some_iff w ins).1 found).2 (h ins.opcode)

end Instruction

/-- The nibbles of a word are its fields. -/
theorem Word.nibbleAt_value (w : Word) :
    nibbleAt w.value 3 = w.kind.val ∧ nibbleAt w.value 2 = w.x.val ∧
      nibbleAt w.value 1 = w.y.val ∧ nibbleAt w.value 0 = w.n.val := by
  have bound := w.value_lt
  simp only [nibbleAt, Int.shiftRight_eq_div_pow, Word.kind, Word.x, Word.y, Word.n]
  refine ⟨?_, ?_, ?_, ?_⟩ <;> omega

/-- A form without operands belongs to the one word that has its digits. -/
theorem hasForm_iff_of_fixed {op : Opcode} {v : Word}
    (fixed : ∀ j < 4, op.fixedAt j = some (nibbleAt v.value (3 - j))) (w : Word) :
    HasForm op.form.toList w.value ↔ w.value = v.value := by
  rw [Opcode.hasForm_iff]
  constructor
  · intro h
    have kind := h 0 (by omega) _ (fixed 0 (by omega))
    have x := h 1 (by omega) _ (fixed 1 (by omega))
    have y := h 2 (by omega) _ (fixed 2 (by omega))
    have n := h 3 (by omega) _ (fixed 3 (by omega))
    rw [w.nibbleAt_value.1, v.nibbleAt_value.1] at kind
    rw [w.nibbleAt_value.2.1, v.nibbleAt_value.2.1] at x
    rw [w.nibbleAt_value.2.2.1, v.nibbleAt_value.2.2.1] at y
    rw [w.nibbleAt_value.2.2.2, v.nibbleAt_value.2.2.2] at n
    rw [w.value_eq_fields, v.value_eq_fields, kind, x, y, n]
  · intro same j inside d digit
    rw [same]
    exact Option.some.inj ((fixed j inside).symm.trans digit)

theorem hasForm_returnFromCall_iff (w : Word) :
    HasForm Opcode.returnFromCall.form.toList w.value ↔ w.value = 0x00EE :=
  hasForm_iff_of_fixed (v := ⟨0x00EE, by decide⟩) (by decide) w

theorem hasForm_clearScreen_iff (w : Word) :
    HasForm Opcode.clearScreen.form.toList w.value ↔ w.value = 0x00E0 :=
  hasForm_iff_of_fixed (v := ⟨0x00E0, by decide⟩) (by decide) w

end Chip8
