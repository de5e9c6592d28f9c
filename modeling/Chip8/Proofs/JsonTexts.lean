import Chip8.Proofs.Nesting
import Mathlib.Data.List.Basic

/-!
# Settings files with a scale

A record that gives a scale is read as its item is. So a whole number is read back from its decimal
digits unless these are too many, and lists in each other are refused if they are as many as the
reader goes deep.
-/

namespace Chip8.Json

section Scale
variable (t : String) (item : Except Error Data)

/-- The text of a record that gives the scale. -/
def scaleText : String := "\x7b\"scale\": " ++ t ++ "\x7d"

theorem toList_scaleText : (scaleText t).toList =
    '\x7b' :: '"' :: 's' :: 'c' :: 'a' :: 'l' :: 'e' :: '"' :: ':' :: ' ' ::
      (t.toList ++ ['\x7d']) := by
  simp [scaleText]

variable {t item}

theorem fields_scale {fuel depth : Nat} {cs : List Char} (filled : skip cs = cs)
    (read : value fuel depth cs = item.map (·, ['\x7d'])) :
    fields (fuel + 1) depth [] ('"' :: 's' :: 'c' :: 'a' :: 'l' :: 'e' :: '"' :: ':' :: ' ' :: cs) =
      item.map fun v => (.record [(PointText.ofString "scale", v)], []) := by
  have name : string ('s' :: 'c' :: 'a' :: 'l' :: 'e' :: '"' :: ':' :: ' ' :: cs) =
      .ok (PointText.ofString "scale", ':' :: ' ' :: cs) := rfl
  have colon : skip (':' :: ' ' :: cs) = ':' :: ' ' :: cs := rfl
  have blank : skip (' ' :: cs) = cs := filled
  rw [fields, name]
  simp only [bind, Except.bind, colon, blank, read]
  cases item <;> rfl

/-- A record that gives the scale is read as its item is. -/
theorem read_scaleText (filled : skip (t.toList ++ ['\x7d']) = t.toList ++ ['\x7d'])
    (read : value (2 * t.toList.length + 22) (deepest - 1) (t.toList ++ ['\x7d']) =
      item.map (·, ['\x7d'])) :
    Json.read (scaleText t) = item.map fun v => .record [(PointText.ofString "scale", v)] := by
  have unblank : skip (scaleText t).toList = (scaleText t).toList := by
    rw [toList_scaleText]
    rfl
  have length : (scaleText t).toList.length = t.toList.length + 11 := by
    rw [toList_scaleText]
    simp
  have enough : 2 * (skip (scaleText t).toList).length < 2 * t.toList.length + 22 + 2 := by
    rw [unblank, length]
    omega
  have whole : value (2 * t.toList.length + 22 + 2) deepest (scaleText t).toList =
      item.map fun v => (.record [(PointText.ofString "scale", v)], []) := by
    rw [← fields_scale filled read, toList_scaleText]
    rfl
  rw [read_eq_of_enough enough, unblank, whole]
  cases item <;> rfl

end Scale

section Integers

theorem digitsValue_toDigits (n : Nat) : digitsValue (Nat.toDigits 10 n) = n := by
  have read : Nat.ofDigitChars 10 (Nat.toDigits 10 n) 0 = n := Nat.ofDigitChars_ten_toDigits
  simp only [Nat.ofDigitChars, Nat.mul_comm 10] at read
  exact read

/-- The digits of a number begin with a zero only if the number is zero. -/
theorem exists_toDigits_eq_cons (n : Nat) :
    ∃ c ds, Nat.toDigits 10 n = c :: ds ∧ c.isDigit ∧ (n ≠ 0 → c ≠ '0') := by
  induction n using Nat.strongRecOn with
  | ind n ih =>
      by_cases small : n < 10
      · have each : ∀ d < 10, d.digitChar.isDigit ∧ (d ≠ 0 → d.digitChar ≠ '0') := by decide
        exact ⟨n.digitChar, [], Nat.toDigits_of_lt_base small, each n small⟩
      · obtain ⟨c, ds, same, digit, front⟩ := ih (n / 10) (by omega)
        refine ⟨c, ds ++ [(n % 10).digitChar], ?_, digit, fun _ => front (by omega)⟩
        rw [Nat.toDigits_of_base_le (by omega) (by omega), same]
        rfl

theorem digits_toDigits_append (n : Nat) (rest : List Char) :
    digits (Nat.toDigits 10 n ++ '\x7d' :: rest) = (Nat.toDigits 10 n, '\x7d' :: rest) := by
  have all : ∀ c ∈ Nat.toDigits 10 n, c.isDigit = true := fun c mem =>
    Nat.isDigit_of_mem_toDigits (by omega) (by omega) mem
  rw [digits, List.takeWhile_append_of_pos all, List.dropWhile_append_of_pos all]
  simp

/-- What the digits of a number are read as. -/
def integer (n : Nat) : Except Error Data :=
  if longest < (Nat.toDigits 10 n).length then .error (.longInteger (Nat.toDigits 10 n).length)
  else .ok (.int n)

theorem number_toDigits_append (n : Nat) (rest : List Char) :
    number false (Nat.toDigits 10 n ++ '\x7d' :: rest) = (integer n).map (·, '\x7d' :: rest) := by
  by_cases zero : n = 0
  · subst zero
    rfl
  · have split := digits_toDigits_append n rest
    obtain ⟨c, ds, same, -, front⟩ := exists_toDigits_eq_cons n
    rw [same, List.cons_append] at split
    have value : digitsValue (c :: ds) = n := by rw [← same, digitsValue_toDigits]
    rw [same, List.cons_append, number]
    · simp only [split, integer, same, List.length_cons]
      by_cases long : longest < ds.length + 1 <;>
        simp [fraction?, exponent?, value, long, Except.map]
    · simpa using front zero

theorem scalar_toDigits_append (n : Nat) (rest : List Char) :
    scalar (Nat.toDigits 10 n ++ '\x7d' :: rest) = (integer n).map (·, '\x7d' :: rest) := by
  obtain ⟨c, ds, same, digit, -⟩ := exists_toDigits_eq_cons n
  have heads : ∀ word ∈ words, ∃ first more, word.1 = first :: more ∧ first.isDigit = false := by
    simp [words]
  have unnamed :
      words.find? (fun word => word.1.isPrefixOf (c :: (ds ++ '\x7d' :: rest))) = none := by
    rw [List.find?_eq_none]
    intro word mem begins
    obtain ⟨first, more, spelled, other⟩ := heads word mem
    rw [spelled, List.isPrefixOf_iff_prefix, List.cons_prefix_cons] at begins
    rw [begins.1, digit] at other
    cases other
  have unsigned : c ≠ '-' := by
    rintro rfl
    cases digit
  rw [← number_toDigits_append, same, List.cons_append, scalar, unnamed]
  simp [unsigned]

theorem value_toDigits_append (fuel depth n : Nat) (rest : List Char) :
    value (fuel + 1) depth (Nat.toDigits 10 n ++ '\x7d' :: rest) =
      (integer n).map (·, '\x7d' :: rest) := by
  obtain ⟨c, ds, same, digit, -⟩ := exists_toDigits_eq_cons n
  rw [← scalar_toDigits_append, same, List.cons_append, value]
  -- No string, list or record begins with a digit.
  all_goals
    rintro rest same
    cases same
    cases digit

theorem skip_toDigits_append (n : Nat) (rest : List Char) :
    skip (Nat.toDigits 10 n ++ rest) = Nat.toDigits 10 n ++ rest := by
  obtain ⟨c, ds, same, digit, -⟩ := exists_toDigits_eq_cons n
  have filled : isBlank c = false := by
    simp only [isBlank, Bool.or_eq_false_iff, beq_eq_false_iff_ne]
    refine ⟨⟨⟨?_, ?_⟩, ?_⟩, ?_⟩ <;>
    · rintro rfl
      cases digit
  rw [skip, same, List.cons_append, List.dropWhile_cons, filled]
  rfl

/-- A record that gives a scale is read unless the scale has too many digits. -/
theorem read_scaleText_toString (n : Nat) :
    read (scaleText (toString n)) =
      (integer n).map fun v => .record [(PointText.ofString "scale", v)] := by
  apply read_scaleText <;> rw [Nat.toString_eq_ofList_toDigits, String.toList_ofList]
  · exact skip_toDigits_append n _
  · exact value_toDigits_append _ _ n []

end Integers

end Chip8.Json
