import Chip8.Pattern
import Chip8.Text.Hex

/-!
# Hexadecimal numerals read back

A numeral is read from its first digit on. Reading undoes writing at every width, so
two numerals of one width are the same only if the integers are. The digits are those
that a form may fix.
-/

namespace Chip8.Text.Hex

/-- The digit of a number below sixteen. -/
def digit (d : Nat) : Char := d.digitChar.toUpper

theorem fixedNibble?_digit {d : Nat} (h : d < 16) : Pattern.fixedNibble? (digit d) = some d := by
  have digits : ∀ d : Fin 16, Pattern.fixedNibble? (digit d.val) = some d.val := by decide
  exact digits ⟨d, h⟩

/-- A character that fixes a nibble is the digit of that nibble. -/
theorem eq_digit_of_fixedNibble? {c : Char} {d : Nat} (h : Pattern.fixedNibble? c = some d) :
    c = digit d := by
  have ascii : ∀ n < 128, ∀ d ∈ Pattern.fixedNibble? (Char.ofNat n), Char.ofNat n = digit d := by
    decide
  have small : c.toNat < 128 := by
    simp only [Pattern.fixedNibble?, Char.le_def, UInt32.le_iff_toNat_le] at h
    split at h
    · next range => exact Nat.lt_of_le_of_lt range.2 (by decide)
    · split at h
      · next range => exact Nat.lt_of_le_of_lt range.2 (by decide)
      · cases h
  have found := ascii c.toNat small d
  rw [Char.ofNat_toNat] at found
  exact found h

theorem digit_injective {d e : Nat} (hd : d < 16) (he : e < 16) (same : digit d = digit e) :
    d = e := by
  have read := fixedNibble?_digit hd
  rw [same, fixedNibble?_digit he] at read
  exact (Option.some.inj read).symm

theorem digits_of_lt {n : Nat} (h : n < 16) : digits n = [digit n] := by
  rw [digits, Nat.toDigits_of_lt_base h]
  rfl

theorem digits_of_le {n : Nat} (h : 16 ≤ n) : digits n = digits (n / 16) ++ [digit (n % 16)] := by
  rw [digits, Nat.toDigits_of_base_le (by omega) h, List.map_append]
  rfl

/-- A numeral of any base is made of the digits of its base. -/
theorem exists_digitChar_of_mem_toDigits {b n : Nat} (base : 2 ≤ b) {c : Char}
    (h : c ∈ Nat.toDigits b n) : ∃ d < b, c = d.digitChar := by
  induction n using Nat.strongRecOn with
  | ind n ih =>
      by_cases small : n < b
      · rw [Nat.toDigits_of_lt_base small, List.mem_singleton] at h
        exact ⟨n, small, h⟩
      · rw [Nat.toDigits_of_base_le (by omega) (by omega), List.mem_append,
          List.mem_singleton] at h
        rcases h with front | last
        · exact ih (n / b) (Nat.div_lt_self (by omega) (by omega)) front
        · exact ⟨n % b, Nat.mod_lt n (by omega), last⟩

theorem exists_digit_of_mem_digits {n : Nat} {c : Char} (h : c ∈ digits n) :
    ∃ d < 16, c = digit d := by
  obtain ⟨lower, mem, rfl⟩ := List.mem_map.1 h
  obtain ⟨d, below, rfl⟩ := exists_digitChar_of_mem_toDigits (by omega) mem
  exact ⟨d, below, rfl⟩

theorem exists_digit_of_mem_padded {width n : Nat} {c : Char} (h : c ∈ padded width n) :
    ∃ d < 16, c = digit d := by
  rw [padded, List.leftpad, List.mem_append] at h
  rcases h with zero | inside
  · exact ⟨0, by omega, List.eq_of_mem_replicate zero⟩
  · exact exists_digit_of_mem_digits inside

/-- One more place, at the end of a numeral. -/
theorem padded_succ {width : Nat} (h : 0 < width) (n : Nat) :
    padded (width + 1) n = padded width (n / 16) ++ [digit (n % 16)] := by
  by_cases small : n < 16
  · obtain ⟨width, rfl⟩ := Nat.exists_eq_succ_of_ne_zero (by omega : width ≠ 0)
    rw [padded, padded, digits_of_lt small, digits_of_lt (by omega : n / 16 < 16),
      Nat.div_eq_of_lt small, Nat.mod_eq_of_lt small]
    simp only [List.leftpad, List.length_singleton, Nat.succ_eq_add_one, Nat.add_sub_cancel,
      List.replicate_succ']
    rfl
  · rw [padded, padded, digits_of_le (by omega)]
    simp [List.leftpad]

theorem padded_one {n : Nat} (h : n < 16) : padded 1 n = [digit n] := by
  rw [padded, digits_of_lt h]
  rfl

theorem length_padded (width : Nat) (positive : 0 < width) {n : Nat} (h : n < Nat.pow 16 width) :
    (padded width n).length = width := by
  have short : (Nat.toDigits 16 n).length ≤ width :=
    (Nat.length_toDigits_le_iff (by omega) positive).2 h
  rw [padded, List.length_leftpad, digits, List.length_map]
  omega

/-- The number that a numeral is read as. -/
def value (numeral : List Char) : Nat :=
  numeral.foldl (fun n c => n * 16 + (Pattern.fixedNibble? c).getD 0) 0

theorem value_concat (numeral : List Char) {d : Nat} (h : d < 16) :
    value (numeral ++ [digit d]) = value numeral * 16 + d := by
  simp [value, fixedNibble?_digit h]

theorem value_replicate_append (k : Nat) (numeral : List Char) :
    value (List.replicate k '0' ++ numeral) = value numeral := by
  induction k with
  | zero => simp
  | succ k ih =>
      rw [List.replicate_succ, List.cons_append]
      exact ih

theorem value_digits (n : Nat) : value (digits n) = n := by
  induction n using Nat.strongRecOn with
  | ind n ih =>
      by_cases small : n < 16
      · rw [digits_of_lt small]
        exact (value_concat [] small).trans (by simp [value])
      · rw [digits_of_le (by omega), value_concat _ (by omega), ih (n / 16) (by omega)]
        omega

theorem value_padded (width n : Nat) : value (padded width n) = n := by
  rw [padded, List.leftpad, value_replicate_append, value_digits]

/-- A character that is neither a digit nor the minus sign is in no numeral. -/
theorem not_mem_chars {c : Char} (noDigit : Pattern.fixedNibble? c = none) (noSign : c ≠ '-')
    (width : Nat) (i : Int) : c ∉ chars width i := by
  have padded : ∀ width n, c ∉ padded width n := by
    intro width n inside
    obtain ⟨d, hd, rfl⟩ := exists_digit_of_mem_padded inside
    rw [fixedNibble?_digit hd] at noDigit
    cases noDigit
  cases i with
  | ofNat n => exact padded width n
  | negSucc n =>
      rw [chars, List.mem_cons, not_or]
      exact ⟨noSign, padded (width - 1) (n + 1)⟩

theorem sign_notMem_padded (width n : Nat) : '-' ∉ padded width n := by
  intro inside
  obtain ⟨d, hd, sign⟩ := exists_digit_of_mem_padded inside
  have read := fixedNibble?_digit hd
  rw [← sign] at read
  cases read

/-- Numerals of one width are the same only if the integers are. -/
theorem chars_injective (width : Nat) : Function.Injective (chars width) := by
  intro i j same
  match i, j with
  | .ofNat m, .ofNat n =>
      have values := congrArg value same
      rw [chars, chars, value_padded, value_padded] at values
      rw [values]
  | .ofNat m, .negSucc n =>
      have sign : '-' ∈ padded width m := by
        rw [show padded width m = _ from same]
        exact List.mem_cons_self
      exact absurd sign (sign_notMem_padded width m)
  | .negSucc m, .ofNat n =>
      have sign : '-' ∈ padded width n := by
        rw [show padded width n = _ from same.symm]
        exact List.mem_cons_self
      exact absurd sign (sign_notMem_padded width n)
  | .negSucc m, .negSucc n =>
      have values := congrArg value (List.cons.inj same).2
      rw [value_padded, value_padded] at values
      rw [Nat.succ.inj values]

end Chip8.Text.Hex
