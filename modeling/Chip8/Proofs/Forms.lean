import Chip8.Pattern
import Chip8.Proofs.Numerals
import Mathlib.Data.Int.Bitwise
import Mathlib.Data.List.Induction

/-!
# Patterns and forms

A pattern is read from its form one character at a time, by shifting a mask and a
value. It accepts exactly the integers whose nibbles are the digits that the form
fixes, whatever the size and the sign of the integer. Mask and value have no more
nibbles than the form has characters, and the value has no bit outside of the mask.

## Implementation notes

The bits of a negative integer are those of its complement turned over. Both
cases are split into the last nibble and the rest, so that the inductions below
never look at single bits.
-/

namespace Chip8

private theorem and_wide (a m : Nat) : a &&& (m * 16 + 15) = (a / 16 &&& m) * 16 + a % 16 := by
  have quotient : (a &&& (m * 16 + 15)) / 2 ^ 4 = a / 16 &&& m := by
    rw [Nat.and_div_two_pow, show (m * 16 + 15) / 2 ^ 4 = m by omega]
  have remainder : (a &&& (m * 16 + 15)) % 2 ^ 4 = a % 16 := by
    rw [Nat.and_mod_two_pow, show (m * 16 + 15) % 2 ^ 4 = 2 ^ 4 - 1 by omega,
      Nat.and_two_pow_sub_one_eq_mod, Nat.mod_mod]
  omega

private theorem and_open (a m : Nat) : a &&& (m * 16) = (a / 16 &&& m) * 16 := by
  have quotient : (a &&& (m * 16)) / 2 ^ 4 = a / 16 &&& m := by
    rw [Nat.and_div_two_pow, show m * 16 / 2 ^ 4 = m by omega]
  have remainder : (a &&& (m * 16)) % 2 ^ 4 = 0 := by
    rw [Nat.and_mod_two_pow, show m * 16 % 2 ^ 4 = 0 by omega, Nat.and_zero]
  omega

private theorem xor_nibbles (a b r s : Nat) (hr : r < 16) (hs : s < 16) :
    (a * 16 + r) ^^^ (b * 16 + s) = (a ^^^ b) * 16 + (r ^^^ s) := by
  have quotient : ((a * 16 + r) ^^^ (b * 16 + s)) / 2 ^ 4 = a ^^^ b := by
    rw [Nat.xor_div_two_pow, show (a * 16 + r) / 2 ^ 4 = a by omega,
      show (b * 16 + s) / 2 ^ 4 = b by omega]
  have remainder : ((a * 16 + r) ^^^ (b * 16 + s)) % 2 ^ 4 = r ^^^ s := by
    rw [Nat.xor_mod_two_pow, show (a * 16 + r) % 2 ^ 4 = r by omega,
      show (b * 16 + s) % 2 ^ 4 = s by omega]
  omega

private theorem fifteen_xor : ∀ r : Fin 16, 15 ^^^ r.val = 15 - r.val := by decide

/-- The floor of a sixteenth of a negative integer, in terms of its complement. -/
private theorem negSucc_ediv (n : Nat) : Int.negSucc n / 16 = Int.negSucc (n / 16) := by
  omega

/-- A mask that ends in a fixed nibble selects that nibble and the bits of the rest. -/
theorem maskedBits_wide (i : Int) (m : Nat) :
    maskedBits i (m * 16 + 15) = maskedBits (i / 16) m * 16 + (i % 16).toNat := by
  cases i with
  | ofNat n => exact and_wide n m
  | negSucc n =>
      have turned : 15 ^^^ n % 16 = 15 - n % 16 := fifteen_xor ⟨n % 16, by omega⟩
      rw [negSucc_ediv]
      simp only [maskedBits, and_wide]
      rw [xor_nibbles _ _ _ _ (by omega) (by omega), turned]
      omega

/-- A mask that ends in an open nibble selects the bits of the rest. -/
theorem maskedBits_open (i : Int) (m : Nat) :
    maskedBits i (m * 16) = maskedBits (i / 16) m * 16 := by
  cases i with
  | ofNat n => exact and_open n m
  | negSucc n =>
      rw [negSucc_ediv]
      have shifted := xor_nibbles m (n / 16 &&& m) 0 0 (by omega) (by omega)
      simpa only [maskedBits, and_open, Nat.add_zero, Nat.xor_zero] using shifted

theorem nibbleAt_zero (i : Int) : nibbleAt i 0 = (i % 16).toNat := by
  simp [nibbleAt]

theorem nibbleAt_ediv (i : Int) (place : Nat) :
    nibbleAt (i / 16) place = nibbleAt i (place + 1) := by
  have shifted : i / 16 = i >>> (4 : Nat) := (Int.shiftRight_eq_div_pow i 4).symm
  calc
    nibbleAt (i / 16) place = (i >>> (4 : Nat) >>> (4 * place) % 16).toNat := by
      rw [nibbleAt, shifted]
    _ = (i >>> (4 + 4 * place) % 16).toNat := by rw [Int.shiftRight_add]
    _ = nibbleAt i (place + 1) := by rw [nibbleAt, Nat.mul_succ, Nat.add_comm 4]

namespace Pattern

/-- One more character asks for one more nibble at the low end. -/
theorem accepts_push (p : Pattern) (c : Char) (i : Int) :
    (p.push c).accepts i = true ↔
      p.accepts (i / 16) = true ∧ ∀ d, fixedNibble? c = some d → (i % 16).toNat = d := by
  cases h : fixedNibble? c with
  | none =>
      simp only [push, h, accepts, maskedBits_open, beq_iff_eq, reduceCtorEq, false_implies,
        implies_true, and_true]
      omega
  | some d =>
      have bound := fixedNibble?_lt h
      simp only [push, h, accepts, maskedBits_wide, beq_iff_eq, Option.some.injEq, forall_eq']
      omega

end Pattern

/-- A form with one more character is asked of the integer without its last nibble. -/
theorem hasForm_concat (form : List Char) (c : Char) (i : Int) :
    HasForm (form ++ [c]) i ↔
      HasForm form (i / 16) ∧ ∀ d, Pattern.fixedNibble? c = some d → (i % 16).toNat = d := by
  have length : (form ++ [c]).length = form.length + 1 := by
    rw [List.length_append, List.length_singleton]
  constructor
  · intro h
    constructor
    · intro j d fixed
      have inside : j.val < (form ++ [c]).length := by omega
      have same : (form ++ [c]).get ⟨j, inside⟩ = form.get j := by simp
      have place : (form ++ [c]).length - 1 - j.val = form.length - 1 - j.val + 1 := by omega
      rw [nibbleAt_ediv, ← place]
      exact h ⟨j, inside⟩ d (same ▸ fixed)
    · intro d fixed
      have inside : form.length < (form ++ [c]).length := by omega
      have last := h ⟨form.length, inside⟩ d (by simpa using fixed)
      simpa [nibbleAt_zero] using last
  · rintro ⟨rest, last⟩ ⟨j, inside⟩ d fixed
    rw [length] at inside
    by_cases front : j < form.length
    · have place : (form ++ [c]).length - 1 - j = form.length - 1 - j + 1 := by omega
      rw [place, ← nibbleAt_ediv]
      exact rest ⟨j, front⟩ d (by simpa [List.getElem_append_left front] using fixed)
    · obtain rfl : j = form.length := by omega
      have place : (form ++ [c]).length - 1 - form.length = 0 := by omega
      rw [place, nibbleAt_zero]
      exact last d (by simpa using fixed)

/-- The pattern of a form accepts exactly the integers that have the form. -/
theorem Pattern.accepts_ofChars_iff (form : List Char) (i : Int) :
    (Pattern.ofChars form).accepts i = true ↔ HasForm form i := by
  induction form using List.reverseRecOn generalizing i with
  | nil => simp [Pattern.ofChars, Pattern.accepts, HasForm, maskedBits]; cases i <;> simp
  | append_singleton form c ih =>
      rw [Pattern.ofChars_concat, Pattern.accepts_push, ih, hasForm_concat]

/-- The bits that a mask selects are those of the bitwise conjunction of integers. -/
theorem maskedBits_eq_land (i : Int) (m : Nat) : (maskedBits i m : Int) = i.land m := by
  cases i with
  | ofNat n => rfl
  | negSucc n =>
      have cleared : m ^^^ (n &&& m) = m.ldiff n := by
        apply Nat.eq_of_testBit_eq
        intro place
        rw [Nat.testBit_xor, Nat.testBit_and, Nat.testBit_ldiff]
        cases m.testBit place <;> cases n.testBit place <;> rfl
      exact congrArg Nat.cast cleared

theorem nibbleAt_eq_emod (i : Int) (place : Nat) : (nibbleAt i place : Int) = i / 16 ^ place % 16 := by
  have power : ((2 ^ (4 * place) : Nat) : Int) = 16 ^ place := by
    rw [Nat.pow_mul]
    norm_cast
  rw [nibbleAt, Int.shiftRight_eq_div_pow, power]
  exact Int.toNat_of_nonneg (Int.emod_nonneg _ (by omega))

namespace Pattern

/-- A pattern of some number of nibbles, without a bit of the value outside of the mask. -/
structure Spans (p : Pattern) (nibbles : Nat) : Prop where
  masked : p.value &&& p.mask = p.value
  mask_lt : p.mask < 16 ^ nibbles

theorem Spans.value_lt {p : Pattern} {nibbles : Nat} (h : p.Spans nibbles) :
    p.value < 16 ^ nibbles := by
  have below : p.value &&& p.mask ≤ p.mask := Nat.and_le_right
  rw [h.masked] at below
  exact Nat.lt_of_le_of_lt below h.mask_lt

theorem Spans.push {p : Pattern} {nibbles : Nat} (h : p.Spans nibbles) (c : Char) :
    (p.push c).Spans (nibbles + 1) := by
  have room := h.mask_lt
  cases fixed : fixedNibble? c with
  | none =>
      have quotient : p.value * 16 / 16 = p.value := by omega
      constructor
      · simp only [Pattern.push, fixed]
        rw [and_open, quotient, h.masked]
      · simp only [Pattern.push, fixed]
        rw [Nat.pow_succ]
        omega
  | some d =>
      have small := fixedNibble?_lt fixed
      have quotient : (p.value * 16 + d) / 16 = p.value := by omega
      constructor
      · simp only [Pattern.push, fixed]
        rw [and_wide, quotient, h.masked]
        omega
      · simp only [Pattern.push, fixed]
        rw [Nat.pow_succ]
        omega

theorem spans_ofChars (form : List Char) : (ofChars form).Spans form.length := by
  induction form using List.reverseRecOn with
  | nil => exact ⟨rfl, Nat.one_pos⟩
  | append_singleton form c ih =>
      rw [ofChars_concat, List.length_append, List.length_singleton]
      exact ih.push c

/-- The characters that fix a nibble, each at the place of its nibble. -/
def hexDigits : List Char := "0123456789ABCDEF".toList

theorem fixedNibble?_eq_some_iff {c : Char} {d : Nat} :
    fixedNibble? c = some d ↔ hexDigits[d]? = some c := by
  have listed : ∀ d : Fin 16, hexDigits[d.val]? = some (Text.Hex.digit d.val) := by decide
  constructor
  · intro fixed
    rw [Text.Hex.eq_digit_of_fixedNibble? fixed]
    exact listed ⟨d, fixedNibble?_lt fixed⟩
  · intro digit
    have below : d < 16 := (List.getElem?_eq_some_iff.1 digit).1
    obtain rfl : Text.Hex.digit d = c := Option.some.inj ((listed ⟨d, below⟩).symm.trans digit)
    exact Text.Hex.fixedNibble?_digit below

/-- The bits under the mask of a form are its value exactly for the integers that have, at the
place of each digit of the form, that digit as their nibble. No other character asks for anything,
and mask and value have no more nibbles than the form has characters. -/
theorem land_mask_eq_value_iff (form : String) (i : Int) :
    let p := ofForm form
    let chars := form.toList
    (i.land p.mask = p.value ↔ ∀ (j : Nat) (c : Char) (d : Nat),
      chars[j]? = some c → hexDigits[d]? = some c → i / 16 ^ (chars.length - 1 - j) % 16 = d) ∧
    (p.accepts i = true ↔ i.land p.mask = p.value) ∧
    p.value &&& p.mask = p.value ∧ p.mask < 16 ^ chars.length ∧ p.value < 16 ^ chars.length := by
  intro p chars
  have accepted : p.accepts i = true ↔ i.land p.mask = p.value := by
    rw [accepts, beq_iff_eq, ← maskedBits_eq_land, Int.natCast_inj]
  have spans : p.Spans chars.length := spans_ofChars chars
  refine ⟨?_, accepted, spans.masked, spans.mask_lt, spans.value_lt⟩
  rw [← accepted]
  apply (accepts_ofChars_iff chars i).trans
  constructor
  · intro h j c d here digit
    obtain ⟨inside, rfl⟩ := List.getElem?_eq_some_iff.1 here
    rw [← nibbleAt_eq_emod, h ⟨j, inside⟩ d (fixedNibble?_eq_some_iff.2 digit)]
  · intro h j d fixed
    have nibble := h j _ d (List.getElem?_eq_getElem j.isLt) (fixedNibble?_eq_some_iff.1 fixed)
    rw [← nibbleAt_eq_emod] at nibble
    exact Int.ofNat.inj nibble

end Pattern

end Chip8
