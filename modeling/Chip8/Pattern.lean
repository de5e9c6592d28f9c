/-!
# Word patterns

A pattern fixes some nibbles of a word and leaves the others open. It is read
from a form such as `8xy4`: a decimal digit or a letter from `A` to `F` is a
fixed nibble, any other character stands for an operand.
-/

namespace Chip8

/-- The bits of an integer in two's complement that a mask selects. -/
def maskedBits (i : Int) (mask : Nat) : Nat :=
  match i with
  | .ofNat n => n &&& mask
  | .negSucc n => mask ^^^ (n &&& mask)

/-- A mask over the fixed nibbles and the value that they must have. -/
structure Pattern where
  mask : Nat
  value : Nat
deriving DecidableEq

namespace Pattern

/-- The nibble that a character of a form fixes, if it fixes one. -/
def fixedNibble? (c : Char) : Option Nat :=
  if '0' ≤ c ∧ c ≤ '9' then some (c.toNat - '0'.toNat)
  else if 'A' ≤ c ∧ c ≤ 'F' then some (c.toNat - 'A'.toNat + 10)
  else none

theorem fixedNibble?_lt {c : Char} {d : Nat} (h : fixedNibble? c = some d) : d < 16 := by
  simp only [fixedNibble?, Char.le_def, UInt32.le_iff_toNat_le, Char.toNat] at h
  split at h
  · simp only [Option.some.injEq] at h
    simp at *
    omega
  · split at h
    · simp only [Option.some.injEq] at h
      simp at *
      omega
    · cases h

/-- One more nibble at the low end, fixed or open. -/
def push (p : Pattern) (c : Char) : Pattern :=
  match fixedNibble? c with
  | some d => ⟨p.mask * 16 + 15, p.value * 16 + d⟩
  | none => ⟨p.mask * 16, p.value * 16⟩

/-- The pattern of a form, read from its first character on. -/
def ofChars (form : List Char) : Pattern := form.foldl push ⟨0, 0⟩

/-- The pattern of a form. -/
def ofForm (form : String) : Pattern := ofChars form.toList

/-- Whether an integer of any size has the fixed nibbles. -/
def accepts (p : Pattern) (i : Int) : Bool := maskedBits i p.mask == p.value

theorem ofChars_concat (form : List Char) (c : Char) :
    ofChars (form ++ [c]) = (ofChars form).push c := by
  simp [ofChars]

end Pattern

/-- The nibble of an integer at a place counted from the low end, in two's complement. -/
def nibbleAt (i : Int) (place : Nat) : Nat := (i >>> (4 * place) % 16).toNat

/-- An integer has a form if its nibbles, counted from the last character of
the form, are the digits that the form fixes. -/
def HasForm (form : List Char) (i : Int) : Prop :=
  ∀ j : Fin form.length, ∀ d, Pattern.fixedNibble? (form.get j) = some d →
    nibbleAt i (form.length - 1 - j) = d

end Chip8
