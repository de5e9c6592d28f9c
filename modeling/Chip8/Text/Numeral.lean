import Chip8.Text.Digit

/-!
# Integers as people write them

An integer may stand between blanks, carry a sign and group its digits with
single underscores. Its decimal digits may come from any script. The plain form
is decimal; the marked form may name another base by `0x`, `0o` or `0b`, and then
a decimal number other than zero does not start with a zero.
-/

namespace Chip8.Text.Numeral

/-- The blanks that may stand around a number. -/
def isBlank (c : Char) : Bool :=
  let p := c.toNat
  (0x09 ≤ p && p ≤ 0x0D) || p == 0x20 || p == 0x85 || p == 0xA0 || p == 0x1680 ||
    (0x2000 ≤ p && p ≤ 0x200A) || p == 0x2028 || p == 0x2029 || p == 0x202F || p == 0x205F ||
    p == 0x3000

/-- A text without the blanks around it. -/
def strip (cs : List Char) : List Char :=
  ((cs.dropWhile isBlank).reverse.dropWhile isBlank).reverse

/-- Decimal digits of all scripts are read as ASCII digits. -/
def plain (c : Char) : Char :=
  match Digit.value? c with
  | some d => Char.ofNat ('0'.toNat + d)
  | none => c

/-- The value of a digit, letters standing for the digits past nine. -/
def digit? (c : Char) : Option Nat :=
  if '0' ≤ c ∧ c ≤ '9' then some (c.toNat - '0'.toNat)
  else if 'a' ≤ c ∧ c ≤ 'z' then some (c.toNat - 'a'.toNat + 10)
  else if 'A' ≤ c ∧ c ≤ 'Z' then some (c.toNat - 'A'.toNat + 10)
  else none

/-- The most digits that a number in base ten may have. -/
def longest : Nat := 4300

/-- The value of the digits that follow, an underscore only between two digits. -/
def continued (base : Nat) (value : Nat) : List Char → Option Nat
  | [] => some value
  | '_' :: c :: cs =>
    (digit? c).bind fun d => if d < base then continued base (value * base + d) cs else none
  | c :: cs =>
    (digit? c).bind fun d => if d < base then continued base (value * base + d) cs else none

/-- A number in the given base: at least one digit. -/
def digits? (base : Nat) (cs : List Char) : Option Nat :=
  match cs with
  | [] => none
  | '_' :: _ => none
  | _ :: _ => continued base 0 cs

/-- A number in base ten, of a bounded length. -/
def decimal? (cs : List Char) : Option Nat :=
  if longest < (cs.filter (· ≠ '_')).length then none else digits? 10 cs

/-- A number behind a mark of its base, or a decimal number. -/
def marked? (cs : List Char) : Option Nat :=
  let inBase (base : Nat) (rest : List Char) : Option Nat :=
    match rest with
    | '_' :: more => digits? base more
    | _ => digits? base rest
  match cs with
  | '0' :: 'x' :: rest | '0' :: 'X' :: rest => inBase 16 rest
  | '0' :: 'o' :: rest | '0' :: 'O' :: rest => inBase 8 rest
  | '0' :: 'b' :: rest | '0' :: 'B' :: rest => inBase 2 rest
  | '0' :: _ => (decimal? cs).bind fun n => if n = 0 then some 0 else none
  | _ => decimal? cs

/-- An optional sign in front of a number. -/
def signed (read : List Char → Option Nat) : List Char → Option Int
  | '-' :: rest => (read rest).map fun n => -(n : Int)
  | '+' :: rest => (read rest).map fun n => (n : Int)
  | cs => (read cs).map fun n => (n : Int)

/-- The integer of a text in plain form. -/
def integer? (s : String) : Option Int := signed decimal? (strip (s.toList.map plain))

/-- The integer of a text in marked form. -/
def markedInteger? (s : String) : Option Int := signed marked? (strip (s.toList.map plain))

end Chip8.Text.Numeral
