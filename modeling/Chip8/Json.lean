import Chip8.Data

/-!
# Reading JSON

A reader of JSON texts. It also takes the words `NaN`, `Infinity` and
`-Infinity`, refuses control characters in strings, keeps whole numbers exact
and lets the last of several equal names win. A text nested deeper than the
reader goes is refused where it passes the limit, whatever follows.
-/

namespace Chip8.Json

/-- Why a text is refused. -/
inductive Error
  | malformed
  | tooDeep
  | longInteger (digits : Nat)
deriving DecidableEq

/-- The deepest nesting of lists and records. -/
def deepest : Nat := 985

/-- The most digits of a whole number. -/
def longest : Nat := 4300

/-- Blanks between the parts of a text. -/
def isBlank (c : Char) : Bool := c == ' ' || c == '\t' || c == '\n' || c == '\r'

/-- A text without the blanks at its head. -/
def skip (cs : List Char) : List Char := cs.dropWhile isBlank

/-- The value of a hexadecimal digit of either case. -/
def hexDigit? (c : Char) : Option Nat :=
  if '0' ≤ c ∧ c ≤ '9' then some (c.toNat - '0'.toNat)
  else if 'a' ≤ c ∧ c ≤ 'f' then some (c.toNat - 'a'.toNat + 10)
  else if 'A' ≤ c ∧ c ≤ 'F' then some (c.toNat - 'A'.toNat + 10)
  else none

/-- The code point of four hexadecimal digits. -/
def unit? (a b c d : Char) : Option CodePoint := do
  let a ← hexDigit? a
  let b ← hexDigit? b
  let c ← hexDigit? c
  let d ← hexDigit? d
  pure (CodePoint.ofUnit (UInt16.ofNat (((a * 16 + b) * 16 + c) * 16 + d)))

/-- The character of a one-letter escape. -/
def escaped? : Char → Option Char
  | '"' => some '"'
  | '\\' => some '\\'
  | '/' => some '/'
  | 'b' => some '\x08'
  | 'f' => some '\x0c'
  | 'n' => some '\n'
  | 'r' => some '\r'
  | 't' => some '\t'
  | _ => none

/-- The rest of a string behind its opening quote, up to the closing one. The code
points read so far come in reverse. -/
def stringBody (seen : PointText) : List Char → Except Error (PointText × List Char)
  | [] => .error .malformed
  | '"' :: rest => .ok (seen.reverse, rest)
  | '\\' :: 'u' :: a :: b :: c :: d :: rest =>
    match unit? a b c d with
    | some p => stringBody (p :: seen) rest
    | none => .error .malformed
  | '\\' :: c :: rest =>
    match escaped? c with
    | some e => stringBody (CodePoint.ofChar e :: seen) rest
    | none => .error .malformed
  | c :: rest =>
    if c.toNat < 0x20 ∨ c = '\\' then .error .malformed
    else stringBody (CodePoint.ofChar c :: seen) rest

/-- Two halves of a surrogate pair that follow each other become one code point. -/
def joinPairs : PointText → PointText
  | p :: q :: rest =>
    if p.isHigh && q.isLow then CodePoint.join p q :: joinPairs rest
    else p :: joinPairs (q :: rest)
  | short => short

/-- A string behind its opening quote. -/
def string (cs : List Char) : Except Error (PointText × List Char) := do
  let (t, rest) ← stringBody [] cs
  pure (joinPairs t, rest)

/-- The digits at the head of a text. -/
def digits (cs : List Char) : List Char × List Char :=
  (cs.takeWhile Char.isDigit, cs.dropWhile Char.isDigit)

/-- The value of decimal digits. -/
def digitsValue (ds : List Char) : Nat := ds.foldl (fun n c => n * 10 + (c.toNat - '0'.toNat)) 0

/-- The digits behind a point, if a point and at least one digit follow. -/
def fraction? : List Char → Option (List Char × List Char)
  | '.' :: rest => if (digits rest).1.isEmpty then none else some (digits rest)
  | _ => none

/-- The exponent, if a mark, perhaps a sign, and at least one digit follow. -/
def exponent? : List Char → Option (Int × List Char)
  | c :: rest =>
    if c = 'e' ∨ c = 'E' then
      let (negative, body) := match rest with
        | '-' :: more => (true, more)
        | '+' :: more => (false, more)
        | _ => (false, rest)
      let (ds, rest) := digits body
      if ds.isEmpty then none
      else some (if negative then -(digitsValue ds : Int) else digitsValue ds, rest)
    else none
  | [] => none

/-- A number behind its sign. A single zero or digits that start with no zero come
first; a fraction or an exponent makes the number a double. -/
def number (negative : Bool) (cs : List Char) : Except Error (Data × List Char) :=
  let (whole, rest) := match cs with
    | '0' :: rest => (['0'], rest)
    | _ => digits cs
  if whole.isEmpty then .error .malformed
  else
    let (behind, afterFraction) := (fraction? rest).getD ([], rest)
    let (exponent, afterExponent) := (exponent? afterFraction).getD (0, afterFraction)
    if (fraction? rest).isNone && (exponent? afterFraction).isNone then
      if longest < whole.length then .error (.longInteger whole.length)
      else
        let n : Int := digitsValue whole
        .ok (.int (if negative then -n else n), rest)
    else
      .ok (.float (Decimal.nearest negative (digitsValue (whole ++ behind))
        (exponent - behind.length)), afterExponent)

/-- The words that stand for values. -/
def words : List (List Char × Data) :=
  [("null".toList, .null), ("true".toList, .bool true), ("false".toList, .bool false),
    ("NaN".toList, .float (Float.ofBits 0x7FF8000000000000)),
    ("Infinity".toList, .float (Float.ofBits 0x7FF0000000000000)),
    ("-Infinity".toList, .float (Float.ofBits 0xFFF0000000000000))]

/-- A word or a number. -/
def scalar (cs : List Char) : Except Error (Data × List Char) :=
  match words.find? fun word => word.1.isPrefixOf cs with
  | some word => .ok (word.2, cs.drop word.1.length)
  | none =>
    match cs with
    | '-' :: rest => number true rest
    | _ => number false cs

mutual

/-- A value; `depth` more lists or records may be opened. The fuel bounds how deep
the calls go. The opening character of a list or record takes two of them, one for
the value that it is and one for what stands in it. -/
def value : Nat → Nat → List Char → Except Error (Data × List Char)
  | 0, _, _ => .error .malformed
  | fuel + 1, depth, cs =>
    match cs with
    | '"' :: rest => do
      let (t, rest) ← string rest
      pure (.text t, rest)
    | '[' :: rest =>
      match depth with
      | 0 => .error .tooDeep
      | depth + 1 =>
        match skip rest with
        | ']' :: rest => .ok (.list [], rest)
        | rest => items fuel depth [] rest
    | '\x7b' :: rest =>
      match depth with
      | 0 => .error .tooDeep
      | depth + 1 =>
        match skip rest with
        | '\x7d' :: rest => .ok (.record [], rest)
        | rest => fields fuel depth [] rest
    | _ => scalar cs

/-- The items of a list that is not empty. -/
def items : Nat → Nat → List Data → List Char → Except Error (Data × List Char)
  | 0, _, _, _ => .error .malformed
  | fuel + 1, depth, seen, cs => do
    let (item, rest) ← value fuel depth cs
    match skip rest with
    | ']' :: rest => pure (.list (item :: seen).reverse, rest)
    | ',' :: rest => items fuel depth (item :: seen) (skip rest)
    | _ => throw .malformed

/-- The fields of a record that is not empty. -/
def fields : Nat → Nat → List (PointText × Data) → List Char → Except Error (Data × List Char)
  | 0, _, _, _ => .error .malformed
  | fuel + 1, depth, seen, cs =>
    match cs with
    | '"' :: rest => do
      let (name, rest) ← string rest
      match skip rest with
      | ':' :: rest =>
        let (item, rest) ← value fuel depth (skip rest)
        match skip rest with
        | '\x7d' :: rest => pure (.record (Data.put seen name item), rest)
        | ',' :: rest => fields fuel depth (Data.put seen name item) (skip rest)
        | _ => throw .malformed
      | _ => throw .malformed
    | _ => .error .malformed

end

/-- The value of a whole text. No text takes more calls than two for each of its
characters, so the fuel never runs out. -/
def read (s : String) : Except Error Data := do
  let cs := skip s.toList
  let (data, rest) ← value (2 * cs.length + 2) deepest cs
  if (skip rest).isEmpty then pure data else throw .malformed

end Chip8.Json
