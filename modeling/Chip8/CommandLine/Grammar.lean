import Chip8.Text.Quoted
import Chip8.Text.Digit

/-!
# The grammar of command lines

A grammar names the flags of a command and its one positional argument. Every
argument is first taken for a flag, a plain argument, or the double dash behind
which all is plain. A long flag may be cut short as long as it stays unambiguous,
and its value may follow an equals sign; a value may also be glued to a short
flag, and short flags without values may be glued together.
-/

namespace Chip8.CommandLine

/-- What a flag is for. -/
inductive Key
  | help
  | verbose
  | config
  | scale
  | clock
  | color
  | noGlow
  | output
  | origin
deriving DecidableEq

/-- A flag: its spellings, and whether it takes a value. -/
structure Flag where
  key : Key
  names : List String
  takesValue : Bool

/-- The spellings of a flag in messages. -/
def Flag.title (f : Flag) : String := String.intercalate "/" f.names

/-- A fault of one argument. -/
def argumentFault (title message : String) : String := "argument " ++ title ++ ": " ++ message

/-- What a command understands. Its positional argument is one value, or a name
with everything behind it. -/
structure Grammar where
  program : String
  flags : List Flag
  positional : String
  takesRest : Bool

/-- An argument read as a flag, perhaps with a text attached to its name. There is no flag
if none has the name. -/
structure Reading where
  flag : Option Flag
  name : String
  attached : Option String

/-- What an argument may be. -/
inductive Piece
  | plain (s : String)
  | dashes
  | flag (s : String) (r : Reading)

/-- The argument that a piece stands for. -/
def Piece.text : Piece → String
  | plain s => s
  | dashes => "--"
  | flag s _ => s

/-- Whether a piece is a flag. -/
def Piece.isFlag : Piece → Bool
  | flag _ _ => true
  | _ => false

namespace Grammar

/-- The spellings of all flags, in order, each with its flag. -/
def spellings (g : Grammar) : List (String × Flag) :=
  g.flags.flatMap fun f => f.names.map fun name => (name, f)

/-- The flag of a spelling. -/
def flag? (g : Grammar) (name : String) : Option Flag :=
  (g.spellings.find? fun row => row.1 == name).map Prod.snd

/-- A text before its first equals sign, and what follows the sign if there is one. -/
def splitEquals (s : String) : String × Option String :=
  let cs := s.toList
  let front := cs.takeWhile (· ≠ '=')
  (String.ofList front, if front.length < cs.length then
    some (String.ofList (cs.drop (front.length + 1))) else none)

/-- Whether a text starts with another. -/
def startsWith (s front : String) : Bool := front.toList.isPrefixOf s.toList

/-- The flags that an argument may be meant for, none of which is spelled just so. -/
def candidates (g : Grammar) (s : String) : List Reading :=
  if startsWith s "--" then
    let (front, value) := splitEquals s
    (g.spellings.filter fun row => startsWith row.1 front).map fun row =>
      ⟨some row.2, row.1, value⟩
  else
    let short := String.ofList (s.toList.take 2)
    g.spellings.filterMap fun row =>
      if row.1 = short then
        some ⟨some row.2, row.1, some (String.ofList (s.toList.drop 2))⟩
      else if startsWith row.1 s then some ⟨some row.2, row.1, none⟩
      else none

/-- Whether a character is a decimal digit of any script. -/
def isDigit (c : Char) : Bool := (Text.Digit.value? c).isSome

/-- Whether an argument is a negative number, which is never a flag. A line break
behind the number does not count. -/
def isNegativeNumber (s : String) : Bool :=
  match s.toList with
  | '-' :: cs =>
    let body := if cs.getLast? = some '\n' then cs.dropLast else cs
    let front := body.takeWhile isDigit
    match body.drop front.length with
    | [] => !front.isEmpty
    | '.' :: behind => !behind.isEmpty && behind.all isDigit
    | _ => false
  | _ => false

/-- The reading of an argument: a flag, or `none` if it is plain. An ambiguous
argument gives the spellings that it may stand for. -/
def reading (g : Grammar) (s : String) : Except (List String) (Option Reading) :=
  if !startsWith s "-" then .ok none
  else
    match g.flag? s with
    | some f => .ok (some ⟨some f, s, none⟩)
    | none =>
      if s = "-" then .ok none
      else
        let (front, value) := splitEquals s
        match value, g.flag? front with
        | some v, some f => .ok (some ⟨some f, front, some v⟩)
        | _, _ =>
          match g.candidates s with
          | [r] => .ok (some r)
          | [] =>
            if isNegativeNumber s ∨ s.toList.contains ' ' then .ok none
            else .ok (some ⟨none, s, none⟩)
          | rs => .error (rs.map Reading.name)

/-- The pieces of the arguments, or the first ambiguous argument with the
spellings that it may stand for. -/
def pieces (g : Grammar) : List String → Except (String × List String) (List Piece)
  | [] => .ok []
  | s :: rest =>
    if s = "--" then .ok (.dashes :: rest.map .plain)
    else
      match g.reading s with
      | .error names => .error (s, names)
      | .ok r =>
        (g.pieces rest).map fun ps =>
          (match r with
            | some r => Piece.flag s r
            | none => Piece.plain s) :: ps

end Grammar

end Chip8.CommandLine
