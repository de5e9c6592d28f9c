import Chip8.CommandLine.Grammar

/-!
# Scanning a command line

A scan goes through the pieces of a command line from left to right. It lists
what it finds in order, up to the end or to the first fault of the line itself;
whether the values make sense is for its reader to say. Arguments that have no
place are left over.
-/

namespace Chip8.CommandLine

/-- What is found in a command line. A flag that takes a value has none if only a double
dash was attached to it. -/
inductive Found
  | flag (f : Flag) (value : Option String)
  | positional (values : List String)

/-- The outcome of a scan: what was found, and the leftovers or a message. -/
structure Scan where
  found : List Found
  outcome : Except String (List String)

/-- The fault of a value that a flag does not take. -/
def ignoredValue (f : Flag) (value : String) : String :=
  argumentFault f.title ("ignored explicit argument " ++ Text.Quoted.ofString value)

/-- The fault of a flag without its value. -/
def missingValue (f : Flag) : String := argumentFault f.title "expected one argument"

namespace Grammar

/-- What one argument with a flag amounts to: flags, and perhaps a last flag that takes
its value from the next argument. -/
structure Cluster where
  found : List Found
  waiting : Option Flag

/-- A flag whose value, if any, comes in the next argument. -/
def Cluster.alone (before : List Found) (f : Flag) : Cluster :=
  if f.takesValue then ⟨before, some f⟩ else ⟨before ++ [.flag f none], none⟩

/-- The value in a text attached to a flag; a double dash is no value. -/
def attachedValue (s : String) : Option String := if s = "--" then none else some s

/-- A flag of the given name and the characters attached to it, which are its value or
further short flags, one a character. -/
def cluster (g : Grammar) (before : List Found) (f : Flag) (name : String) :
    List Char → Except String Cluster
  | [] => .ok (Cluster.alone before f)
  | c :: rest =>
    let attached := String.ofList (c :: rest)
    if f.takesValue then .ok ⟨before ++ [.flag f (attachedValue attached)], none⟩
    else if startsWith name "--" then .error (ignoredValue f attached)
    else
      let next := String.ofList ['-', c]
      match g.flag? next with
      | none => .error (ignoredValue f attached)
      | some h => g.cluster (before ++ [.flag f none]) h next rest

/-- What an argument with a flag amounts to. An empty text behind an equals sign is a
value too. -/
def clusterAt (g : Grammar) (f : Flag) (r : Reading) : Except String Cluster :=
  match r.attached with
  | none => .ok (Cluster.alone [] f)
  | some attached =>
    if attached.isEmpty then
      if f.takesValue then .ok ⟨[.flag f (some "")], none⟩ else .error (ignoredValue f "")
    else g.cluster [] f r.name attached.toList

/-- The positional argument at the head of the pieces, and the pieces behind it. A
double dash beside its value does not count as a value. -/
def positional? (g : Grammar) (ps : List Piece) : Option (List String × List Piece) :=
  match ps with
  | .plain s :: rest =>
    if g.takesRest then some (s :: rest.map Piece.text, [])
    else
      match rest with
      | .dashes :: rest => some ([s], rest)
      | _ => some ([s], rest)
  | .dashes :: .plain s :: rest =>
    if g.takesRest then some ("--" :: s :: rest.map Piece.text, []) else some ([s], rest)
  | _ => none

/-- The flag at the head of the pieces with its value, and the pieces behind them. -/
def flagAt (g : Grammar) (s : String) (r : Reading) (rest : List Piece) :
    Except String (List Found × List String × List Piece) :=
  match r.flag with
  | none => .ok ([], [s], rest)
  | some f =>
    match g.clusterAt f r with
    | .error message => .error message
    | .ok c =>
      match c.waiting, rest with
      | none, _ => .ok (c.found, [], rest)
      | some f, .plain value :: rest => .ok (c.found ++ [Found.flag f (some value)], [], rest)
      | some f, _ => .error (missingValue f)

/-- The scan of pieces. `pending` tells whether the positional argument is still to
come; the fuel bounds the number of steps, of which every one takes a piece. -/
def scanPieces (g : Grammar) : Nat → Bool → List Found → List String → List Piece → Scan
  | 0, _, found, extras, _ => ⟨found, .ok extras⟩
  | fuel + 1, pending, found, extras, ps =>
    match ps with
    | .flag s r :: rest =>
      match g.flagAt s r rest with
      | .error message => ⟨found, .error message⟩
      | .ok (more, left, rest) =>
        g.scanPieces fuel pending (found ++ more) (extras ++ left) rest
    | _ =>
      match if pending then g.positional? ps else none with
      | some (values, rest) =>
        g.scanPieces fuel false (found ++ [.positional values]) extras rest
      | none =>
        let before := ps.takeWhile fun p => !p.isFlag
        match ps.drop before.length with
        | [] => ⟨found, .ok (extras ++ before.map Piece.text)⟩
        | rest => g.scanPieces fuel pending found (extras ++ before.map Piece.text) rest

/-- The message about an ambiguous argument. -/
def ambiguous (s : String) (names : List String) : String :=
  "ambiguous option: " ++ s ++ " could match " ++ String.intercalate ", " names

/-- The scan of a command line. -/
def scan (g : Grammar) (args : List String) : Scan :=
  match g.pieces args with
  | .error (s, names) => ⟨[], .error (ambiguous s names)⟩
  | .ok ps => g.scanPieces (2 * ps.length + 1) true [] [] ps

end Grammar

end Chip8.CommandLine
