/-!
# Paths

A path is a root and a list of parts. Empty parts and single dots are dropped;
double dots are kept, because what they lead to is known to the disk alone. The
path without parts is written as a single dot.
-/

namespace Chip8

/-- The parts of a text between slashes. -/
def splitSlashes (s : String) : List String := (s.toList.splitOn '/').map String.ofList

/-- A path in its plain form. -/
structure Path where
  root : String
  parts : List String
deriving DecidableEq

namespace Path

/-- The root of a path: none, one slash, or the two slashes that stay two. -/
def rootOf (s : String) : String :=
  match s.toList with
  | '/' :: '/' :: '/' :: _ => "/"
  | '/' :: '/' :: _ => "//"
  | '/' :: _ => "/"
  | _ => ""

/-- The path of a text. -/
def ofString (s : String) : Path where
  root := rootOf s
  parts := (splitSlashes s).filter fun part => part != "" && part != "."

/-- The text of a path. -/
def text (p : Path) : String :=
  if p.root = "" ∧ p.parts = [] then "."
  else p.root ++ String.intercalate "/" p.parts

/-- The paths that lead to a path, the shortest first, and the path itself. -/
def prefixes (p : Path) : List Path :=
  (List.range p.parts.length).map fun k => { p with parts := p.parts.take (k + 1) }

/-- The last part of a path, empty if there is none. -/
def name (p : Path) : String := p.parts.getLast?.getD ""

/-- A name without what follows its last dot, unless the dot comes first or last. -/
def stemOf (name : List Char) : List Char :=
  let behind := name.reverse.takeWhile (· ≠ '.')
  let front := (name.take (name.length - behind.length - 1))
  if behind.length < name.length ∧ front ≠ [] ∧ behind ≠ [] then front else name

/-- The name of a file without its ending. -/
def stem (p : Path) : String := String.ofList (stemOf p.name.toList)

end Path

end Chip8
