import Chip8.Storage.Path
import Chip8.Text.Quoted

/-!
# Disks

A disk holds files and directories. A path that does not start with a slash is
followed from the working directory.
-/

namespace Chip8

/-- What a name stands for. -/
inductive Node
  | file (bytes : List UInt8)
  | directory
deriving DecidableEq

/-- The files and directories of a disk, each under the parts that lead to it from
the root, and the working directory. -/
structure Disk where
  working : List String
  entries : List (List String × Node)
deriving DecidableEq

namespace Disk

/-- Why a file cannot be read or written. -/
inductive Cause
  | missing
  | isDirectory
  | notDirectory
  | nameTooLong
  | nullCharacter
deriving DecidableEq

/-- A failed access and the path as it was given. -/
structure Error where
  cause : Cause
  path : String
deriving DecidableEq

/-- The text of a cause, with its number if it has one. -/
def Cause.text : Cause → String
  | missing => "[Errno 2] No such file or directory"
  | isDirectory => "[Errno 21] Is a directory"
  | notDirectory => "[Errno 20] Not a directory"
  | nameTooLong => "[Errno 36] File name too long"
  | nullCharacter => "embedded null byte"

/-- The text of a failed access. A path that no file can have is not repeated. -/
def Error.message (e : Error) : String :=
  if e.cause = .nullCharacter then e.cause.text
  else e.cause.text ++ ": " ++ Text.Quoted.ofString e.path

/-- A disk without files, used from a directory under its root. -/
def empty : Disk := ⟨["work"], [(["work"], .directory)]⟩

/-- What stands at a place. -/
def node? (d : Disk) (place : List String) : Option Node :=
  (d.entries.find? fun entry => entry.1 == place).map Prod.snd

/-- Entries with a new node at a place, in its old position if it has one. -/
def putEntry (place : List String) (n : Node) :
    List (List String × Node) → List (List String × Node)
  | [] => [(place, n)]
  | entry :: rest => if entry.1 = place then (place, n) :: rest else entry :: putEntry place n rest

/-- The disk with a node at a place. -/
def put (d : Disk) (place : List String) (n : Node) : Disk :=
  { d with entries := putEntry place n d.entries }

/-- The disk without what stands at a place. -/
def remove (d : Disk) (place : List String) : Disk :=
  { d with entries := d.entries.filter fun entry => entry.1 != place }

theorem node?_put (d : Disk) (place place' : List String) (n : Node) :
    (d.put place n).node? place' = if place = place' then some n else d.node? place' := by
  obtain ⟨working, entries⟩ := d
  simp only [node?, put]
  induction entries with
  | nil => by_cases h : place = place' <;> simp [putEntry, h]
  | cons entry rest ih =>
    by_cases same : entry.1 = place
    · by_cases h : place = place' <;> simp [putEntry, same, h]
    · simp only [putEntry, same, if_false, List.find?_cons]
      by_cases h : entry.1 = place'
      · have : place ≠ place' := fun e => same (h.trans e.symm)
        simp [h, this]
      · have other : (entry.1 == place') = false := by simpa using h
        simp only [other]
        exact ih

/-- Where a path leads. -/
inductive Target
  | file (place : List String) (bytes : List UInt8)
  | directory
  | free (place : List String)

/-- The most bytes of a name. -/
def longestName : Nat := 255

/-- The most bytes of a path. -/
def longestPath : Nat := 4095

/-- The parts of a path followed from a directory. The root is above itself. A name that is
too long is noticed where it is looked up. -/
def walk (d : Disk) (here : List String) : List String → Except Cause Target
  | [] => .ok .directory
  | part :: rest =>
    if part = "" ∨ part = "." then walk d here rest
    else if part = ".." then walk d here.dropLast rest
    else if longestName < part.utf8ByteSize then .error .nameTooLong
    else
      match d.node? (here ++ [part]) with
      | some .directory => walk d (here ++ [part]) rest
      | some (.file bytes) =>
        if rest = [] then .ok (.file (here ++ [part]) bytes) else .error .notDirectory
      | none => if rest = [] then .ok (.free (here ++ [part])) else .error .missing

/-- Where the text of a path leads. The empty text leads nowhere, and no name has a null
character. -/
def find (d : Disk) (path : String) : Except Cause Target :=
  if path.toList.contains '\x00' then .error .nullCharacter
  else if path = "" then .error .missing
  else if longestPath < path.utf8ByteSize then .error .nameTooLong
  else d.walk (if path.toList.head? = some '/' then [] else d.working) (splitSlashes path)

/-- The bytes of a file. -/
def read (d : Disk) (path : String) : Except Error (List UInt8) :=
  match d.find path with
  | .ok (.file _ bytes) => .ok bytes
  | .ok .directory => .error ⟨.isDirectory, path⟩
  | .ok (.free _) => .error ⟨.missing, path⟩
  | .error cause => .error ⟨cause, path⟩

/-- The disk with the bytes of a file replaced, or with a new file. -/
def write (d : Disk) (path : String) (bytes : List UInt8) : Except Error Disk :=
  match d.find path with
  | .ok (.file place _) => .ok (d.put place (.file bytes))
  | .ok (.free place) => .ok (d.put place (.file bytes))
  | .ok .directory => .error ⟨.isDirectory, path⟩
  | .error cause => .error ⟨cause, path⟩

/-- The parts of all directories that lead to a place. -/
def above (place : List String) : List (List String) :=
  (List.range (place.length - 1)).map fun k => place.take (k + 1)

/-- The place that a path names: double dots go up, whatever is there. -/
def placeOf (d : Disk) (path : Path) : List String :=
  path.parts.foldl (fun place part => if part = ".." then place.dropLast else place ++ [part])
    (if path.root = "" then d.working else [])

/-- The disk with a node and the directories that lead to it. -/
def install (d : Disk) (path : String) (n : Node) : Disk :=
  let place := d.placeOf (Path.ofString path)
  ((above place).foldl (fun d p => d.put p .directory) d).put place n

/-- The disk with a file deleted. -/
def delete (d : Disk) (path : String) : Except Error Disk :=
  match d.find path with
  | .ok (.file place _) => .ok (d.remove place)
  | .ok .directory => .error ⟨.isDirectory, path⟩
  | .ok (.free _) => .error ⟨.missing, path⟩
  | .error cause => .error ⟨cause, path⟩

end Disk

end Chip8
