import Chip8.Settings.Check
import Chip8.Json
import Chip8.Storage.Disk

/-!
# Settings from files and changes

A settings file is a record of fields in JSON, laid over the default settings.
Settings in use are changed by a record in which nothing counts as absent.
-/

namespace Chip8.Settings

/-- The name by which settings speak of themselves; a change cannot give it. -/
def ownName : String := "self"

/-- Why settings cannot be changed. -/
inductive ChangeError
  | reservedName
  | reservedField
  | unknownName (name : PointText)
  | settings (e : Error)

/-- The text of a refused change. -/
def ChangeError.message : ChangeError → PointText
  | reservedName =>
    PointText.ofString ("Settings.replace() got multiple values for argument '" ++ ownName ++ "'")
  | reservedField =>
    PointText.ofString ("Settings.__init__() got multiple values for argument '" ++ ownName ++ "'")
  | unknownName name =>
    PointText.ofString "Settings.__init__() got an unexpected keyword argument '" ++ name ++
      PointText.ofString "'"
  | settings e => PointText.ofString e.message

/-- Whether a value stands for nothing. -/
def isAbsent : Data → Bool
  | .null => true
  | _ => false

/-- The settings with some fields changed. Absent values are passed over, then the
first unknown name is refused, then the outcome is checked as a whole. -/
def replace (s : Settings) (changes : List (PointText × Data)) : Except ChangeError Settings :=
  let present := changes.filter fun change => !isAbsent change.2
  if changes.any fun change => change.1 == PointText.ofString ownName then .error .reservedName
  else
    match present.find? fun change => (Field.ofName? change.1).isNone with
    | some change => .error (.unknownName change.1)
    | none =>
      match check (s.draft.override present) with
      | .ok settings => .ok settings
      | .error e => .error (.settings e)

/-- Why a name cannot be given, if it cannot. -/
def nameError? (name : PointText) : Option ChangeError :=
  if name = PointText.ofString ownName then some .reservedField
  else if (Field.ofName? name).isNone then some (.unknownName name)
  else none

/-- The default settings with some fields given, absent values included. The first name
that cannot be given is refused, then the outcome is checked as a whole. -/
def ofFields (fields : List (PointText × Data)) : Except ChangeError Settings :=
  match fields.findSome? fun field => nameError? field.1 with
  | some e => .error e
  | none =>
    match check (default.draft.override fields) with
    | .ok settings => .ok settings
    | .error e => .error (.settings e)

/-- Why a settings file is refused. -/
inductive FileError
  | disk (e : Disk.Error)
  | encoding
  | json (e : Json.Error)
  | notRecord (path : String)
  | unknownNames (path : String) (names : List PointText)
  | settings (e : Error)

/-- Texts set apart by commas. -/
def commaList : List PointText → PointText
  | [] => []
  | [t] => t
  | t :: rest => t ++ PointText.ofString ", " ++ commaList rest

/-- The text of a refused settings file. -/
def FileError.message : FileError → PointText
  | disk e => PointText.ofString e.message
  | encoding => PointText.ofString "the settings file is not UTF-8 text"
  | json .malformed => PointText.ofString "the settings file is not JSON text"
  | json .tooDeep => PointText.ofString "the settings file is nested too deeply"
  | json (.longInteger digits) =>
    PointText.ofString ("Exceeds the limit (" ++ toString Json.longest ++
      " digits) for integer string conversion: value has " ++ toString digits ++
      " digits; use sys.set_int_max_str_digits() to increase the limit")
  | notRecord path => PointText.ofString (path ++ ": expected a JSON object")
  | unknownNames path names => PointText.ofString (path ++ ": unknown settings ") ++ commaList names
  | settings e => PointText.ofString e.message

/-- The settings that a record lays over the defaults. -/
def ofRecord (path : String) (fields : List (PointText × Data)) : Except FileError Settings :=
  match (fields.map Prod.fst).filter fun name => (Field.ofName? name).isNone with
  | [] =>
    match check (default.draft.override fields) with
    | .ok settings => .ok settings
    | .error e => .error (.settings e)
  | unknown => .error (.unknownNames path (unknown.mergeSort PointText.le))

/-- The text of bytes in UTF-8. -/
def decodeUtf8 (bytes : List UInt8) : Option String := String.fromUTF8? ⟨bytes.toArray⟩

/-- The settings in the bytes of a file. -/
def ofBytes (path : String) (bytes : List UInt8) : Except FileError Settings :=
  match decodeUtf8 bytes with
  | none => .error .encoding
  | some s =>
    match Json.read s with
    | .error e => .error (.json e)
    | .ok (.record fields) => ofRecord path fields
    | .ok _ => .error (.notRecord path)

/-- The settings in a file. -/
def ofFile (d : Disk) (path : String) : Except FileError Settings :=
  match d.read path with
  | .error e => .error (.disk e)
  | .ok bytes => ofBytes path bytes

end Chip8.Settings
