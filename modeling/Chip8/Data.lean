import Chip8.Decimal.Layout
import Chip8.Text.Quoted

/-!
# Untyped data

The values that a settings file may hold before anything is known about them.
Whole numbers and numbers with a point or an exponent stay apart. The fields of
a record are in order and have different names.
-/

namespace Chip8

/-- A value of a settings file. -/
inductive Data
  | null
  | bool (b : Bool)
  | int (i : Int)
  | float (f : Float)
  | text (t : PointText)
  | list (items : List Data)
  | record (fields : List (PointText × Data))

namespace Data

/-- A field with a new value in its old place, or at the end if it is new. -/
def put (fields : List (PointText × Data)) (name : PointText) (value : Data) :
    List (PointText × Data) :=
  match fields with
  | [] => [(name, value)]
  | (k, v) :: rest => if k = name then (k, value) :: rest else (k, v) :: put rest name value

/-- The value of a field. -/
def get? (fields : List (PointText × Data)) (name : PointText) : Option Data :=
  (fields.find? fun field => field.1 == name).map Prod.snd

mutual

/-- The text of a value in messages. -/
def display : Data → String
  | null => "None"
  | bool true => "True"
  | bool false => "False"
  | int i => toString i
  | float f => Decimal.floatText f
  | text t => Text.Quoted.ofPoints t
  | list items => "[" ++ String.intercalate ", " (displayAll items) ++ "]"
  | record fields => "\x7b" ++ String.intercalate ", " (displayFields fields) ++ "\x7d"

/-- The texts of the items of a list. -/
def displayAll : List Data → List String
  | [] => []
  | d :: ds => display d :: displayAll ds

/-- The texts of the fields of a record, a name before its value. -/
def displayFields : List (PointText × Data) → List String
  | [] => []
  | field :: rest => displayField field :: displayFields rest

/-- The text of one field. -/
def displayField : PointText × Data → String
  | (name, value) => Text.Quoted.ofPoints name ++ ": " ++ display value

end

end Data

end Chip8
