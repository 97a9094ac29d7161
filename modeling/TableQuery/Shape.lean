import TableQuery.Json.Basic
import TableQuery.Double.Layout
import TableQuery.Text.Numeral
import TableQuery.Text.Quoted
import TableQuery.Text.Ascii

namespace TableQuery

/-- What a reader met in place of the wanted value. -/
inductive Found
  | null
  | bool (b : Bool)
  | int (n : Int)
  | real (x : Double)
  | text (s : String)
  | list
  | map
deriving DecidableEq, Repr

/-- What a reader wanted. -/
inductive Wanted
  | int64
  | real
  | text
  | bool
  | list
  | map
  | unit
  | choice
  | singleKey
  | record (name : String)
  | recordOf (name : String) (fields : Nat)
  | fewerElements
deriving DecidableEq, Repr

/-- Why a JSON value does not have the shape of a typed one. -/
inductive ShapeFault
  | wrongType (found : Found) (wanted : Wanted)
  | wrongValue (found : Found) (wanted : Wanted)
  | wrongLength (count : Nat) (wanted : Wanted)
  | missing (field : String)
  | unknownChoice (name : String) (known : List String)
deriving DecidableEq, Repr

def inTicks (s : String) : String :=
  "`" ++ s ++ "`"

namespace Found

def ofJson : Json → Found
  | .null => null
  | .bool b => bool b
  | .int n => int n
  | .real x => real x
  | .text s => text s
  | .list _ => list
  | .object _ => map

def message : Found → String
  | null => "null"
  | bool b => "boolean " ++ inTicks (if b then "true" else "false")
  | int n => "integer " ++ inTicks (Text.intText n)
  | real x => "floating point " ++ inTicks x.jsonText
  | text s => "string " ++ Text.quoted s
  | list => "sequence"
  | map => "map"

end Found

def Wanted.message : Wanted → String
  | int64 => "i64"
  | real => "f64"
  | text => "a string"
  | bool => "a boolean"
  | list => "a sequence"
  | map => "a map"
  | unit => "unit"
  | choice => "string or map"
  | singleKey => "map with a single key"
  | record name => "struct " ++ name
  | recordOf name fields =>
    "struct " ++ name ++ " with " ++ Text.intText fields ++
      (if fields = 1 then " element" else " elements")
  | fewerElements => "fewer elements in array"

namespace ShapeFault

/-- The choices as a message lists them. -/
def choiceList : List String → String
  | [] => "there are no variants"
  | [a] => "expected " ++ inTicks a
  | [a, b] => "expected " ++ inTicks a ++ " or " ++ inTicks b
  | names => "expected one of " ++ Text.commaList (names.map inTicks)

def message : ShapeFault → String
  | wrongType found wanted => "invalid type: " ++ found.message ++ ", expected " ++ wanted.message
  | wrongValue found wanted => "invalid value: " ++ found.message ++ ", expected " ++ wanted.message
  | wrongLength count wanted =>
    "invalid length " ++ Text.intText count ++ ", expected " ++ wanted.message
  | missing field => "missing field " ++ inTicks field
  | unknownChoice name known => "unknown variant " ++ inTicks name ++ ", " ++ choiceList known

end ShapeFault

namespace Shape

/-- A reader of typed values from JSON. -/
abbrev Reader (α : Type) := Json → Except ShapeFault α

def mismatch {α : Type} (wanted : Wanted) : Reader α :=
  fun j => .error (.wrongType (.ofJson j) wanted)

/-- Integers of 64 bits; a double is none even when it is whole. -/
def int64 : Reader Int
  | .int n => if isInt64 n then .ok n else .error (.wrongValue (.int n) .int64)
  | j => mismatch .int64 j

/-- Doubles, and integers as doubles. -/
def real : Reader Double
  | .real x => .ok x
  | .int n => .ok (Double.ofInt n)
  | j => mismatch .real j

def text : Reader String
  | .text s => .ok s
  | j => mismatch .text j

def bool : Reader Bool
  | .bool b => .ok b
  | j => mismatch .bool j

def map : Reader (OrderedMap Json)
  | .object fields => .ok (OrderedMap.ofList fields)
  | j => mismatch .map j

def list {α : Type} (item : Reader α) : Reader (List α)
  | .list items => items.mapM item
  | j => mismatch .list j

def option {α : Type} (item : Reader α) : Reader (Option α)
  | .null => .ok none
  | j => (item j).map some

/-- The meaning of the name of a choice. -/
def named {α : Type} (choices : List (String × α)) (name : String) : Except ShapeFault α :=
  match choices.find? (·.1 = name) with
  | some choice => .ok choice.2
  | none => .error (.unknownChoice name (choices.map Prod.fst))

/-- A choice is given by its name, or as an object that holds null under the name. -/
def choice {α : Type} (choices : List (String × α)) : Reader α
  | .text name => named choices name
  | .object [(name, content)] => do
    let chosen ← named choices name
    if content.isNull then .ok chosen else mismatch .unit content
  | .object _ => .error (.wrongValue .map .singleKey)
  | j => mismatch .choice j

/-- A field of a record: the test of its value and whether the record must have it. -/
structure Field where
  name : String
  check : Json → Except ShapeFault Unit
  required : Bool

def Field.of {α : Type} (name : String) (reader : Reader α) : Field :=
  ⟨name, fun j => (reader j).map fun _ => (), true⟩

def Field.optional {α : Type} (name : String) (reader : Reader α) : Field :=
  ⟨name, fun j => (reader j).map fun _ => (), false⟩

/-- The fields of a record in their order. -/
structure RecordShape where
  name : String
  fields : List Field

/-- The values found for the fields of a record. -/
abbrev FieldValues := List (String × Json)

/-- Each entry whose key is a field passes the test of the field; other entries do not count. -/
def RecordShape.checkEntries (shape : RecordShape) : List (String × Json) → Except ShapeFault Unit
  | [] => .ok ()
  | (key, value) :: rest => do
    match shape.fields.find? (·.name = key) with
    | some field => field.check value
    | none => pure ()
    shape.checkEntries rest

/-- The items belong to the fields in order. Fields that are not required may be left out at the
end. -/
def RecordShape.checkItems (shape : RecordShape) (count : Nat) :
    List Field → List Json → Except ShapeFault FieldValues
  | [], [] => .ok []
  | [], _ :: _ => .error (.wrongLength count .fewerElements)
  | field :: fields, item :: items => do
    field.check item
    let rest ← shape.checkItems count fields items
    pure ((field.name, item) :: rest)
  | field :: fields, [] =>
    if field.required then .error (.wrongLength count (.recordOf shape.name shape.fields.length))
    else shape.checkItems count fields []

/-- The values of the fields of a record, given as an object or as a list. -/
def RecordShape.values (shape : RecordShape) : Reader FieldValues
  | .object entries => do
    shape.checkEntries entries
    pure entries
  | .list items => shape.checkItems items.length shape.fields items
  | j => mismatch (.record shape.name) j

def FieldValues.value? (values : FieldValues) (name : String) : Option Json :=
  (values.find? (·.1 = name)).map Prod.snd

def FieldValues.required {α : Type} (values : FieldValues) (name : String) (reader : Reader α) :
    Except ShapeFault α :=
  match values.value? name with
  | some j => reader j
  | none => .error (.missing name)

def FieldValues.optional {α : Type} (values : FieldValues) (name : String) (absent : α)
    (reader : Reader α) : Except ShapeFault α :=
  match values.value? name with
  | some j => reader j
  | none => .ok absent

example : (choice [("asc", 1), ("desc", 2)] (.object [("desc", .null)])).toOption = some 2 := by
  decide +kernel

end Shape

end TableQuery
