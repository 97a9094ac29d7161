import TableQuery.Double.Basic
import TableQuery.Integer
import TableQuery.OrderedMap

namespace TableQuery

/-- A JSON value. Objects keep the order of their keys, and a number is an integer or a double
by the way it was written. -/
inductive Json
  | null
  | bool (b : Bool)
  | int (n : Int)
  | real (x : Double)
  | text (s : String)
  | list (items : List Json)
  | object (fields : List (String × Json))
deriving Inhabited

namespace Json

def isNull : Json → Bool
  | null => true
  | _ => false

/-- The text of a text. -/
def text? : Json → Option String
  | text s => some s
  | _ => none

/-- An integer of 64 bits with a sign. -/
def int64? : Json → Option Int
  | int n => if isInt64 n then some n else none
  | _ => none

/-- The value under a key of an object. -/
def field? (key : String) : Json → Option Json
  | object fields => (fields.find? (·.1 = key)).map Prod.snd
  | _ => none

def ofMap (m : OrderedMap Json) : Json :=
  object m.entries

end Json

end TableQuery
