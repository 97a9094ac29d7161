import TableQuery.Json.Printer

namespace TableQuery

/-- A value that a statement binds to one of its placeholders. -/
inductive Value
  | text (s : String)
  | int (n : Int)
  | real (x : Double)
  | bool (b : Bool)
  | null
deriving DecidableEq, Repr, Inhabited

namespace Value

/-- Integers beyond 64 bits become doubles, lists and objects their compact text. -/
def ofJson : Json → Value
  | .null => null
  | .bool b => bool b
  | .int n => if isInt64 n then int n else real (Double.ofInt n)
  | .real x => real x
  | .text s => text s
  | .list items => text (Json.list items).compact
  | .object fields => text (Json.object fields).compact

/-- A double that is no finite number has no JSON form and becomes null. -/
def toJson : Value → Json
  | text s => .text s
  | int n => .int n
  | real x => if x.finite then .real x else .null
  | bool b => .bool b
  | null => .null

def isNull : Value → Bool
  | null => true
  | _ => false

theorem isNull_eq_false {v : Value} : v.isNull = false ↔ v ≠ null := by
  cases v <;> simp [isNull]

/-- The value in a message. -/
def display : Value → String
  | text s => s
  | int n => Text.intText n
  | real x => x.plainText
  | bool b => if b then "true" else "false"
  | null => "NULL"

/-- Integers, doubles and truth values as doubles. -/
def number? : Value → Option Double
  | int n => some (Double.ofInt n)
  | real x => some x
  | bool b => some (if b then Double.one else Double.zero)
  | text _ => none
  | null => none

/-- Numbers of all kinds are compared as doubles, other values for identity. -/
def looselyEq (a b : Value) : Bool :=
  match a.number?, b.number? with
  | some x, some y => x.sameNumber y
  | _, _ => a = b

example : looselyEq (bool true) (int 1) = true := by decide +kernel
example : looselyEq (text "2") (int 2) = false := by decide
example : looselyEq (int 9007199254740993) (int 9007199254740992) = true := by decide +kernel

end Value

end TableQuery
