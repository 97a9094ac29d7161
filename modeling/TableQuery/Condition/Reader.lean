import TableQuery.Condition.Basic
import TableQuery.DateRange

namespace TableQuery.Condition

/-- The members of a list, or the value alone. -/
def memberValues : Json → List Value
  | .list items => items.map Value.ofJson
  | j => [Value.ofJson j]

def pairValues (operator : String) : Json → Except InvalidInput (Value × Value)
  | .list [low, high] => .ok (.ofJson low, .ofJson high)
  | _ => .error (.pairExpected operator)

/-- A text as it is, any other value in its compact text. -/
def searchText : Json → String
  | .text s => s
  | j => j.compact

/-- A pair, or a text that writes a range of days. -/
def rangeValues (operator : String) : Json → Except InvalidInput (Value × Value)
  | .text s =>
    match DateRange.read? s with
    | some range => .ok (.text range.start, .text range.finish)
    | none => .error (.dateRange s)
  | j => pairValues operator j

def relationName (operator : String) (entry : Json) : Except InvalidInput String :=
  match (entry.field? "relationship_name").bind Json.text? with
  | some name => .ok name
  | none => .error (.relationshipMissing operator)

/-- How the operators that are no comparisons read their value. -/
inductive Operand
  | members (predicate : List Value → Predicate)
  | pair (predicate : Value → Value → Predicate)
  | value (predicate : Value → Predicate)
  | search (predicate : String → Predicate)
  | nothing (predicate : Predicate)
  | relatedValue
  | relatedSearch
  | relatedRange

/-- The operators by name. -/
def operators : List (String × Operand) :=
  [("where_in", .members .member), ("or_where_in", .members .orMember),
   ("where_not_in", .members .notMember), ("or_where_not_in", .members .orNotMember),
   ("where_between", .pair .between), ("or_where_between", .pair .orBetween),
   ("where_not_between", .pair .notBetween), ("or_where_not_between", .pair .orNotBetween),
   ("where_null", .nothing .isNull), ("or_where_null", .nothing .orNull),
   ("where_not_null", .nothing .notNull), ("or_where_not_null", .nothing .orNotNull),
   ("or_where", .value .orEq), ("where_date", .value .date),
   ("where_date_less", .value .dateUntil), ("where_like", .search .like),
   ("where_like_or_where", .search .orLike), ("where_has", .relatedValue),
   ("where_has_like", .relatedSearch), ("where_has_like_between", .relatedRange),
   ("where_in_column_or_null", .members .memberOrNull),
   ("where_in_column_and_not_null", .members .orMemberNotNull),
   ("case_where_null_or_between", .value .activeOn)]

def Operand.read (operator : String) (given entry : Json) : Operand → Except InvalidInput Predicate
  | members predicate => .ok (predicate (memberValues given))
  | pair predicate => (pairValues operator given).map fun (low, high) => predicate low high
  | value predicate => .ok (predicate (.ofJson given))
  | search predicate => .ok (predicate (searchText given))
  | nothing predicate => .ok predicate
  | relatedValue => (relationName operator entry).map fun name => .has name (.ofJson given)
  | relatedSearch => (relationName operator entry).map fun name => .hasLike name (searchText given)
  | relatedRange => do
    let (low, high) ← rangeValues operator given
    let name ← relationName operator entry
    pure (.hasBetween name low high)

/-- The predicate of an operator with its value. What is no operator's name must be the word of a
comparison. -/
def readPredicate (operator : String) (value entry : Json) : Except InvalidInput Predicate :=
  match operators.find? (·.1 = operator) with
  | some found => found.2.read operator value entry
  | none => (Comparison.read operator).map fun op => .compare op (.ofJson value)

/-- An entry whose value is missing or null has no predicate, and its operator is not looked at. -/
def readEntry (column : String) (entry : Json) : Except InvalidInput (Option Predicate) :=
  match entry.field? "value" with
  | none => .ok none
  | some .null => .ok none
  | some value =>
    match (entry.field? "operator").bind Json.text? with
    | some operator => (readPredicate operator value entry).map some
    | none => .error (.operatorMissing column)

def readEntries : List (String × Json) → Except InvalidInput Condition
  | [] => .ok []
  | (column, entry) :: rest => do
    let predicate ← readEntry column entry
    let rest ← readEntries rest
    pure ((column, predicate) :: rest)

/-- A condition in its JSON form: null, or an object of entries by column. The first entry with a
fault decides. -/
def ofJson : Json → Except InvalidInput Condition
  | .null => .ok []
  | .object entries => readEntries entries
  | _ => .error .conditionNoObject

end TableQuery.Condition
