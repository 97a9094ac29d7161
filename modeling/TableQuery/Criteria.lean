import TableQuery.Comparison
import TableQuery.Pattern
import TableQuery.Relation
import TableQuery.Value

namespace TableQuery

/-- How a clause is joined to the clauses before it. -/
inductive Connector
  | and
  | or
deriving DecidableEq, Repr

def Connector.text : Connector → String
  | and => " AND "
  | or => " OR "

/-- A test of one row. Columns are written into the statement as they are. -/
inductive Test
  | raw (sql : String) (values : List Value)
  | compare (column : String) (op : Comparison) (value : Value)
  | member (column : String) (values : List Value) (negated : Bool)
  | between (column : String) (low high : Value) (negated : Bool)
  | isNull (column : String) (negated : Bool)
  | date (column : String) (op : Comparison) (value : Value)
  | contains (column : String) (text : String)
  /-- The row of the table had entered and not yet left on the day. -/
  | activeOn (table : String) (day : Value)
  | group (clauses : List (Connector × Test))
  /-- Some row of the relation, seen from a row of `parent`, meets the clauses. -/
  | has (parent : String) (relation : Relation) (clauses : List (Connector × Test))

abbrev Clause := Connector × Test

/-- Clauses in the order in which they were added. The connector of the first is not used. -/
abbrev Criteria := List Clause

namespace Test

/-- The first day of the row's activity is not after the placeholder's. -/
def enteredText (table : String) : String :=
  "DATE(" ++ table ++ ".entry_at) <= ?"

def activeOnText (table : String) : String :=
  "(CASE WHEN " ++ table ++ ".leave_at IS NOT NULL THEN " ++ enteredText table ++
    " AND DATE(" ++ table ++ ".leave_at) >= ? ELSE " ++ enteredText table ++ " END)"

/-- The rows of the relation that belong to the parent row, up to the end of that test. -/
def hasText (parent : String) (relation : Relation) : String :=
  "EXISTS (SELECT 1 FROM " ++ relation.table ++ " WHERE " ++ relation.table ++ "." ++
    relation.relatedKey ++ " = " ++ parent ++ "." ++ relation.parentKey

def memberText (column : String) (count : Nat) (negated : Bool) : String :=
  if count = 0 then (if negated then "1 = 1" else "0 = 1")
  else column ++ (if negated then " NOT IN (" else " IN (") ++ Text.placeholders count ++ ")"

def compareText (column : String) (op : Comparison) (value : Value) : String :=
  match op, value with
  | .eq, .null => column ++ " IS NULL"
  | .ne, .null => column ++ " IS NOT NULL"
  | op, _ => column ++ " " ++ op.sign ++ " ?"

/-- Equality with null is a test for null and binds nothing. -/
def compareValues (op : Comparison) (value : Value) : List Value :=
  match op, value with
  | .eq, .null => []
  | .ne, .null => []
  | _, value => [value]

end Test

mutual

def Test.text : Test → String
  | .raw sql _ => sql
  | .compare column op value => Test.compareText column op value
  | .member column values negated => Test.memberText column values.length negated
  | .between column _ _ negated =>
    column ++ (if negated then " NOT BETWEEN ? AND ?" else " BETWEEN ? AND ?")
  | .isNull column negated => column ++ (if negated then " IS NOT NULL" else " IS NULL")
  | .date column op _ => "DATE(" ++ column ++ ") " ++ op.sign ++ " ?"
  | .contains column _ => column ++ " LIKE ? ESCAPE '\\'"
  | .activeOn table _ => Test.activeOnText table
  | .group clauses => "(" ++ Criteria.text clauses ++ ")"
  | .has parent relation clauses =>
    Test.hasText parent relation ++
      (if clauses.isEmpty then ")" else " AND (" ++ Criteria.text clauses ++ "))")

/-- The clauses one after another, with the connectors of all but the first. -/
def Criteria.text : List (Connector × Test) → String
  | [] => ""
  | (_, test) :: rest => test.text ++ Criteria.restText rest

def Criteria.restText : List (Connector × Test) → String
  | [] => ""
  | (connector, test) :: rest => connector.text ++ test.text ++ Criteria.restText rest

end

mutual

/-- The values for the placeholders of a test, in the order of its text. -/
def Test.bindings : Test → List Value
  | .raw _ values => values
  | .compare _ op value => Test.compareValues op value
  | .member _ values _ => values
  | .between _ low high _ => [low, high]
  | .isNull _ _ => []
  | .date _ _ value => [value]
  | .contains _ text => [.text (containsPattern text)]
  | .activeOn _ day => [day, day, day]
  | .group clauses => Criteria.bindings clauses
  | .has _ _ clauses => Criteria.bindings clauses

def Criteria.bindings : List (Connector × Test) → List Value
  | [] => []
  | (_, test) :: rest => test.bindings ++ Criteria.bindings rest

end

namespace Criteria

/-- The text of the clauses, if there are any. -/
def text? (criteria : Criteria) : Option String :=
  if criteria.isEmpty then none else some (Criteria.text criteria)

/-- A group without clauses is left out. -/
def group (connector : Connector) (inner : Criteria) : Criteria :=
  if inner.isEmpty then [] else [(connector, .group inner)]

end Criteria

end TableQuery
