import TableQuery.Criteria
import TableQuery.Join
import TableQuery.Order

namespace TableQuery

/-- The rows that a statement reads: those of a table and what is joined to it, as far as they
meet the criteria. -/
structure Source where
  table : String
  joins : List Join := []
  criteria : Criteria := []

namespace Source

def text (s : Source) : String :=
  " FROM " ++ s.table ++ String.join (s.joins.map fun join => " " ++ join.text) ++
    (match s.criteria.text? with
    | some test => " WHERE " ++ test
    | none => "")

end Source

structure Select where
  columns : List String
  source : Source
  order : List SortKey := []
  limit : Option Int := none
  offset : Option Int := none

namespace Select

/-- An offset is written only behind a limit, and only when it skips a row. -/
def windowText (limit offset : Option Int) : String :=
  let skipped := offset.filter (0 < ·)
  match limit, skipped with
  | some limit, some offset => " LIMIT " ++ Text.intText limit ++ " OFFSET " ++ Text.intText offset
  | some limit, none => " LIMIT " ++ Text.intText limit
  | none, some offset => " LIMIT -1 OFFSET " ++ Text.intText offset
  | none, none => ""

def orderText (order : List SortKey) : String :=
  if order.isEmpty then "" else " ORDER BY " ++ Text.commaList (order.map SortKey.text)

def text (s : Select) : String :=
  "SELECT " ++ Text.commaList s.columns ++ s.source.text ++ orderText s.order ++
    windowText s.limit s.offset

end Select

/-- What becomes of a new row that collides with a stored one in the unique columns: the named
columns of the stored row are overwritten, or the new row is dropped when none are named. -/
structure Conflict where
  unique : List String
  update : List String

def Conflict.text (c : Conflict) : String :=
  "ON CONFLICT(" ++ Text.commaList c.unique ++ ") DO " ++
    (if c.update.isEmpty then "NOTHING"
    else "UPDATE SET " ++ Text.commaList (c.update.map fun name => name ++ " = excluded." ++ name))

structure Insert where
  table : String
  columns : List String
  rows : List (List Value)
  conflict : Option Conflict := none
  /-- The rows as stored are the result. -/
  returning : Bool := false

namespace Insert

def valuesText (i : Insert) : String :=
  if i.columns.isEmpty then " DEFAULT VALUES"
  else
    let row := "(" ++ Text.placeholders i.columns.length ++ ")"
    " (" ++ Text.commaList i.columns ++ ") VALUES " ++
      Text.commaList (List.replicate i.rows.length row)

def text (i : Insert) : String :=
  "INSERT INTO " ++ i.table ++ i.valuesText ++
    (match i.conflict with
    | some conflict => " " ++ conflict.text
    | none => "") ++
    (if i.returning then " RETURNING *" else "")

end Insert

/-- A change of the row with a key, which is also the result. -/
structure Update where
  table : String
  assignments : List (String × Value)
  key : String
  keyValue : Value

def Update.text (u : Update) : String :=
  "UPDATE " ++ u.table ++ " SET " ++
    Text.commaList (u.assignments.map fun assignment => assignment.1 ++ " = ?") ++
    " WHERE " ++ u.key ++ " = ? RETURNING *"

inductive Statement
  | select (s : Select)
  | count (source : Source)
  | anyRow (source : Source)
  | delete (table : String) (criteria : Criteria)
  | insert (i : Insert)
  | update (u : Update)

namespace Statement

def text : Statement → String
  | select s => s.text
  | count source => "SELECT COUNT(*)" ++ source.text
  | anyRow source => "SELECT EXISTS(SELECT 1" ++ source.text ++ ")"
  | delete table criteria => "DELETE" ++ (Source.mk table [] criteria).text
  | insert i => i.text
  | update u => u.text

/-- The values for the placeholders in the order of the text. -/
def bindings : Statement → List Value
  | select s => Criteria.bindings s.source.criteria
  | count source => Criteria.bindings source.criteria
  | anyRow source => Criteria.bindings source.criteria
  | delete _ criteria => Criteria.bindings criteria
  | insert i => i.rows.flatten
  | update u => u.assignments.map Prod.snd ++ [u.keyValue]

end Statement

end TableQuery
