import TableQuery.Criteria
import TableQuery.Identifier
import TableQuery.Order

namespace TableQuery

/-- Where the primary key of a new row comes from. -/
inductive KeyKind
  /-- The store counts. -/
  | counted
  /-- A fresh key is made when the row brings none. -/
  | fresh
  /-- Every row brings its own. -/
  | given
deriving DecidableEq, Repr

/-- A table with what queries need to know of it. -/
structure Entity where
  table : String
  primaryKey : String := "id"
  keyKind : KeyKind := .counted
  /-- The columns of creation and last change are kept. -/
  timestamps : Bool := false
  defaultSort : SortKey := ⟨"id", .asc⟩
  relations : List Relation := []
  /-- The clauses for a payload of the filter option, if the entity supports that option. It may
  refuse a payload. -/
  filter : Option (OrderedMap Json → Except InvalidInput Criteria) := none

namespace Entity

def relation (e : Entity) (name : String) : Except InvalidInput Relation :=
  match e.relations.find? (·.name = name) with
  | some relation => .ok relation
  | none => .error (.relation e.table name)

/-- The clauses that the filter option adds. -/
def filterCriteria (e : Entity) (payload : OrderedMap Json) : Except InvalidInput Criteria :=
  match e.filter with
  | some filter => filter payload
  | none => .error (.filterOption e.table)

/-- The primary key with its table. -/
def qualifiedKey (e : Entity) : String :=
  e.table ++ "." ++ e.primaryKey

end Entity

/-- A name that may be written into a statement. -/
def checkedName (name : String) : Except InvalidInput String :=
  if Identifier.valid name then .ok name else .error (.identifier name)

end TableQuery
