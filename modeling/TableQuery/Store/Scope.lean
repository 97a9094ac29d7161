import TableQuery.Sql.Token
import TableQuery.Store.Table

namespace TableQuery

/-- Where a name leads among the tables of one level of a statement. -/
structure Place where
  table : Nat
  column : Nat
deriving DecidableEq, Repr

/-- What a name of a statement stands for. -/
inductive Origin
  | cell (p : Place)
  | literal (d : Datum)
deriving DecidableEq, Repr

/-- The tables that one level of a statement reads, with the names they go by, and the names that
it gives to its result columns. -/
structure Scope where
  tables : List (String × Schema)
  shown : List (String × Origin) := []
deriving Repr

namespace Scope

/-- Whether a name is that of a table that goes by a known one. A table under its own name also has
its other names. -/
def isTable (name known : String) (schema : Schema) : Bool :=
  Text.sameName name known || (known = schema.name && schema.isCalled name)

/-- The places in tables from position `i` on. -/
def placesFrom (table : Option String) (name : String) : Nat → List (String × Schema) → List Place
  | _, [] => []
  | i, (known, schema) :: rest =>
    let here := match table with
      | some table => isTable table known schema
      | none => true
    let others := placesFrom table name (i + 1) rest
    match if here then schema.index? name else none with
    | some column => ⟨i, column⟩ :: others
    | none => others

/-- What a name stands for. A name without table must be one column's only; a name that no table
has can be that of a result. -/
def origin (s : Scope) (table : Option String) (name : String) :
    Except StoreFault (Option Origin) :=
  match placesFrom table name 0 s.tables with
  | [p] => .ok (some (.cell p))
  | [] =>
    if table.isNone then
      .ok ((s.shown.find? fun entry => Text.sameName entry.1 name).map Prod.snd)
    else .ok none
  | _ => .error .statement

def column? (s : Scope) (p : Place) : Option Column :=
  (s.tables[p.table]?).bind fun entry => entry.2.cells[p.column]?

end Scope

/-- One level of a statement with a row of each of its tables. -/
structure Level where
  scope : Scope
  rows : List Row
deriving Repr

/-- A value with the affinity of its column, if it comes from one. -/
structure Cell where
  affinity : Option Affinity
  datum : Datum
deriving DecidableEq, Repr

def Level.cell (l : Level) : Origin → Cell
  | .cell p =>
    ⟨(l.scope.column? p).map Column.affinity, Row.cell (l.rows[p.table]?.getD []) p.column⟩
  | .literal d => ⟨none, d⟩

/-- The levels that a name is looked up in, the innermost first. -/
abbrev Env := List Level

/-- The names that stand for themselves where they name nothing else. -/
def literalName? (name : String) : Option Datum :=
  if Text.sameName name "null" then some .null
  else if Text.sameName name "true" then some (.ofTruth (some true))
  else if Text.sameName name "false" then some (.ofTruth (some false))
  else none

/-- The cell that a name stands for. -/
def Env.lookup (table : Option String) (name : String) : Env → Except StoreFault Cell
  | [] =>
    match if table.isNone then literalName? name else none with
    | some d => .ok ⟨none, d⟩
    | none => .error .statement
  | level :: outer =>
    match level.scope.origin table name with
    | .error fault => .error fault
    | .ok (some origin) => .ok (level.cell origin)
    | .ok none => Env.lookup table name outer

/-- An identifier as statements read it: in ASCII alone, and with no keyword among its names. Null
stands where a column does. -/
def statementName (s : String) : Except StoreFault Identifier :=
  match Identifier.read? s with
  | some i =>
    let column (name : String) : Bool := Sql.plainName name || Text.sameName name "null"
    if s.toList.all (·.toNat < 128) && i.table.all Sql.plainName && i.column.all column &&
        i.shown.all Sql.plainName then .ok i
    else .error .statement
  | none => .error .statement

end TableQuery
