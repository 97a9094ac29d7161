import TableQuery.Error
import TableQuery.Store.Affinity
import TableQuery.Store.Day

namespace TableQuery

structure Column where
  name : String
  affinity : Affinity
  /-- The column holds no null. -/
  required : Bool := false
  /-- What a row gets that names no value. -/
  absent : Datum := .null
deriving DecidableEq, Repr

/-- Columns in which no two rows have the same values, null aside. -/
structure Unique where
  columns : List String
  fault : StoreFault
deriving DecidableEq, Repr

/-- Columns whose values, if none of them is null, are those of a row of a table in its key columns.
No reference says what becomes of a row when the one that it refers to goes. -/
structure Reference where
  columns : List String
  table : String
  keys : List String
deriving DecidableEq, Repr

structure Schema where
  name : String
  columns : List Column
  /-- The integer key that the store counts, if the table has one. -/
  counted : Option String := none
  /-- The unique columns in the order in which a new row is tested. -/
  uniques : List Unique
  references : List Reference := []
  /-- The names that the table goes by besides its own. -/
  otherNames : List String := []
  /-- The table is not among the tables of the database itself. -/
  temporary : Bool := false
deriving DecidableEq, Repr

/-- The cells of a row: one for each column and, where no column holds the key, the key behind. -/
abbrev Row := List Datum

namespace Schema

/-- The names of the key of a row, whatever the table. -/
def isKeyName (name : String) : Bool :=
  ["rowid", "oid", "_rowid_"].any (Text.sameName name)

/-- The key of a table that shows none. -/
def hiddenKey : Column where
  name := "rowid"
  affinity := .integer

/-- The columns with the key that is not among them. -/
def cells (s : Schema) : List Column :=
  if s.counted.isSome then s.columns else s.columns ++ [hiddenKey]

/-- The position of a column. Names are the same up to ASCII case. -/
def columnIndex? (s : Schema) (name : String) : Option Nat :=
  s.columns.findIdx? fun column => Text.sameName column.name name

/-- The position of the key in a row. -/
def keyIndex (s : Schema) : Nat :=
  (s.counted.bind s.columnIndex?).getD s.columns.length

/-- The position of a cell. A column goes before the key of its name. -/
def index? (s : Schema) (name : String) : Option Nat :=
  (s.columnIndex? name).orElse fun _ => if isKeyName name then some s.keyIndex else none

/-- Whether the table goes by a name. -/
def isCalled (s : Schema) (name : String) : Bool :=
  (s.name :: s.otherNames).any (Text.sameName name)

/-- The cells of a row in named columns. -/
def values (s : Schema) (names : List String) (row : List Datum) : List Datum :=
  names.map fun name => ((s.index? name).bind (row[·]?)).getD .null

/-- The row of a table that has no row to give. -/
def nullRow (s : Schema) : Row :=
  s.cells.map fun _ => .null

end Schema

def Row.cell (row : Row) (i : Nat) : Datum :=
  row[i]?.getD .null

/-- A table with its rows in the order of their keys, which is the order in which they are read. -/
structure Table where
  schema : Schema
  rows : List Row := []
  /-- The largest key that was ever given to a new row of a table with a counted key. -/
  lastKey : Int := 0
deriving DecidableEq, Repr

/-- Each changed row of `table` adds its key to the column of the table `log`. -/
structure Watch where
  table : String
  key : String
  log : String
  column : String
deriving DecidableEq, Repr

/-- What the store takes day and time to be. -/
structure Clock where
  day : Day := ⟨2026, 1, 1⟩
  time : String := "00:00:00"
deriving DecidableEq, Repr

structure Store where
  tables : List Table
  watches : List Watch := []
  /-- The tables with counted keys that were written, in the order of their first write. -/
  written : List String := []
  clock : Clock := {}
deriving DecidableEq, Repr

namespace Store

def table? (s : Store) (name : String) : Option Table :=
  s.tables.find? fun table => Text.sameName table.schema.name name

/-- The store with a table in the place of the one of its name. -/
def setTable (s : Store) (table : Table) : Store :=
  { s with
    tables := s.tables.map fun other =>
      if Text.sameName other.schema.name table.schema.name then table else other }

def table (s : Store) (name : String) : Except StoreFault Table :=
  match s.table? name with
  | some table => .ok table
  | none => .error .statement

/-- The store after a write of tables; those with a counted key are kept in mind. -/
def noteWritten (s : Store) (tables : List Schema) : Store :=
  let fresh := tables.filter fun schema => schema.counted.isSome && !s.written.contains schema.name
  { s with written := s.written ++ fresh.map Schema.name }

/-- The table that shows the largest key given in each table with a counted key. -/
def keyTable (s : Store) : Table where
  schema :=
    { name := "sqlite_sequence"
      columns := [⟨"name", .any, false, .null⟩, ⟨"seq", .any, false, .null⟩]
      uniques := [] }
  rows := s.written.mapIdx fun i name =>
    [.text name, .int (((s.table? name).map Table.lastKey).getD 0), .int (i + 1)]

/-- A table that is read, by any of its names. One of the two databases may be named. -/
def readable? (s : Store) (database : Option String) (name : String) : Option Table :=
  (s.keyTable :: s.tables).find? fun table =>
    table.schema.isCalled name &&
      (match database with
      | some database => Text.sameName database (if table.schema.temporary then "temp" else "main")
      | none => true)

end Store

end TableQuery
