import TableQuery.Record
import TableQuery.Store.Joined

namespace TableQuery

/-- A list with an element put before the first that it may stand before. -/
def insertSorted {α : Type} (le : α → α → Bool) (a : α) : List α → List α
  | [] => [a]
  | b :: rest => if le a b then a :: b :: rest else b :: insertSorted le a rest

/-- The elements in order; those of equal rank keep theirs. -/
def sortedBy {α : Type} (le : α → α → Bool) (as : List α) : List α :=
  as.foldr (insertSorted le) []

/-- What a statement may have at most. -/
structure Limits where
  tables : Nat := 64
  columns : Nat := 2000
  values : Nat := 32766

namespace Store

def limits : Limits := {}

/-- The test of a text of clauses, with all its names looked up. -/
def prepareTest (store : Store) (scope : Scope) (criteria : Criteria) :
    Except StoreFault (Option Sql.Expr) :=
  match criteria.text? with
  | none => .ok none
  | some text =>
    let values := Criteria.bindings criteria
    match Sql.readTest? text values with
    | none => .error .statement
    | some test =>
      if limits.values < values.length then .error .statement
      else (test.check store [⟨scope, []⟩]).map fun _ => some test

/-- A column of the result. -/
structure ResultColumn where
  name : String
  origin : Origin
  /-- The name was given by the statement, or the column comes from a star. -/
  named : Bool
  /-- The name was given by the statement. -/
  given : Bool
deriving Repr

/-- All columns of the table at a position. -/
def tableColumns (position : Nat) (schema : Schema) : List ResultColumn :=
  schema.columns.mapIdx fun i column => ⟨column.name, .cell ⟨position, i⟩, true, false⟩

/-- The columns that one item of a projection stands for. -/
def resultColumns (clock : Clock) (scope : Scope) (written : String) :
    Except StoreFault (List ResultColumn) := do
  let i ← statementName written
  match i.column with
  | some name =>
    match Sql.reference? i.table name with
    | some (.present p) =>
      let origin := Origin.literal (.text (clock.shown p))
      pure [⟨i.shown.getD name, origin, i.shown.isSome, i.shown.isSome⟩]
    | some _ => do
      let found ← scope.origin i.table name
      let literal := if i.table.isNone then (literalName? name).map Origin.literal else none
      match found <|> literal with
      | some origin =>
        let declared := match origin with
          | .cell p => ((scope.column? p).map Column.name).getD name
          | .literal _ => name
        pure [⟨i.shown.getD declared, origin, i.shown.isSome, i.shown.isSome⟩]
      | none => .error .statement
    | none => .error .statement
  | none => do
    let numbered := scope.tables.mapIdx fun position entry => (position, entry)
    let chosen := numbered.filter fun entry =>
      match i.table with
      | some table =>
        (Sql.reference? (some table) "").isSome && Scope.isTable table entry.2.1 entry.2.2
      | none => true
    if chosen.isEmpty || i.shown.isSome then .error .statement
    else pure (chosen.flatMap fun entry => tableColumns entry.1 entry.2.2)

/-- The names that a statement gives to its result columns. -/
def givenNames (columns : List ResultColumn) : List (String × Origin) :=
  (columns.filter ResultColumn.given).map fun column => (column.name, column.origin)

/-- A source and a projection with all their names looked up. -/
structure Prepared where
  scope : Scope
  columns : List ResultColumn
  first : Table
  joined : List Joined
  test : Option Sql.Expr

/-- The height of the test of a source together with the tests of its joins. -/
def sourceHeight (test : Option Sql.Expr) (joined : List Joined) : Nat :=
  joined.foldl (fun height j =>
    if height = 0 then j.test.height else max height j.test.height + 1)
    ((test.map Sql.Expr.height).getD 0)

/-- Whether the test of a source is not too high. The query may stand in another expression. -/
def sourceFits (nested : Bool) (test : Option Sql.Expr) (joined : List Joined) : Bool :=
  let own := (test.map Sql.Expr.height).getD 0
  let base := if nested then max own 1 + 1 else 0
  base + sourceHeight test joined ≤ Sql.Expr.greatestHeight && test.all (Sql.Expr.fits base)

def prepare (store : Store) (nested : Bool) (source : Source) (columns : List String) :
    Except StoreFault Prepared := do
  let first ← store.namedTable source.table
  let others ← source.joins.mapM fun join => store.namedTable join.table
  let tables := (first :: others).map fun named => (named.1, named.2.schema)
  let columns := (← columns.mapM (resultColumns store.clock ⟨tables, []⟩)).flatten
  let scope : Scope := ⟨tables, givenNames columns⟩
  let joined ← prepareJoins store scope 1 others source.joins
  let test ← prepareTest store scope source.criteria
  let joined := reduced scope test joined
  checkReach joined
  if limits.tables < tables.length ∨ limits.columns < columns.length ∨
      !sourceFits nested test joined then .error .statement
  else pure ⟨scope, columns, first.2, joined, test⟩

/-- The tuples that meet the test of the source and the tests that had to wait. -/
def Prepared.tuples (store : Store) (p : Prepared) : List Tuple :=
  let all := p.joined.foldl (store.joinRows p.scope) (p.first.rows.map fun row => [row])
  let tests := (p.joined.filter Joined.forward).map Joined.test ++ p.test.toList
  all.filter fun tuple => tests.all fun test => store.holds p.scope test tuple

/-- What a sort key reads from a tuple. -/
def orderCell (store : Store) (scope : Scope) (columns : List ResultColumn) (key : SortKey) :
    Except StoreFault (Tuple → Datum) := do
  let e ← columnExpr key.column
  let result : Option ResultColumn := match e with
    | .column none name =>
      columns.find? fun column => column.named && Text.sameName column.name name
    | _ => none
  match result with
  | some column => pure fun tuple => ((Level.mk scope tuple).cell column.origin).datum
  | none => do
    e.check store [⟨scope, []⟩]
    pure fun tuple => (e.eval store [⟨scope, tuple⟩]).datum

/-- The order of two lists of cells, each compared in its direction. -/
def orderKeys : List (Direction × Datum × Datum) → Bool
  | [] => true
  | (direction, a, b) :: rest =>
    match a.order b with
    | .eq => orderKeys rest
    | .lt => direction = .asc
    | .gt => direction = .desc

def tupleLe (keys : List (Direction × (Tuple → Datum))) (s t : Tuple) : Bool :=
  orderKeys (keys.map fun key => (key.1, key.2 s, key.2 t))

/-- The part of the rows that limit and offset leave. A limit below zero is none. -/
def window {α : Type} (limit offset : Option Int) (rows : List α) : List α :=
  let rest := rows.drop (offset.getD 0).toNat
  match limit with
  | some n => if n < 0 then rest else rest.take n.toNat
  | none => rest

/-- The record of a tuple. Of two columns of one name the later one counts. -/
def record (scope : Scope) (columns : List ResultColumn) (tuple : Tuple) : Record :=
  OrderedMap.ofList (columns.map fun column =>
    (column.name, ((Level.mk scope tuple).cell column.origin).datum.toJson))

/-- Whether all that is shown of a tuple can be read. -/
def legible (scope : Scope) (columns : List ResultColumn) (tuple : Tuple) : Bool :=
  columns.all fun column => ((Level.mk scope tuple).cell column.origin).datum.legible

/-- The records of tuples. One that cannot be read is the fault of all. -/
def Prepared.records (p : Prepared) (tuples : List Tuple) : Except StoreFault (List Record) :=
  tuples.mapM fun tuple =>
    if legible p.scope p.columns tuple then .ok (record p.scope p.columns tuple)
    else .error .unreadable

def select (store : Store) (s : Select) : Except StoreFault (List Record) := do
  let p ← store.prepare false s.source s.columns
  let keys ← s.order.mapM fun key => do
    let cell ← orderCell store p.scope p.columns key
    pure (key.direction, cell)
  if limits.columns < keys.length then .error .statement
  let tuples := sortedBy (tupleLe keys) (p.tuples store)
  p.records (window s.limit s.offset tuples)

/-- How many tuples a source has. -/
def count (store : Store) (source : Source) : Except StoreFault Nat := do
  let p ← store.prepare false source []
  pure (p.tuples store).length

/-- Whether a source has any tuple. -/
def anyRow (store : Store) (source : Source) : Except StoreFault Bool := do
  let p ← store.prepare true source []
  pure !(p.tuples store).isEmpty

end Store

end TableQuery
