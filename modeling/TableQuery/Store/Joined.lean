import TableQuery.Sql.Reader
import TableQuery.Statement
import TableQuery.Store.Eval

namespace TableQuery

/-- One row of each table of a level. -/
abbrev Tuple := List Row

namespace Store

/-- The name a table goes by, and the table. -/
def namedTable (s : Store) (written : String) : Except StoreFault (String × Table) := do
  let i ← statementName written
  match i.column with
  | none => .error .statement
  | some name =>
    match s.readable? i.table name with
    | some table => pure (i.shown.getD table.schema.name, table)
    | none => .error .statement

/-- A column, or a word that stands for a value, as a test. -/
def columnExpr (written : String) : Except StoreFault Sql.Expr := do
  let i ← statementName written
  match i.column, i.shown with
  | some name, none =>
    match Sql.reference? i.table name with
    | some e => .ok e
    | none => .error .statement
  | _, _ => .error .statement

/-- A joined table with the test of its rows. -/
structure Joined where
  kind : JoinKind
  table : Table
  /-- How many tables stand before it. -/
  position : Nat
  test : Sql.Expr
  /-- The last table that the test asks for. -/
  reach : Nat

/-- The test asks for a table behind the joined one. -/
def Joined.forward (j : Joined) : Bool :=
  j.position < j.reach

/-- The position of the table that a column lies in. -/
def columnTable? (scope : Scope) : Sql.Expr → Option Nat
  | .column table name =>
    match scope.origin table name with
    | .ok (some (.cell p)) => some p.table
    | _ => none
  | _ => none

/-- Whether a test holds for a tuple. -/
def holds (store : Store) (scope : Scope) (test : Sql.Expr) (tuple : Tuple) : Bool :=
  (test.eval store [⟨scope, tuple⟩]).datum.truth = some true

/-- The tuples so far with the rows of one table more. The test of an inner join that asks for
later tables waits for them. -/
def joinRows (store : Store) (scope : Scope) (tuples : List Tuple) (j : Joined) : List Tuple :=
  let meets (tuple : Tuple) (row : Row) : Bool :=
    j.forward || store.holds scope j.test (tuple ++ [row])
  let pairs (tuple : Tuple) : List Tuple :=
    (j.table.rows.filter (meets tuple)).map fun row => tuple ++ [row]
  match j.kind with
  | .inner => tuples.flatMap pairs
  | .left =>
    tuples.flatMap fun tuple =>
      let found := pairs tuple
      if found.isEmpty then [tuple ++ [j.table.schema.nullRow]] else found
  | .right =>
    let alone := j.table.rows.filter fun row => !tuples.any fun tuple => meets tuple row
    let nulls := (scope.tables.take j.position).map fun entry => entry.2.nullRow
    tuples.flatMap pairs ++ alone.map fun row => nulls ++ [row]

/-- A join with its test, all names looked up. -/
def prepareJoin (store : Store) (scope : Scope) (position : Nat) (table : Table) (join : Join) :
    Except StoreFault Joined := do
  let a ← columnExpr join.foreignKey
  let b ← columnExpr join.primaryKey
  let test := Sql.Expr.compare .eq a b
  test.check store [⟨scope, []⟩]
  let reach := max ((columnTable? scope a).getD 0) ((columnTable? scope b).getD 0)
  pure ⟨join.kind, table, position, test, reach⟩

def prepareJoins (store : Store) (scope : Scope) :
    Nat → List (String × Table) → List Join → Except StoreFault (List Joined)
  | position, (_, table) :: others, join :: joins => do
    let first ← prepareJoin store scope position table join
    let rest ← prepareJoins store scope (position + 1) others joins
    pure (first :: rest)
  | _, _, _ => .ok []

/-- Whether an expression is seen to be neither true nor false where a table has no row to give. -/
def asksFor (scope : Scope) (position : Nat) : Sql.Expr → Bool
  | .column table name => columnTable? scope (.column table name) = some position
  | .not e => asksFor scope position e
  | .and a b => asksFor scope position a && asksFor scope position b
  | .or a b => asksFor scope position a && asksFor scope position b
  | .compare _ a b => asksFor scope position a || asksFor scope position b
  | .member e _ _ => asksFor scope position e
  | .between e low high _ =>
    asksFor scope position e || (asksFor scope position low && asksFor scope position high)
  | _ => false

mutual

/-- Whether a test is seen to hold only where a table has a row to give. -/
def needsRow (scope : Scope) (position : Nat) : Sql.Expr → Bool
  | .isNull e true => asksFor scope position e
  | .and a b => needsRow scope position a || lastNeedsRow scope position b
  | e => asksFor scope position e

/-- The same of the last part of a conjunction. -/
def lastNeedsRow (scope : Scope) (position : Nat) : Sql.Expr → Bool
  | .and a b => needsRow scope position a || lastNeedsRow scope position b
  | e => asksFor scope position e

end

/-- Whether a right join stands behind a table. -/
def beforeRight (joined : List Joined) (position : Nat) : Bool :=
  joined.any fun j => j.kind = .right && position < j.position

/-- The joins when the table at a position cannot be without a row: a left join is an inner one
then, and so are the right joins behind. Inner joins tell nothing about tables before a right
join. -/
def reduceAt (scope : Scope) (test : Option Sql.Expr) (joined : List Joined) (position : Nat) :
    List Joined :=
  let right := beforeRight joined position
  let needed := test.any (needsRow scope position) ||
    (!right && joined.any fun j => j.kind = .inner && asksFor scope position j.test)
  if needed then
    joined.map fun j =>
      if (j.kind = .left && j.position = position) || (j.kind = .right && position < j.position) then
        { j with kind := .inner }
      else j
  else joined

/-- The joins, outer ones turned into inner ones as far as all tests together allow it. -/
def reduced (scope : Scope) (test : Option Sql.Expr) (joined : List Joined) : List Joined :=
  (List.range scope.tables.length).foldl (reduceAt scope test) joined

/-- An outer join, and any join beside a right one, must not ask for later tables. -/
def checkReach (joined : List Joined) : Except StoreFault Unit :=
  let right := joined.any fun j => j.kind = .right
  if joined.any fun j => j.forward && (right || j.kind != .inner) then .error .statement else .ok ()

end Store

end TableQuery
