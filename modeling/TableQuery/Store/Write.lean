import TableQuery.Store.Select

namespace TableQuery

/-- The name of a column as a write spells it: alone and as it is called. -/
def plainName (written : String) : Except StoreFault String := do
  let i ← statementName written
  match i.table, i.column, i.shown with
  | none, some name, none => .ok name
  | _, _, _ => .error .statement

namespace Schema

/-- A column that a write names. -/
def writtenColumn (s : Schema) (written : String) : Except StoreFault Nat := do
  match s.index? (← plainName written) with
  | some column => .ok column
  | none => .error .statement

/-- The cell that a column makes of a value. -/
def storedAt (s : Schema) (i : Nat) (d : Datum) : Datum :=
  match s.cells[i]? with
  | some column => column.affinity.store d
  | none => d

/-- A row with the named values in its cells and what is absent elsewhere. Of two values for one
column the first counts, of two keys the last. -/
def newRow (s : Schema) (given : List (Nat × Datum)) : Row :=
  s.cells.mapIdx fun i column =>
    let values := (given.filter (·.1 = i)).map Prod.snd
    let chosen := if i = s.keyIndex then values.getLast? else values.head?
    column.affinity.store (chosen.getD column.absent)

/-- A row with some cells overwritten, later values over earlier ones. -/
def changedRow (s : Schema) (row : Row) (changes : List (Nat × Datum)) : Row :=
  changes.foldl (fun row change => row.set change.1 (s.storedAt change.1 change.2)) row

/-- Every required column has a value. -/
def checkRequired (s : Schema) (row : Row) : Except StoreFault Unit :=
  if (s.cells.zip row).any fun entry => entry.1.required && entry.2.isNull then .error .notNull
  else .ok ()

/-- The key must be an integer. -/
def checkKey (s : Schema) (row : Row) : Except StoreFault Unit :=
  match row.cell s.keyIndex with
  | .int _ => .ok ()
  | _ => .error .keyType

/-- Whether two rows have the same values in columns; null is like nothing. -/
def collides (is : List Nat) (a b : Row) : Bool :=
  is.all fun i =>
    !(a.cell i).isNull && !(b.cell i).isNull && (a.cell i).order (b.cell i) = .eq

/-- No other row has the same values in unique columns. -/
def checkUniques (s : Schema) (others : List Row) (row : Row) :
    List Unique → Except StoreFault Unit
  | [] => .ok ()
  | unique :: rest =>
    match unique.columns.mapM s.index? with
    | none => s.checkUniques others row rest
    | some is =>
      if others.any (collides is row) then .error unique.fault else s.checkUniques others row rest

/-- Whether a row has values in key columns, taken as these columns keep them. -/
def hasValues (s : Schema) (keys : List String) (values : List Datum) (row : Row) : Bool :=
  (keys.zip values).all fun entry =>
    match s.index? entry.1 with
    | some k => (s.storedAt k entry.2).order (row.cell k) = .eq
    | none => false

end Schema

namespace Table

/-- The order in which the rows of a table are read. -/
def rowLe (k : Nat) (a b : Row) : Bool :=
  (a.cell k).order (b.cell k) ≠ .gt

/-- The rows with one row more, at its place. -/
def place (t : Table) (rows : List Row) (row : Row) : List Row :=
  insertSorted (rowLe t.schema.keyIndex) row rows

/-- The key of the last row. -/
def greatestKey (t : Table) : Int :=
  match t.rows.getLast? with
  | some row =>
    match row.cell t.schema.keyIndex with
    | .int n => n
    | _ => 0
  | none => 0

/-- The key of a row that brings none: one more than any key in use and, where keys are counted,
than any ever given. -/
def nextKey (t : Table) : Except StoreFault Int :=
  let last := if t.schema.counted.isSome then max t.lastKey t.greatestKey else t.greatestKey
  if last < maxInt64 then .ok (last + 1) else .error .keysExhausted

/-- The table after a key was given, which counts where keys are counted. -/
def noteKey (t : Table) (key : Int) : Table :=
  if t.schema.counted.isSome then { t with lastKey := max t.lastKey key } else t

/-- The row with its key, made where it is missing, and the table that has given it. -/
def keyed (t : Table) (row : Row) : Except StoreFault (Table × Row) :=
  match row.cell t.schema.keyIndex with
  | .null => do
    let key ← t.nextKey
    pure (t.noteKey key, row.set t.schema.keyIndex (.int key))
  | .int key => .ok (t.noteKey key, row)
  | _ => .error .keyType

/-- The row `old` gives way to `new`. -/
def replaceRow (t : Table) (old new : Row) : Table :=
  { t with rows := t.place (t.rows.erase old) new }

/-- A stored row with changed cells, which must leave the table sound. -/
def changeRow (t : Table) (row : Row) (changes : List (Nat × Datum)) :
    Except StoreFault (Table × Row) := do
  let changed := t.schema.changedRow row changes
  t.schema.checkKey changed
  t.schema.checkRequired changed
  t.schema.checkUniques (t.rows.erase row) changed t.schema.uniques
  pure (t.replaceRow row changed, changed)

/-- What becomes of a new row that meets a stored one in unique columns. -/
structure Meeting where
  columns : List Nat
  update : List Nat

/-- What has become of a new row. -/
inductive Written
  | added (row : Row)
  | changed (row : Row)
  | dropped

/-- The table with a new row. The columns of the meeting are looked at before all other unique
columns. -/
def addRow (t : Table) (given : List (Nat × Datum)) (meeting : Option Meeting) :
    Except StoreFault (Table × Written) := do
  let (t, row) ← t.keyed (t.schema.newRow given)
  t.schema.checkRequired row
  match meeting.bind fun m => (t.rows.find? (Schema.collides m.columns row)).map (m, ·) with
  | some (m, stored) =>
    if m.update.isEmpty then pure (t, .dropped)
    else
      let (t, changed) ← t.changeRow stored (m.update.map fun i => (i, row.cell i))
      pure (t, .changed changed)
  | none =>
    t.schema.checkUniques t.rows row t.schema.uniques
    pure ({ t with rows := t.place t.rows row }, .added row)

/-- A row with its cells under the names of the columns. -/
def recordOf (t : Table) (row : Row) : Record :=
  OrderedMap.ofList ((t.schema.columns.zip row).map fun entry => (entry.1.name, entry.2.toJson))

/-- Whether all columns of a row can be read. -/
def legible (t : Table) (row : Row) : Bool :=
  (t.schema.columns.zip row).all fun entry => entry.2.legible

/-- A row as it is read back. -/
def readRow (t : Table) (row : Row) : Except StoreFault Record :=
  if t.legible row then .ok (t.recordOf row) else .error .unreadable

theorem readRow_eq_ok_iff {t : Table} {row : Row} {record : Record} :
    t.readRow row = .ok record ↔ t.legible row = true ∧ record = t.recordOf row := by
  unfold readRow
  split
  next hlegible => simp [hlegible, eq_comm]
  next hlegible => simp [hlegible]

end Table

/-- What a write has done: how many rows it added, changed or removed, and the rows it was to give
back, as far as they can be read. -/
structure WriteResult where
  count : Nat
  rows : List (Except StoreFault Record)

namespace Store

/-- The logs of a change of a row. -/
def logChange (store : Store) (table : String) (schema : Schema) (row : Row) :
    Except StoreFault Store :=
  store.watches.foldlM (fun store watch =>
    if watch.table = table then do
      let log ← store.table watch.log
      let column ← log.schema.writtenColumn watch.column
      let key ← schema.writtenColumn watch.key
      let (log, _) ← log.addRow [(column, row.cell key)] none
      pure (store.setTable log)
    else pure store) store

/-- A column that a conflict is looked for in. -/
def meetingColumn (schema : Schema) (written : String) : Except StoreFault Nat := do
  let i ← statementName written
  let here := match i.table with
    | some table => Text.sameName table schema.name
    | none => true
  match i.column, i.shown with
  | some name, none =>
    match schema.index? name with
    | some k => if here then .ok k else .error .statement
    | none => .error .statement
  | _, _ => .error .statement

/-- The columns that a conflict is looked for in: the key of the rows, or all that are unique
together, in whatever order. -/
def meetingColumns (schema : Schema) (written : List String) : Except StoreFault (List Nat) := do
  let columns ← written.mapM (meetingColumn schema)
  let unique := schema.uniques.any fun unique =>
    unique.columns.length = columns.length &&
      unique.columns.all fun name => (schema.index? name).any columns.contains
  if columns = [schema.keyIndex] || unique then .ok columns else .error .statement

/-- The meeting that an insert into `columns` provides for. Rows that bring no key of their own are
given a new one, so that no stored row has it: then the names to update are not looked up. -/
def meetingOf (schema : Schema) (columns : List Nat) (conflict : Conflict) :
    Except StoreFault (Option Table.Meeting) := do
  let unique ← meetingColumns schema conflict.unique
  let names ← conflict.update.mapM plainName
  if unique = [schema.keyIndex] && !columns.contains schema.keyIndex then pure none
  else do
    let update ← names.mapM schema.writtenColumn
    pure (some ⟨unique, update⟩)

/-- Whether a row refers to a row that is not there. It refers to nothing if it has a null. -/
def lacksParent (store : Store) (schema : Schema) (r : Reference) (row : Row) : Bool :=
  let values := schema.values r.columns row
  !values.any Datum.isNull &&
    !(store.table? r.table).any fun parents =>
      parents.rows.any (parents.schema.hasValues r.keys values)

/-- Whether a row with the key of a row and the same reference lacks what it refers to. -/
def lackedParent (store : Store) (schema : Schema) (r : Reference) (row : Row) : Bool :=
  store.lacksParent schema r row && store.tables.any fun t =>
    t.schema.name = schema.name && t.rows.any fun same =>
      same.cell schema.keyIndex = row.cell schema.keyIndex &&
        schema.values r.columns same = schema.values r.columns row

/-- A statement leaves no row without one that it refers to, unless the row lacked it before. -/
def checkReferences (before after : Store) : Except StoreFault Unit :=
  if after.tables.all fun t => t.schema.references.all fun r => t.rows.all fun row =>
      !after.lacksParent t.schema r row || before.lackedParent t.schema r row then .ok ()
  else .error .foreignKey

/-- The store with one row more of an insert, and the result so far. -/
def insertRow (table : String) (columns : List Nat) (meeting : Option Table.Meeting)
    (state : Store × WriteResult) (values : List Value) :
    Except StoreFault (Store × WriteResult) := do
  let (store, result) := state
  let t ← store.table table
  let (t, written) ← t.addRow (columns.zip (values.map Datum.ofValue)) meeting
  let store := store.setTable t
  match written with
  | .added row => pure (store, ⟨result.count + 1, result.rows ++ [t.readRow row]⟩)
  | .changed row => do
    let store ← store.logChange t.schema.name t.schema row
    pure (store, ⟨result.count + 1, result.rows ++ [t.readRow row]⟩)
  | .dropped => pure (store, result)

/-- The logs of changes of a table. -/
def logsOf (store : Store) (table : String) : List Schema :=
  (store.watches.filter (·.table = table)).filterMap fun watch =>
    (store.table? watch.log).map Table.schema

/-- The rows are inserted one after the other; a fault of any leaves the store as it was. An insert
that may change rows counts as a write of their logs. -/
def insert (store : Store) (i : Insert) : Except StoreFault (Store × WriteResult) := do
  let t ← store.table i.table
  let columns ← i.columns.mapM t.schema.writtenColumn
  let meeting ← match i.conflict with
    | some conflict => meetingOf t.schema columns conflict
    | none => pure none
  if limits.values < i.rows.flatten.length then .error .statement
  let (after, result) ← i.rows.foldlM (insertRow i.table columns meeting) (store, ⟨0, []⟩)
  store.checkReferences after
  let logs := if meeting.any fun m => !m.update.isEmpty then after.logsOf t.schema.name else []
  pure (after.noteWritten (logs ++ [t.schema]), result)

/-- The store with one row of an update changed, and the result so far. -/
def updateRow (table : String) (changes : List (Nat × Datum)) (state : Store × WriteResult)
    (row : Row) : Except StoreFault (Store × WriteResult) := do
  let (store, result) := state
  let t ← store.table table
  let (t, changed) ← t.changeRow row changes
  let store ← (store.setTable t).logChange t.schema.name t.schema changed
  pure (store, ⟨result.count + 1, result.rows ++ [t.readRow changed]⟩)

/-- The test of the rows of one table that clauses make. -/
def rowTest (store : Store) (t : Table) (criteria : Criteria) : Except StoreFault (Row → Bool) := do
  let scope : Scope := ⟨[(t.schema.name, t.schema)], []⟩
  let test ← store.prepareTest scope criteria
  if !sourceFits false test [] then .error .statement
  pure fun row => test.all fun test => store.holds scope test [row]

def update (store : Store) (u : Update) : Except StoreFault (Store × WriteResult) := do
  let t ← store.table u.table
  let changes ← u.assignments.mapM fun assignment => do
    let column ← t.schema.writtenColumn assignment.1
    pure (column, Datum.ofValue assignment.2)
  let test ← store.rowTest t [(.and, .raw (u.key ++ " = ?") [u.keyValue])]
  let (after, result) ← (t.rows.filter test).foldlM (updateRow u.table changes) (store, ⟨0, []⟩)
  store.checkReferences after
  pure (after.noteWritten (after.logsOf t.schema.name), result)

/-- All rows are tested before any is removed. -/
def delete (store : Store) (table : String) (criteria : Criteria) :
    Except StoreFault (Store × WriteResult) := do
  let t ← store.table table
  let test ← store.rowTest t criteria
  let after := store.setTable { t with rows := t.rows.filter fun row => !test row }
  store.checkReferences after
  pure (after, ⟨(t.rows.filter test).length, []⟩)

end Store

end TableQuery
