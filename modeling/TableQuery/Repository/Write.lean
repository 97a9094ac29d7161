import TableQuery.Repository.Read

namespace TableQuery

namespace Entity

def createdAt : String := "created_at"
def updatedAt : String := "updated_at"

/-- The row with its key: a fresh one where the entity makes them and the row has none; none where
the store counts and the row has null. -/
def withKey (e : Entity) (moment : Moment) (row : Record) : Record :=
  match e.keyKind with
  | .fresh =>
    if (row.value e.primaryKey).isNull then row.insert e.primaryKey (.text moment.freshKey) else row
  | .counted => if (row.value e.primaryKey).isNull then row.erase e.primaryKey else row
  | .given => row

/-- The time in both columns where they are missing or null. -/
def withTimes (e : Entity) (moment : Moment) (row : Record) : Record :=
  if e.timestamps then
    [createdAt, updatedAt].foldl (fun row column =>
      if (row.value column).isNull then row.insert column (.text moment.now) else row) row
  else row

/-- A row that must come back from a statement. It has taken effect when the row is read. -/
def firstRow (e : Entity) (key : Value) (result : WriteResult) : Run Record :=
  match result.rows with
  | .ok row :: _ => pure row
  | .error fault :: _ => throw (.storage fault)
  | [] => throw (.notFound e.table key.display)

/-- One row is inserted and comes back as it is stored. -/
def createRow (e : Entity) (moment : Moment) (input : Record) : Run Record := do
  let row := e.withTimes moment (e.withKey moment input)
  let columns ← Run.ofInvalid (row.keys.mapM checkedName)
  let insert : Insert :=
    { table := e.table
      columns := columns
      rows := [columns.map row.value]
      returning := true }
  Run.emit (.statement insert.text)
  let result ← Run.write fun store => store.insert insert
  e.firstRow (row.value e.primaryKey) result

def create (e : Entity) (moment : Moment) (input : Record) : Run Record :=
  Run.logged .create (e.createRow moment input)

/-- The values of a row for the columns, which must be all columns of the row. -/
def rowValues (e : Entity) (columns : List String) (row : Record) :
    Except InvalidInput (List Value) :=
  if row.keys.length = columns.length ∧ columns.all row.contains then .ok (columns.map row.value)
  else .error (.rowsDiffer e.table columns)

/-- All rows are inserted by one statement, with the columns of the first. -/
def insertRows (e : Entity) (rows : List Record) (conflict : Option Conflict) : Run Nat := do
  match rows with
  | [] => pure 0
  | first :: _ =>
    let columns ← Run.ofInvalid (first.keys.mapM checkedName)
    if columns.isEmpty then throw (.invalid .rowsWithoutColumns)
    let values ← Run.ofInvalid (rows.mapM (e.rowValues columns))
    let insert : Insert :=
      { table := e.table
        columns := columns
        rows := values
        conflict := conflict }
    Run.emit (.statement insert.text)
    let result ← Run.write fun store => store.insert insert
    pure result.count

def insert (e : Entity) (rows : List Record) : Run Nat :=
  Run.logged .insert (e.insertRows rows none)

/-- The columns of the input whose values the record does not have already. Only their names must
be identifiers. -/
def changes (record input : Record) : Except InvalidInput (List (String × Value)) :=
  (input.keys.filter fun column => !(record.value column).looselyEq (input.value column)).mapM
    fun column => (checkedName column).map fun column => (column, input.value column)

/-- The time of the change, where the entity keeps it and the changes do not set it. -/
def withChangeTime (e : Entity) (moment : Moment) (changes : List (String × Value)) :
    List (String × Value) :=
  if e.timestamps && !(changes.map Prod.fst).contains updatedAt then
    changes ++ [(updatedAt, .text moment.now)]
  else changes

/-- What differs from the record is written; nothing is when nothing differs. -/
def updateRow (e : Entity) (moment : Moment) (record input : Record) : Run Record := do
  let key := record.value e.primaryKey
  if key.isNull then throw (.invalid (.keyMissing e.table e.primaryKey))
  let changes ← Run.ofInvalid (changes record input)
  if changes.isEmpty then
    Run.emit (.clean key)
    pure record
  else
    let update : Update :=
      { table := e.table
        assignments := e.withChangeTime moment changes
        key := e.primaryKey
        keyValue := key }
    Run.emit (.statement update.text)
    let result ← Run.write fun store => store.update update
    e.firstRow key result

def update (e : Entity) (moment : Moment) (record input : Record) : Run Record :=
  Run.logged .update (e.updateRow moment record input)

/-- The first row with the attributes is updated, or a row with attributes and values created. -/
def updateOrCreate (e : Entity) (moment : Moment) (attributes values : Record) : Run Record :=
  Run.logged .updateOrCreate do
    let pairs := attributes.keys.map fun column => (column, attributes.value column)
    match ← e.findOneBy pairs [] with
    | some record => e.updateRow moment record values
    | none => e.createRow moment (attributes.merge values)

/-- The time in both columns where they are missing. -/
def withMissingTimes (e : Entity) (moment : Moment) (row : Record) : Record :=
  if e.timestamps then
    [createdAt, updatedAt].foldl (fun row column =>
      if row.contains column then row else row.insert column (.text moment.now)) row
  else row

/-- The columns that a colliding row overwrites. The time of the change is one of them, if there
are any. -/
def conflictColumns (e : Entity) (update : List String) : List String :=
  if e.timestamps && !update.isEmpty && !update.contains updatedAt then update ++ [updatedAt]
  else update

def upsertRows (e : Entity) (moment : Moment) (rows : List Record) (unique update : List String) :
    Run Nat := do
  if unique.isEmpty then throw (.invalid .uniqueMissing)
  let unique ← Run.ofInvalid (unique.mapM checkedName)
  let update ← Run.ofInvalid (update.mapM checkedName)
  e.insertRows (rows.map (e.withMissingTimes moment)) (some ⟨unique, e.conflictColumns update⟩)

/-- Rows are inserted; those that collide in the unique columns overwrite the named columns of the
stored row, or are dropped when none are named. -/
def upsert (e : Entity) (moment : Moment) (rows : List Record) (unique update : List String) :
    Run Nat :=
  Run.logged .upsert (e.upsertRows moment rows unique update)

/-- The rows with the keys are deleted; no keys, no statement. -/
def delete (e : Entity) (ids : List Value) : Run Nat :=
  if ids.isEmpty then pure 0
  else Run.logged .delete (e.query.addCriteria [(.and, .member e.qualifiedKey ids false)]).delete

def deleteAll (e : Entity) : Run Nat :=
  Run.logged .delete e.query.delete

def deleteByColumn (e : Entity) (column : String) (value : Value) : Run Nat := do
  let q ← e.equalTo [(column, value)] []
  Run.logged .delete q.delete

end Entity

end TableQuery
