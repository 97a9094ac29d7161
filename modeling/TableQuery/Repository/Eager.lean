import TableQuery.Query
import TableQuery.Repository.Session

namespace TableQuery

namespace EagerLoad

/-- The columns to read from the related table. The key that the rows are matched by is always
among them. -/
def selectList (load : EagerLoad) : List String :=
  let key := load.relation.relatedKey
  if load.columns.isEmpty || load.columns.contains "*" then ["*"]
  else if load.columns.contains key then load.columns
  else load.columns ++ [key]

/-- Values of which no earlier one looks the same. -/
def distinct : List Value → List Value
  | [] => []
  | v :: rest => v :: (distinct rest).filter fun w => w.display ≠ v.display

/-- The keys of the parents, each once, null aside. -/
def keys (load : EagerLoad) (parents : List Record) : List Value :=
  distinct ((parents.map fun parent => parent.value load.relation.parentKey).filter fun key =>
    !key.isNull)

/-- The statement for the related rows of all parents. -/
def toSelect (load : EagerLoad) (keys : List Value) : Select where
  columns := load.selectList
  source :=
    { table := load.relation.table
      criteria := [(.and, .member load.relation.relatedKey keys false)] }

/-- The related rows of one parent, matched by how the keys look. -/
def relatedTo (load : EagerLoad) (related : List Record) (parent : Record) : List Record :=
  let key := parent.value load.relation.parentKey
  if key.isNull then []
  else related.filter fun row => (row.value load.relation.relatedKey).display = key.display

/-- All rows of a relation to many, the first or null of a relation to one. -/
def attached (kind : RelationKind) (rows : List Record) : Json :=
  match kind with
  | .many => .list (rows.map Record.toJson)
  | .one => ((rows.head?).map Record.toJson).getD .null

/-- The parent with its related rows under the name of the relation. -/
def attach (load : EagerLoad) (related : List Record) (parent : Record) : Record :=
  parent.insert load.relation.name (attached load.relation.kind (load.relatedTo related parent))

/-- The parents with their related rows, which take one statement for all of them, or none where
no parent has a key. -/
def run (load : EagerLoad) (parents : List Record) : Run (List Record) := do
  let key := load.relation.parentKey
  let missing := (parents.filter fun parent => !parent.contains key).length
  if 0 < missing then Run.emit (.lacking load.relation.name key missing)
  let keys := load.keys parents
  let related ← if keys.isEmpty then pure [] else Run.select (load.toSelect keys)
  pure (parents.map (load.attach related))

/-- The parents with the rows of several relations, loaded one after the other. -/
def runAll (loads : List EagerLoad) (parents : List Record) : Run (List Record) :=
  if parents.isEmpty then pure [] else loads.foldlM (fun parents load => load.run parents) parents

end EagerLoad

end TableQuery
