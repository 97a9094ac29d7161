import TableQuery.Repository.Eager

namespace TableQuery

namespace Query

def fetchAll (q : Query) : Run (List Record) := do
  let rows ← Run.select q.toSelect
  EagerLoad.runAll q.loads rows

def first (q : Query) : Run (Option Record) := do
  let rows ← fetchAll { q with limit := some 1 }
  pure rows.head?

def count (q : Query) : Run Nat := do
  Run.emit (.statement (Statement.count q.source).text)
  Run.read fun store => store.count q.source

def anyRow (q : Query) : Run Bool := do
  Run.emit (.statement (Statement.anyRow q.source).text)
  Run.read fun store => store.anyRow q.source

/-- The first row with a primary key that also meets the query. -/
def findOrFail (q : Query) (id : Value) : Run Record := do
  let found ← first (q.addCriteria [(.and, .compare q.entity.qualifiedKey .eq id)])
  match found with
  | some row => pure row
  | none => throw (.notFound q.entity.table id.display)

/-- The rows of one page, counted before they are read. -/
def paginate (q : Query) (page : Page) : Run (Paged Record) := do
  let total ← q.count
  let items ← fetchAll { q with limit := some page.size, offset := some page.offset }
  pure (Paged.of items total page)

def delete (q : Query) : Run Nat := do
  let statement ← Run.ofInvalid q.toDelete
  Run.emit (.statement statement.text)
  let result ← Run.write fun store => store.delete q.entity.table q.criteria
  pure result.count

/-- A call in the making of a query, with the reports of its condition. -/
def runCall (q : Query) (call : QueryStep) : Run Query := do
  match call with
  | .filterBy condition => (condition.compile q.entity).skipped.forM fun c => Run.emit (.skipped c)
  | _ => pure ()
  Run.ofInvalid (q.applyCall call)

def runCalls (q : Query) (calls : List QueryStep) : Run Query :=
  calls.foldlM runCall q

end Query

/-- The rows of a list, or one page of them. -/
inductive ListResult
  | rows (found : List Record)
  | page (found : Paged Record)

namespace ListResult

def records : ListResult → List Record
  | rows found => found
  | page found => found.items

def toJson : ListResult → Json
  | rows found => .list (found.map Record.toJson)
  | page found => found.toJson Record.toJson

end ListResult

/-! The operations that read the rows of an entity. -/

namespace Entity

def query (e : Entity) : Query :=
  .ofEntity e

/-- The query of a list, not yet run. -/
def listQuery (e : Entity) (columns : List String) (condition : Condition) (options : ListOptions) :
    Run Query :=
  e.query.runCalls [.filterBy condition, .select columns, .options options]

def list (e : Entity) (columns : List String) (condition : Condition) (options : ListOptions) :
    Run ListResult := do
  let q ← e.listQuery columns condition options
  match options.page with
  | some page => (q.paginate page) >>= fun page => pure (.page page)
  | none => q.fetchAll >>= fun rows => pure (.rows rows)

def detailQuery (e : Entity) (condition : Condition) (columns : List String)
    (relations : List RelationRequest) : Run Query :=
  e.query.runCalls [.filterBy condition, .select columns, .relate relations]

def detail (e : Entity) (condition : Condition) (columns : List String)
    (relations : List RelationRequest) : Run (Option Record) := do
  let q ← e.detailQuery condition columns relations
  q.first

def findOneOrFail (e : Entity) (id : Value) (columns : List String) (condition : Condition)
    (relations : List RelationRequest) : Run Record := do
  let q ← e.detailQuery condition columns relations
  q.findOrFail id

/-- The query of the rows with given values, not yet run. -/
def equalTo (e : Entity) (pairs : List (String × Value)) (columns : List String) : Run Query :=
  e.query.runCalls [.select columns, .filterBy (Condition.equalities pairs)]

def find (e : Entity) (id : Value) : Run (Option Record) :=
  (e.query.addCriteria [(.and, .compare e.qualifiedKey .eq id)]).first

def findBy (e : Entity) (pairs : List (String × Value)) (columns : List String) :
    Run (List Record) := do
  (← e.equalTo pairs columns).fetchAll

def findOneBy (e : Entity) (pairs : List (String × Value)) (columns : List String) :
    Run (Option Record) := do
  (← e.equalTo pairs columns).first

def findByColumn (e : Entity) (column : String) (value : Value) : Run (Option Record) :=
  e.findOneBy [(column, value)] []

/-- The query of the rows whose column has one of the values, not yet run. -/
def memberQuery (e : Entity) (column : String) (values : List Value) : Run Query := do
  let column ← Run.ofInvalid (checkedName column)
  pure (e.query.addCriteria [(.and, .member column values false)])

def findByMember (e : Entity) (column : String) (values : List Value) : Run (List Record) := do
  (← e.memberQuery column values).fetchAll

/-- The values of a column by primary key, in the order of the keys. -/
def pluck (e : Entity) (column : String) : Run (OrderedMap Json) := do
  let q ← e.query.runCalls [.select [e.primaryKey, column], .orderBy ⟨e.primaryKey, .asc⟩]
  let rows ← q.fetchAll
  pure (OrderedMap.ofList (rows.map fun row =>
    ((row.value e.primaryKey).display, (row.get? column).getD .null)))

def hasRow (e : Entity) (column : String) (value : Value) : Run Bool := do
  (← e.equalTo [(column, value)] []).anyRow

/-- The sort key asked for, or the entity's own. -/
def sortKey (e : Entity) (order : Option SortKey) : SortKey :=
  order.getD e.defaultSort

def all (e : Entity) (columns : List String) (order : Option SortKey) : Run (List Record) := do
  let q ← e.query.runCalls [.select columns, .orderBy (e.sortKey order)]
  q.fetchAll

/-- The calls that load relations with all their columns. -/
def wholeRelations (relations : List String) : List QueryStep :=
  relations.map fun name => .load ⟨name, ["*"]⟩

def allWith (e : Entity) (relations columns : List String) (order : Option SortKey) :
    Run (List Record) := do
  let q ← e.query.runCalls
    ([.select columns, .orderBy (e.sortKey order)] ++ wholeRelations relations)
  q.fetchAll

def findOrdered (e : Entity) (key : SortKey) (pairs : List (String × Value)) :
    Run (List Record) := do
  let q ← e.equalTo pairs []
  (← q.runCall (.orderBy key)).fetchAll

def findByWith (e : Entity) (relations : List String) (pairs : List (String × Value))
    (columns : List String) (order : Option SortKey) : Run (List Record) := do
  let q ← e.equalTo pairs columns
  (← q.runCalls (.orderBy (e.sortKey order) :: wholeRelations relations)).fetchAll

/-- The query of the rows whose column has one of the values, with a relation, not yet run. -/
def memberWith (e : Entity) (column : String) (values : List Value) (relation : String) :
    Run Query := do
  let q ← e.memberQuery column values
  q.runCall (.load ⟨relation, ["*"]⟩)

end Entity

end TableQuery
