import TableQuery.Condition.Basic
import TableQuery.Options
import TableQuery.Statement

namespace TableQuery

/-- A relation to load with the rows of a query. -/
structure EagerLoad where
  relation : Relation
  columns : List String
deriving DecidableEq, Repr

/-- A query on one entity that is not yet run. -/
structure Query where
  entity : Entity
  columns : List String := []
  criteria : Criteria := []
  joins : List Join := []
  order : List SortKey := []
  loads : List EagerLoad := []
  limit : Option Int := none
  offset : Option Int := none

/-- What stands behind the last place where the mark occurs; ASCII case does not count. -/
def afterLast? (mark : List Char) : List Char → Option (List Char)
  | [] => none
  | c :: rest =>
    match afterLast? mark rest with
    | some found => some found
    | none =>
      if mark.isPrefixOf ((c :: rest).map Char.toLower) then some ((c :: rest).drop mark.length)
      else none

/-- The name under which a projected column comes back. -/
def resultName (column : String) : String :=
  let cs := column.toList
  match afterLast? " as ".toList cs with
  | some shown => String.ofList (Text.trimmed shown)
  | none => String.ofList ((afterLast? ['.'] cs).getD cs)

namespace Query

def ofEntity (e : Entity) : Query where
  entity := e

/-- The projection; no columns at all stand for every column. -/
def select (q : Query) (columns : List String) : Except InvalidInput Query := do
  let columns ← columns.mapM checkedName
  pure { q with columns := columns }

def addCriteria (q : Query) (criteria : Criteria) : Query :=
  { q with criteria := q.criteria ++ criteria }

def filterBy (q : Query) (condition : Condition) : Except InvalidInput Query :=
  (condition.criteria q.entity).map q.addCriteria

def join (q : Query) (join : Join) (forced : Option JoinKind) : Except InvalidInput Query := do
  let table ← checkedName join.table
  let foreignKey ← checkedName join.foreignKey
  let primaryKey ← checkedName join.primaryKey
  pure { q with joins := q.joins ++ [⟨table, foreignKey, primaryKey, forced.getD join.kind⟩] }

/-- Later sort keys order what earlier ones leave open. -/
def orderBy (q : Query) (key : SortKey) : Except InvalidInput Query := do
  let column ← checkedName key.column
  pure { q with order := q.order ++ [⟨column, key.direction⟩] }

def load (q : Query) (request : RelationRequest) : Except InvalidInput Query := do
  let relation ← q.entity.relation request.name
  let columns ← request.columns.mapM checkedName
  pure { q with loads := q.loads ++ [⟨relation, columns⟩] }

def relate (q : Query) (requests : List RelationRequest) : Except InvalidInput Query :=
  requests.foldlM load q

def applyStep (q : Query) : ListStep → Except InvalidInput Query
  | .sort keys => keys.foldlM orderBy q
  | .relate requests => q.relate requests
  | .join joins forced => joins.foldlM (fun q join => q.join join forced) q
  | .filter payload => (q.entity.filterCriteria payload).map q.addCriteria

/-- The steps of the options; the page is left to who runs the query. -/
def applyOptions (q : Query) (options : ListOptions) : Except InvalidInput Query :=
  options.steps.foldlM applyStep q

/-- The query of a list. -/
def ofList (e : Entity) (columns : List String) (condition : Condition) (options : ListOptions) :
    Except InvalidInput Query := do
  let q ← (ofEntity e).filterBy condition
  let q ← q.select columns
  q.applyOptions options

/-- The columns to read. A projection without star gains the parent key of each relation to load
that it does not bring back. -/
def projection (q : Query) : List String :=
  let star := q.entity.table ++ ".*"
  if q.columns.isEmpty then ["*"]
  else if q.columns.any fun column => column = "*" || column = star then q.columns
  else
    q.loads.foldl (fun columns load =>
      let key := load.relation.parentKey
      if columns.any (resultName · = key) then columns
      else columns ++ [q.entity.table ++ "." ++ key]) q.columns

def source (q : Query) : Source where
  table := q.entity.table
  joins := q.joins
  criteria := q.criteria

def toSelect (q : Query) : Select where
  columns := q.projection
  source := q.source
  order := q.order
  limit := q.limit
  offset := q.offset

def toDelete (q : Query) : Except InvalidInput Statement :=
  if q.joins.isEmpty then .ok (.delete q.entity.table q.criteria) else .error .deleteThroughJoin

def bindings (q : Query) : List Value :=
  Criteria.bindings q.criteria

end Query

/-- One call in the making of a query. -/
inductive QueryStep
  | select (columns : List String)
  | filterBy (condition : Condition)
  | addCriteria (criteria : Criteria)
  | join (join : Join) (forced : Option JoinKind)
  | orderBy (key : SortKey)
  | load (request : RelationRequest)
  | relate (requests : List RelationRequest)
  | limit (count : Int)
  | offset (count : Int)
  | options (options : ListOptions)

namespace Query

def applyCall (q : Query) : QueryStep → Except InvalidInput Query
  | .select columns => q.select columns
  | .filterBy condition => q.filterBy condition
  | .addCriteria criteria => .ok (q.addCriteria criteria)
  | .join join forced => q.join join forced
  | .orderBy key => q.orderBy key
  | .load request => q.load request
  | .relate requests => q.relate requests
  | .limit count => .ok { q with limit := some count }
  | .offset count => .ok { q with offset := some count }
  | .options options => q.applyOptions options

end Query

end TableQuery
