import TableQuery.Join
import TableQuery.Order
import TableQuery.Page

namespace TableQuery

/-- A relation to load with the rows, and its columns. -/
structure RelationRequest where
  name : String
  columns : List String
deriving DecidableEq, Repr

namespace RelationRequest

def shape : Shape.RecordShape :=
  ⟨"RelationDescriptor",
    [.of "relationship_name" Shape.text, .of "relationship_select" (Shape.list Shape.text)]⟩

def ofJson : Shape.Reader RelationRequest := fun j => do
  let values ← shape.values j
  let name ← values.required "relationship_name" Shape.text
  let columns ← values.required "relationship_select" (Shape.list Shape.text)
  pure ⟨name, columns⟩

def toJson (r : RelationRequest) : Json :=
  .object
    [("relationship_name", .text r.name), ("relationship_select", .list (r.columns.map .text))]

end RelationRequest

/-- One step of a list that is not its page. -/
inductive ListStep
  | sort (keys : List SortKey)
  | relate (relations : List RelationRequest)
  /-- A forced kind stands in for the kind of every join. -/
  | join (joins : List Join) (forced : Option JoinKind)
  | filter (payload : OrderedMap Json)

/-- The steps of a list in order, and its page, which comes after all of them. -/
structure ListOptions where
  steps : List ListStep := []
  page : Option Page := none

/-- The entry with the key moved behind all others. -/
def moveLast {α : Type} (key : String) (entries : List (String × α)) : List (String × α) :=
  match entries.find? (·.1 = key) with
  | some entry => entries.eraseP (·.1 = key) ++ [entry]
  | none => entries

namespace ListOptions

def addStep (o : ListOptions) (step : ListStep) : ListOptions :=
  { o with steps := o.steps ++ [step] }

/-- A typed payload whose fault names the option. -/
def readPayload {α : Type} (option : String) (reader : Shape.Reader α) (payload : Json) :
    Except InvalidInput α :=
  (reader payload).mapError (.payload option)

def readSortKey (entry : String × Json) : Except InvalidInput SortKey :=
  match entry.2.text? with
  | some word => (Direction.read word).map fun direction => ⟨entry.1, direction⟩
  | none => .error (.directionNoText entry.1)

def readSort : Json → Except InvalidInput (List SortKey)
  | .object entries => entries.mapM readSortKey
  | _ => .error .sortNoObject

def readPage (payload : Json) : Except InvalidInput Page := do
  let wanted ← readPayload "paginate" Page.ofJson payload
  Page.make wanted.number wanted.size

def readFilter : Json → Except InvalidInput (OrderedMap Json)
  | .object fields => .ok (OrderedMap.ofList fields)
  | _ => .error .filterNoObject

/-- The options with one entry more. -/
def readEntry (o : ListOptions) (entry : String × Json) : Except InvalidInput ListOptions :=
  let (key, payload) := entry
  if key = "sort" then (readSort payload).map fun keys => o.addStep (.sort keys)
  else if key = "relate" then
    (readPayload key (Shape.list RelationRequest.ofJson) payload).map fun relations =>
      o.addStep (.relate relations)
  else if key = "join" then
    (readPayload key (Shape.list Join.ofJson) payload).map fun joins => o.addStep (.join joins none)
  else if key = "filter" then (readFilter payload).map fun filter => o.addStep (.filter filter)
  else if key = "paginate" then (readPage payload).map fun page => { o with page := some page }
  else .error (.unknownOption key)

/-- Options in their JSON form: null, or an object. The page is read last, wherever it stands. -/
def ofJson : Json → Except InvalidInput ListOptions
  | .null => .ok {}
  | .object entries => (moveLast "paginate" entries).foldlM readEntry {}
  | _ => .error .optionsNoObject

end ListOptions

end TableQuery
