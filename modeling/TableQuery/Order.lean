import TableQuery.Error

namespace TableQuery

inductive Direction
  | asc
  | desc
deriving DecidableEq, Repr

namespace Direction

/-- The direction in a statement. -/
def keyword : Direction → String
  | asc => "ASC"
  | desc => "DESC"

/-- The direction in a payload. -/
def name : Direction → String
  | asc => "asc"
  | desc => "desc"

def names : List (String × Direction) :=
  [("asc", asc), ("desc", desc)]

/-- The case of ASCII letters does not count, blanks do. -/
def read (word : String) : Except InvalidInput Direction :=
  let plain := Text.lower word
  match names.find? (·.1 = plain) with
  | some entry => .ok entry.2
  | none => .error (.direction plain)

/-- A direction in a typed payload is spelled exactly. -/
def shape : Shape.Reader Direction :=
  Shape.choice names

end Direction

/-- A column to sort by. -/
structure SortKey where
  column : String
  direction : Direction
deriving DecidableEq, Repr

/-- The sort key in a statement. -/
def SortKey.text (key : SortKey) : String :=
  key.column ++ " " ++ key.direction.keyword

end TableQuery
