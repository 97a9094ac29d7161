import TableQuery.Error

namespace TableQuery

inductive JoinKind
  | inner
  | left
  | right
deriving DecidableEq, Repr

namespace JoinKind

def keyword : JoinKind → String
  | inner => "INNER JOIN"
  | left => "LEFT JOIN"
  | right => "RIGHT JOIN"

def names : List (String × JoinKind) :=
  [("inner", inner), ("left", left), ("right", right)]

/-- The kind in a payload. -/
def name : JoinKind → String
  | inner => "inner"
  | left => "left"
  | right => "right"

def ofJson : Shape.Reader JoinKind :=
  Shape.choice names

end JoinKind

/-- A table joined where two columns are equal. -/
structure Join where
  table : String
  foreignKey : String
  primaryKey : String
  kind : JoinKind := .inner
deriving DecidableEq, Repr

namespace Join

/-- The join in a statement. -/
def text (j : Join) : String :=
  j.kind.keyword ++ " " ++ j.table ++ " ON " ++ j.foreignKey ++ " = " ++ j.primaryKey

def shape : Shape.RecordShape :=
  ⟨"JoinDescriptor",
    [.of "table_name" Shape.text, .of "foreign_key" Shape.text, .of "primary_key" Shape.text,
     .optional "type" JoinKind.ofJson]⟩

/-- A join without a kind is an inner one. -/
def ofJson : Shape.Reader Join := fun j => do
  let values ← shape.values j
  pure
    { table := ← values.required "table_name" Shape.text
      foreignKey := ← values.required "foreign_key" Shape.text
      primaryKey := ← values.required "primary_key" Shape.text
      kind := ← values.optional "type" .inner JoinKind.ofJson }

def toJson (j : Join) : Json :=
  .object
    [("table_name", .text j.table), ("foreign_key", .text j.foreignKey),
     ("primary_key", .text j.primaryKey), ("type", .text j.kind.name)]

end Join

end TableQuery
