import TableQuery.Shape

namespace TableQuery

/-- Why a query, a condition, options or the input of a write cannot be used. -/
inductive InvalidInput
  | identifier (name : String)
  | operator (written : String)
  | direction (written : String)
  | relation (table name : String)
  | filterOption (table : String)
  | pairExpected (operator : String)
  | relationshipMissing (operator : String)
  | dateRange (written : String)
  | conditionNoObject
  | operatorMissing (column : String)
  | optionsNoObject
  | payload (option : String) (fault : ShapeFault)
  | filterNoObject
  | unknownOption (name : String)
  | sortNoObject
  | directionNoText (column : String)
  | pageBelowOne (page size : Int)
  | pageOutOfRange (page size : Int)
  | deleteThroughJoin
  | rowsWithoutColumns
  | rowsDiffer (table : String) (columns : List String)
  | keyMissing (table key : String)
  | uniqueMissing
deriving DecidableEq, Repr

def inQuotes (s : String) : String :=
  "'" ++ s ++ "'"

def InvalidInput.message : InvalidInput → String
  | identifier name => inQuotes name ++ " is not a valid identifier"
  | operator written => "unsupported operator " ++ inQuotes written
  | direction written => "sort direction must be asc or desc, got " ++ inQuotes written
  | relation table name => table ++ " has no relation named " ++ inQuotes name
  | filterOption table => table ++ " does not support the filter option"
  | pairExpected name => name ++ " expects a [low, high] pair"
  | relationshipMissing name => name ++ " requires relationship_name"
  | dateRange written => inQuotes written ++ " is not a dd/mm/YYYY - dd/mm/YYYY range"
  | conditionNoObject => "condition must be an object"
  | operatorMissing column => "condition on " ++ inQuotes column ++ " has no operator"
  | optionsNoObject => "options must be an object"
  | payload option fault => "invalid " ++ option ++ " payload: " ++ fault.message
  | filterNoObject => "filter must be an object"
  | unknownOption name => "unknown list option " ++ inQuotes name
  | sortNoObject => "sort must be an object of column: direction"
  | directionNoText column => "sort direction for " ++ inQuotes column ++ " must be a string"
  | pageBelowOne page size =>
    "page and page_size must be >= 1 (got " ++ Text.intText page ++ " and " ++
      Text.intText size ++ ")"
  | pageOutOfRange page size =>
    "page " ++ Text.intText page ++ " is out of range for page_size " ++ Text.intText size
  | deleteThroughJoin => "cannot delete through a join"
  | rowsWithoutColumns => "cannot insert rows without columns"
  | rowsDiffer table columns =>
    "every row inserted into " ++ table ++ " must have the columns (" ++
      Text.commaList columns ++ ")"
  | keyMissing table key => "cannot update a " ++ table ++ " record without its " ++ key
  | uniqueMissing => "upsert needs at least one unique column"

/-- Why the store refuses a statement. -/
inductive StoreFault
  /-- The statement cannot be read, or names what is not there. -/
  | statement
  /-- No key is left above the largest one. -/
  | keysExhausted
  /-- A row key that is no integer. -/
  | keyType
  | notNull
  | primaryKey
  | unique
  /-- A key in use, of a table that shows none. -/
  | rowKey
  /-- A row would refer to a row that is not there. -/
  | foreignKey
  /-- A text of a row that is to be read is no UTF-8. -/
  | unreadable
deriving DecidableEq, Repr

/-- The result code that stands for the fault. One that comes after the statement has none. -/
def StoreFault.code : StoreFault → Nat
  | statement => 1
  | keysExhausted => 13
  | keyType => 20
  | foreignKey => 787
  | notNull => 1299
  | primaryKey => 1555
  | unique => 2067
  | rowKey => 2579
  | unreadable => 0

/-- Why an operation on the rows of an entity fails. -/
inductive QueryError
  | notFound (table key : String)
  | invalid (cause : InvalidInput)
  | storage (fault : StoreFault)
  | decode (fault : ShapeFault)
deriving DecidableEq, Repr

namespace QueryError

def message : QueryError → String
  | notFound table key => "no " ++ table ++ " row matches key " ++ key
  | invalid cause => "invalid query input: " ++ cause.message
  | storage fault => "storage failure: " ++ Text.intText fault.code
  | decode fault => "record decode failure: " ++ fault.message

def isNotFound : QueryError → Bool
  | notFound _ _ => true
  | _ => false

end QueryError

end TableQuery
