import TableQuery.Page
import TableQuery.Text.Numeral

namespace TableQuery

/-- What a program is told about its database and its lists. -/
structure Config where
  databaseUrl : String := "sqlite:./data/repokit.db"
  maxConnections : Int := 10
  /-- How many seconds to wait for a connection. -/
  acquireSeconds : Int := 10
  defaultPageSize : Int := 10
  unlimitedPageSize : Int := Page.unlimitedSize
deriving DecidableEq, Repr

/-- Why variables make no configuration. -/
inductive ConfigFault
  | numeral (name : String) (fault : Text.NumeralFault)
  | noConnection
  | pageSizes (default unlimited : Int)
deriving DecidableEq, Repr

def ConfigFault.message : ConfigFault → String
  | numeral name fault => "Invalid " ++ name ++ ": " ++ fault.message
  | noConnection => "DATABASE_MAX_CONNECTIONS must be at least 1"
  | pageSizes default unlimited =>
    "page sizes must satisfy 1 <= DEFAULT_PAGE_SIZE (" ++ Text.intText default ++
      ") <= UNLIMITED_PAGE_SIZE (" ++ Text.intText unlimited ++ ")"

namespace Config

/-- The number in a variable, or a default for a variable that is not set. -/
def readNumber (lookup : String → Option String) (name : String) (range : Text.NumeralRange)
    (absent : Int) : Except ConfigFault Int :=
  match lookup name with
  | some written => (Text.readInt range written.toList).mapError (.numeral name)
  | none => .ok absent

def checked (c : Config) : Except ConfigFault Config :=
  if c.maxConnections = 0 then .error .noConnection
  else if c.defaultPageSize < 1 ∨ c.unlimitedPageSize < c.defaultPageSize then
    .error (.pageSizes c.defaultPageSize c.unlimitedPageSize)
  else .ok c

/-- The configuration that the variables give. A path of the database counts before its URL. All
numbers are read before their sizes are looked at. -/
def read (lookup : String → Option String) : Except ConfigFault Config := do
  let absent : Config := {}
  let connections ←
    readNumber lookup "DATABASE_MAX_CONNECTIONS" .nat32 absent.maxConnections
  let seconds ←
    readNumber lookup "DATABASE_ACQUIRE_TIMEOUT_SECS" .nat64 absent.acquireSeconds
  let pageSize ← readNumber lookup "DEFAULT_PAGE_SIZE" .int64 absent.defaultPageSize
  let unlimited ← readNumber lookup "UNLIMITED_PAGE_SIZE" .int64 absent.unlimitedPageSize
  checked
    { databaseUrl :=
        ((lookup "DATABASE_PATH").orElse fun _ => lookup "DATABASE_URL").getD absent.databaseUrl
      maxConnections := connections
      acquireSeconds := seconds
      defaultPageSize := pageSize
      unlimitedPageSize := unlimited }

def pageLimits (c : Config) : PageLimits :=
  ⟨c.defaultPageSize, c.unlimitedPageSize⟩

end Config

end TableQuery
