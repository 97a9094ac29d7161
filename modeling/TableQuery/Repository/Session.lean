import TableQuery.Store.Write

namespace TableQuery

/-- The writes that report their failure. -/
inductive Operation
  | create
  | insert
  | update
  | updateOrCreate
  | upsert
  | delete
deriving DecidableEq, Repr

/-- What operations report as they go. -/
inductive Event
  /-- A statement is about to run. -/
  | statement (text : String)
  /-- An update has nothing to write. -/
  | clean (key : Value)
  /-- A condition has no value for the column. -/
  | skipped (column : String)
  /-- Rows lack the key of a relation that is loaded with them. -/
  | lacking (relation parentKey : String) (count : Nat)
  | failed (operation : Operation)
deriving DecidableEq, Repr

/-- A store with the events so far. -/
structure Session where
  store : Store
  events : List Event := []

/-- What an operation finds outside the store: the time, and a key that is new. -/
structure Moment where
  now : String
  freshKey : String

/-- An operation on a session. The events of a failed one stay. -/
abbrev Run (α : Type) := ExceptT QueryError (StateM Session) α

namespace Run

variable {α : Type}

def emit (event : Event) : Run Unit :=
  modify fun session => { session with events := session.events ++ [event] }

def ofInvalid (result : Except InvalidInput α) : Run α :=
  match result with
  | .ok a => pure a
  | .error cause => throw (.invalid cause)

/-- Reads the store. -/
def read (ask : Store → Except StoreFault α) : Run α := do
  match ask (← get).store with
  | .ok a => pure a
  | .error fault => throw (.storage fault)

/-- Changes the store, if the change succeeds. -/
def write (change : Store → Except StoreFault (Store × α)) : Run α := do
  match change (← get).store with
  | .ok (store, a) => do
    modify fun session => { session with store := store }
    pure a
  | .error fault => throw (.storage fault)

/-- Reports a failure and lets it pass. -/
def logged (operation : Operation) (run : Run α) : Run α :=
  tryCatch run fun e => do
    emit (.failed operation)
    throw e

def select (s : Select) : Run (List Record) := do
  emit (.statement s.text)
  read fun store => store.select s

end Run

end TableQuery
