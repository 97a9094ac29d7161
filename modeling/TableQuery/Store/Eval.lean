import TableQuery.Pattern
import TableQuery.Sql.Expr
import TableQuery.Store.Scope

namespace TableQuery

/-- Both, as far as it is known: a false side decides alone. -/
def truthAnd : Option Bool → Option Bool → Option Bool
  | some false, _ => some false
  | _, some false => some false
  | some true, some true => some true
  | _, _ => none

/-- Either, as far as it is known: a true side decides alone. -/
def truthOr : Option Bool → Option Bool → Option Bool
  | some true, _ => some true
  | _, some true => some true
  | some false, some false => some false
  | _, _ => none

def truthNot (t : Option Bool) : Option Bool :=
  t.map (!·)

def negatedIf (negated : Bool) (t : Option Bool) : Option Bool :=
  if negated then truthNot t else t

namespace Cell

/-- A comparison; nothing is known of null. -/
def compare (r : Sql.Relator) (a b : Cell) : Option Bool :=
  if a.datum.isNull || b.datum.isNull then none
  else
    let convert := Affinity.comparing a.affinity b.affinity
    some (r.holds ((convert a.datum).order (convert b.datum)))

def between (e low high : Cell) : Option Bool :=
  truthAnd (compare .ge e low) (compare .le e high)

/-- Equality with one of the items, taken without their affinities. -/
def member (e : Cell) (items : List Datum) : Option Bool :=
  items.foldr (fun item t => truthOr (compare .eq e ⟨none, item⟩) t) (some false)

def like (e pattern : Datum) (escape : Option Char) : Option Bool :=
  if e.isNull || pattern.isNull then none
  else some (matchesPattern escape pattern.textForm e.textForm)

end Cell

/-- What the clock shows. -/
def Clock.shown (c : Clock) : Sql.Present → String
  | .day => c.day.text
  | .time => c.time
  | .dayAndTime => c.day.text ++ " " ++ c.time

/-- The day of a value as text; null for a value that says none. -/
def dateOf (today : Day) (d : Datum) : Datum :=
  match Day.ofDatum? today d with
  | some day => .text day.text
  | none => .null

namespace Sql.Expr

/-- The level of the table that a test for related rows reads. -/
def innerLevel (shown : String) (schema : Schema) (row : Row) : Level :=
  ⟨⟨[(shown, schema)], []⟩, [row]⟩

mutual

/-- Whether all names of the test lead somewhere. -/
def check (store : Store) (env : Env) : Expr → Except StoreFault Unit
  | literal _ => .ok ()
  | bound _ => .ok ()
  | present _ => .ok ()
  | column table name => (env.lookup table name).map fun _ => ()
  | not e => e.check store env
  | and a b => do
    a.check store env
    b.check store env
  | or a b => do
    a.check store env
    b.check store env
  | compare _ a b => do
    a.check store env
    b.check store env
  | isNull e _ => e.check store env
  | member e items _ => do
    e.check store env
    checkItems store env items
  | between e low high _ => do
    e.check store env
    low.check store env
    high.check store env
  | like e pattern _ _ => do
    e.check store env
    pattern.check store env
  | date e => e.check store env
  | caseOf arms otherwise => do
    checkArms store env arms
    otherwise.check store env
  | anyRow table shown test =>
    match store.readable? none table with
    | some found => test.check store (innerLevel shown found.schema found.schema.nullRow :: env)
    | none => .error .statement

def checkItems (store : Store) (env : Env) : List Expr → Except StoreFault Unit
  | [] => .ok ()
  | e :: rest => do
    e.check store env
    checkItems store env rest

def checkArms (store : Store) (env : Env) : List (Expr × Expr) → Except StoreFault Unit
  | [] => .ok ()
  | (test, value) :: rest => do
    test.check store env
    value.check store env
    checkArms store env rest

end

mutual

/-- The value of a checked test; a name that leads nowhere is null. -/
def eval (store : Store) (env : Env) : Expr → Cell
  | literal d => ⟨none, d⟩
  | bound v => ⟨none, .ofValue v⟩
  | present p => ⟨none, .text (store.clock.shown p)⟩
  | column table name => (env.lookup table name).toOption.getD ⟨none, .null⟩
  | not e => ⟨none, .ofTruth (truthNot (e.eval store env).datum.truth)⟩
  | and a b =>
    ⟨none, .ofTruth (truthAnd (a.eval store env).datum.truth (b.eval store env).datum.truth)⟩
  | or a b =>
    ⟨none, .ofTruth (truthOr (a.eval store env).datum.truth (b.eval store env).datum.truth)⟩
  | compare r a b => ⟨none, .ofTruth (Cell.compare r (a.eval store env) (b.eval store env))⟩
  | isNull e negated => ⟨none, .ofTruth (some ((e.eval store env).datum.isNull != negated))⟩
  | member e items negated =>
    ⟨none, .ofTruth (negatedIf negated (Cell.member (e.eval store env) (evalItems store env items)))⟩
  | between e low high negated =>
    ⟨none, .ofTruth (negatedIf negated
      (Cell.between (e.eval store env) (low.eval store env) (high.eval store env)))⟩
  | like e pattern escape negated =>
    ⟨none, .ofTruth (negatedIf negated
      (Cell.like (e.eval store env).datum (pattern.eval store env).datum escape))⟩
  | date e => ⟨none, dateOf store.clock.day (e.eval store env).datum⟩
  | caseOf arms otherwise =>
    ⟨none, (evalArms store env arms).getD (otherwise.eval store env).datum⟩
  | anyRow table shown test =>
    match store.readable? none table with
    | some found =>
      let holds (row : Row) : Bool :=
        (test.eval store (innerLevel shown found.schema row :: env)).datum.truth = some true
      ⟨none, .ofTruth (some (found.rows.any holds))⟩
    | none => ⟨none, .null⟩

def evalItems (store : Store) (env : Env) : List Expr → List Datum
  | [] => []
  | e :: rest => (e.eval store env).datum :: evalItems store env rest

def evalArms (store : Store) (env : Env) : List (Expr × Expr) → Option Datum
  | [] => none
  | (test, value) :: rest =>
    if (test.eval store env).datum.truth = some true then some (value.eval store env).datum
    else evalArms store env rest

end

end Sql.Expr

end TableQuery
