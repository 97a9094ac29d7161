import TableQuery.Entity

namespace TableQuery

/-- A test of one column, before it is known which column and entity. The names with `or` put
their clause behind an OR. -/
inductive Predicate
  | member (values : List Value)
  | orMember (values : List Value)
  | notMember (values : List Value)
  | orNotMember (values : List Value)
  | between (low high : Value)
  | orBetween (low high : Value)
  | notBetween (low high : Value)
  | orNotBetween (low high : Value)
  | isNull
  | orNull
  | notNull
  | orNotNull
  | orEq (value : Value)
  | compare (op : Comparison) (value : Value)
  | date (value : Value)
  | dateUntil (value : Value)
  | like (text : String)
  | orLike (text : String)
  | has (relation : String) (value : Value)
  | hasLike (relation : String) (text : String)
  | hasBetween (relation : String) (low high : Value)
  | memberOrNull (values : List Value)
  | orMemberNotNull (values : List Value)
  | activeOn (day : Value)
deriving DecidableEq, Repr

/-- The clause of a predicate on a column of an entity. -/
def Predicate.clause (e : Entity) (column : String) : Predicate → Except InvalidInput Clause
  | member values => .ok (.and, .member column values false)
  | orMember values => .ok (.or, .member column values false)
  | notMember values => .ok (.and, .member column values true)
  | orNotMember values => .ok (.or, .member column values true)
  | between low high => .ok (.and, .between column low high false)
  | orBetween low high => .ok (.or, .between column low high false)
  | notBetween low high => .ok (.and, .between column low high true)
  | orNotBetween low high => .ok (.or, .between column low high true)
  | isNull => .ok (.and, .isNull column false)
  | orNull => .ok (.or, .isNull column false)
  | notNull => .ok (.and, .isNull column true)
  | orNotNull => .ok (.or, .isNull column true)
  | orEq value => .ok (.or, .compare column .eq value)
  | compare op value => .ok (.and, .compare column op value)
  | date value => .ok (.and, .date column .eq value)
  | dateUntil value => .ok (.and, .date column .le value)
  | like text => .ok (.and, .contains column text)
  | orLike text => .ok (.or, .contains column text)
  | has relation value => do
    let found ← e.relation relation
    pure (.and, .has e.table found [(.and, .compare column .eq value)])
  | hasLike relation text => do
    let found ← e.relation relation
    pure (.and, .has e.table found [(.and, .contains column text)])
  | hasBetween relation low high => do
    let found ← e.relation relation
    pure (.and, .has e.table found [(.and, .between column low high false)])
  | memberOrNull values =>
    .ok (.and, .group [(.and, .member column values false), (.or, .isNull column false)])
  | orMemberNotNull values =>
    .ok (.or, .group [(.and, .member column values false), (.and, .isNull column true)])
  | activeOn day => .ok (.and, .activeOn e.table day)

/-- Columns with their predicates in order. An entry without a predicate tests nothing. -/
abbrev Condition := List (String × Option Predicate)

namespace Condition

/-- Every column has its value, null standing for the test for null. -/
def equalities (pairs : List (String × Value)) : Condition :=
  pairs.map fun pair => (pair.1, some (.compare .eq pair.2))

/-- What is left of a condition when it has been turned into clauses: those up to the first fault,
if there is one, and the columns passed over on the way. -/
structure Compiled where
  criteria : Criteria
  skipped : List String
  fault : Option InvalidInput

def compile (e : Entity) : Condition → Compiled
  | [] => ⟨[], [], none⟩
  | (column, none) :: rest =>
    let compiled := compile e rest
    { compiled with skipped := column :: compiled.skipped }
  | (column, some predicate) :: rest =>
    match checkedName column >>= fun column => predicate.clause e column with
    | .error fault => ⟨[], [], some fault⟩
    | .ok clause =>
      let compiled := compile e rest
      { compiled with criteria := clause :: compiled.criteria }

/-- The clauses of a condition without a fault. -/
def criteria (e : Entity) (condition : Condition) : Except InvalidInput Criteria :=
  let compiled := compile e condition
  match compiled.fault with
  | some fault => .error fault
  | none => .ok compiled.criteria

theorem criteria_cons_none {e : Entity} {column : String} {rest : Condition} :
    criteria e ((column, none) :: rest) = criteria e rest := by
  simp [criteria, compile]

theorem criteria_cons_some {e : Entity} {column : String} {predicate : Predicate}
    {rest : Condition} :
    criteria e ((column, some predicate) :: rest) = (do
      let column ← checkedName column
      let clause ← predicate.clause e column
      let clauses ← criteria e rest
      pure (clause :: clauses)) := by
  simp only [criteria, compile]
  cases checkedName column with
  | error fault => rfl
  | ok column =>
    cases h : predicate.clause e column with
    | error fault => simp [bind, Except.bind, h]
    | ok clause =>
      cases hf : (compile e rest).fault <;> simp [bind, Except.bind, h, pure, Except.pure]

end Condition

end TableQuery
