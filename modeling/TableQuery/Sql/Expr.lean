import TableQuery.Sql.Token
import TableQuery.Text.Ascii

namespace TableQuery.Sql

/-- How two sides of a comparison stand to each other. -/
inductive Relator
  | eq
  | ne
  | lt
  | le
  | gt
  | ge
deriving DecidableEq, Repr

/-- Whether the relator holds for two sides in this order. -/
def Relator.holds : Relator → Ordering → Bool
  | eq, o => o = .eq
  | ne, o => o ≠ .eq
  | lt, o => o = .lt
  | le, o => o ≠ .gt
  | gt, o => o = .gt
  | ge, o => o ≠ .lt

/-- What a statement can ask of the present. -/
inductive Present
  | day
  | time
  | dayAndTime
deriving DecidableEq, Repr

/-- A test or a value in a statement. -/
inductive Expr
  | literal (d : Datum)
  | bound (v : Value)
  | present (p : Present)
  | column (table : Option String) (name : String)
  | not (e : Expr)
  | and (a b : Expr)
  | or (a b : Expr)
  | compare (r : Relator) (a b : Expr)
  | isNull (e : Expr) (negated : Bool)
  | member (e : Expr) (items : List Expr) (negated : Bool)
  | between (e low high : Expr) (negated : Bool)
  | like (e pattern : Expr) (escape : Option Char) (negated : Bool)
  | date (e : Expr)
  /-- The first arm whose test is true, or what stands for none. -/
  | caseOf (arms : List (Expr × Expr)) (otherwise : Expr)
  | anyRow (table shown : String) (test : Expr)

/-- The words for the present. -/
def present? (name : String) : Option Present :=
  ([("current_date", Present.day), ("current_time", .time),
    ("current_timestamp", .dayAndTime)].find? fun word => Text.sameName word.1 name).map Prod.snd

/-- What a name stands for, with its table or alone. Words that begin something of their own are no
names of columns or of their tables. -/
def reference? (table : Option String) (name : String) : Option Expr :=
  let first := table.getD name
  if ["cast", "raise"].any (Text.sameName first) then none
  else
    match present? first, table with
    | some p, none => some (.present p)
    | some _, some _ => none
    | none, _ => some (.column table name)

namespace Expr

/-- A conjunction. Beside a zero the other side is not even looked at. -/
def both (a b : Expr) : Expr :=
  match a, b with
  | literal (.int 0), _ => literal (.int 0)
  | _, literal (.int 0) => literal (.int 0)
  | a, b => and a b

/-- Membership in a list. Without items it is settled. -/
def memberOf (e : Expr) (items : List Expr) (negated : Bool) : Expr :=
  if items.isEmpty then literal (.int (if negated then 1 else 0)) else member e items negated

/-- One more level where a test is negated. -/
def negation (negated : Bool) : Nat :=
  if negated then 1 else 0

mutual

/-- How many levels of parts an expression has. -/
def height : Expr → Nat
  | literal _ => 1
  | bound _ => 1
  | present _ => 1
  | column table _ => if table.isSome then 2 else 1
  | not e => e.height + 1
  | and a b => max a.height b.height + 1
  | or a b => max a.height b.height + 1
  | compare _ a b => max a.height b.height + 1
  | isNull e _ => e.height + 1
  | member e items negated => max e.height (itemsHeight items) + 1 + negation negated
  | between e _ _ negated => e.height + 1 + negation negated
  | like e pattern _ negated => max e.height pattern.height + 1 + negation negated
  | date e => e.height + 1
  | caseOf arms otherwise => max (armsHeight arms) otherwise.height + 1
  | anyRow _ _ test => test.height + 1

/-- A single item is compared as a value, which takes one level more. -/
def itemsHeight : List Expr → Nat
  | [] => 0
  | [e] => e.height + 1
  | e :: rest => max e.height (itemsHeight rest)

def armsHeight : List (Expr × Expr) → Nat
  | [] => 0
  | (test, value) :: rest => max (max test.height value.height) (armsHeight rest)

end

/-- The greatest height of an expression, with the heights of those that it stands in. -/
def greatestHeight : Nat :=
  1000

mutual

/-- Whether the tests for related rows within an expression are not too high. -/
def innerFits (base : Nat) : Expr → Bool
  | literal _ => true
  | bound _ => true
  | present _ => true
  | column _ _ => true
  | not e => e.innerFits base
  | and a b => a.innerFits base && b.innerFits base
  | or a b => a.innerFits base && b.innerFits base
  | compare _ a b => a.innerFits base && b.innerFits base
  | isNull e _ => e.innerFits base
  | member e items _ => e.innerFits base && itemsFit base items
  | between e low high _ => e.innerFits base && low.innerFits base && high.innerFits base
  | like e pattern _ _ => e.innerFits base && pattern.innerFits base
  | date e => e.innerFits base
  | caseOf arms otherwise => armsFit base arms && otherwise.innerFits base
  | anyRow _ _ test =>
    base + test.height ≤ greatestHeight && test.innerFits (base + test.height)

def itemsFit (base : Nat) : List Expr → Bool
  | [] => true
  | e :: rest => e.innerFits base && itemsFit base rest

def armsFit (base : Nat) : List (Expr × Expr) → Bool
  | [] => true
  | (test, value) :: rest => test.innerFits base && value.innerFits base && armsFit base rest

end

/-- Whether an expression is not too high where it stands. -/
def fits (base : Nat) (e : Expr) : Bool :=
  base + e.height ≤ greatestHeight && e.innerFits (base + e.height)

end Expr

end TableQuery.Sql
