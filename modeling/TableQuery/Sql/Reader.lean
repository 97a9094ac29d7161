import TableQuery.Sql.Expr
import TableQuery.Text.Ascii

namespace TableQuery.Sql

/-- A name in the list of tables, with the name it goes by. -/
def readTable : List Token → Option ((String × String) × List Token)
  | table :: .keyword .shown :: shown :: rest => do
    let table ← table.name?
    let shown ← shown.name?
    pure ((table, shown), rest)
  | table :: rest => table.name?.map fun table => ((table, table), rest)
  | [] => none

/-- A column, with its table or alone. -/
def readColumn : List Token → Option (Expr × List Token)
  | table :: .dot :: column :: rest => do
    let table ← table.name?
    let column ← column.name?
    let e ← reference? (some table) column
    pure (e, rest)
  | column :: rest => do
    let column ← column.name?
    let e ← reference? none column
    pure (e, rest)
  | [] => none

/-- The character behind which a pattern's characters stand for themselves. -/
def readEscape : List Token → Option (Option Char × List Token)
  | .keyword .escape :: .text s :: rest =>
    match s.toList with
    | [c] => some (some c, rest)
    | _ => none
  | .keyword .escape :: _ => none
  | rest => some (none, rest)

/-- The relator of an equality. -/
def equality? : Token → Option Relator
  | .eq => some .eq
  | .ne => some .ne
  | _ => none

/-- The relator of an inequality. -/
def inequality? : Token → Option Relator
  | .lt => some .lt
  | .le => some .le
  | .gt => some .gt
  | .ge => some .ge
  | _ => none

/-- The word that begins a query of its own, behind a parenthesis. -/
def beginsQuery : List Token → Bool
  | .name s :: _ => Text.sameName s "with"
  | _ => false

mutual

/-- Alternatives. Each level reads what binds more tightly: AND before OR, NOT before AND,
equality before NOT, inequality before equality. The tokens that are left come with the result. -/
def readOr : Nat → List Token → Option (Expr × List Token)
  | 0, _ => none
  | fuel + 1, tokens => do
    let (first, rest) ← readAnd fuel tokens
    readMoreOr fuel first rest

def readMoreOr : Nat → Expr → List Token → Option (Expr × List Token)
  | 0, _, _ => none
  | fuel + 1, first, tokens =>
    match tokens with
    | .keyword .or :: rest => do
      let (next, rest) ← readAnd fuel rest
      readMoreOr fuel (.or first next) rest
    | rest => some (first, rest)

def readAnd : Nat → List Token → Option (Expr × List Token)
  | 0, _ => none
  | fuel + 1, tokens => do
    let (first, rest) ← readNot fuel tokens
    readMoreAnd fuel first rest

def readMoreAnd : Nat → Expr → List Token → Option (Expr × List Token)
  | 0, _, _ => none
  | fuel + 1, first, tokens =>
    match tokens with
    | .keyword .and :: rest => do
      let (next, rest) ← readNot fuel rest
      readMoreAnd fuel (first.both next) rest
    | rest => some (first, rest)

def readNot : Nat → List Token → Option (Expr × List Token)
  | 0, _ => none
  | fuel + 1, tokens =>
    match tokens with
    | .keyword .not :: rest => do
      let (e, rest) ← readNot fuel rest
      pure (.not e, rest)
    | tokens => do
      let (first, rest) ← readInequality fuel tokens
      readTests fuel first rest

/-- The tests behind their left side. -/
def readTests : Nat → Expr → List Token → Option (Expr × List Token)
  | 0, _, _ => none
  | fuel + 1, first, tokens =>
    match tokens with
    | .keyword .is :: .keyword .not :: .keyword .null :: rest =>
      readTests fuel (.isNull first true) rest
    | .keyword .is :: .keyword .null :: rest => readTests fuel (.isNull first false) rest
    | .keyword .not :: rest => do
      let (test, rest) ← readNegatable fuel first true rest
      readTests fuel test rest
    | .keyword .member :: _ | .keyword .between :: _ | .keyword .like :: _ => do
      let (test, rest) ← readNegatable fuel first false tokens
      readTests fuel test rest
    | token :: rest =>
      match equality? token with
      | some relator => do
        let (next, rest) ← readInequality fuel rest
        readTests fuel (.compare relator first next) rest
      | none => some (first, tokens)
    | [] => some (first, [])

/-- The tests that NOT can stand before. -/
def readNegatable : Nat → Expr → Bool → List Token → Option (Expr × List Token)
  | 0, _, _, _ => none
  | fuel + 1, first, negated, tokens =>
    match tokens with
    | .keyword .member :: .left :: .right :: rest => some (first.memberOf [] negated, rest)
    | .keyword .member :: .left :: rest => do
      let (items, rest) ← readItems fuel rest
      pure (first.memberOf items negated, rest)
    | .keyword .between :: rest => do
      let (low, rest) ← readInequality fuel rest
      match rest with
      | .keyword .and :: rest =>
        let (high, rest) ← readInequality fuel rest
        pure (.between first low high negated, rest)
      | _ => none
    | .keyword .like :: rest => do
      let (pattern, rest) ← readInequality fuel rest
      let (escape, rest) ← readEscape rest
      pure (.like first pattern escape negated, rest)
    | _ => none

def readInequality : Nat → List Token → Option (Expr × List Token)
  | 0, _ => none
  | fuel + 1, tokens => do
    let (first, rest) ← readPrimary fuel tokens
    readMoreInequality fuel first rest

def readMoreInequality : Nat → Expr → List Token → Option (Expr × List Token)
  | 0, _, _ => none
  | fuel + 1, first, tokens =>
    match tokens with
    | token :: rest =>
      match inequality? token with
      | some relator => do
        let (next, rest) ← readPrimary fuel rest
        readMoreInequality fuel (.compare relator first next) rest
      | none => some (first, tokens)
    | [] => some (first, [])

/-- Items up to a closing parenthesis. -/
def readItems : Nat → List Token → Option (List Expr × List Token)
  | 0, _ => none
  | fuel + 1, tokens => do
    let (item, rest) ← readOr fuel tokens
    match rest with
    | .comma :: rest =>
      let (items, rest) ← readItems fuel rest
      pure (item :: items, rest)
    | .right :: rest => pure ([item], rest)
    | _ => none

def readPrimary : Nat → List Token → Option (Expr × List Token)
  | 0, _ => none
  | fuel + 1, tokens =>
    match tokens with
    | .number d :: rest => some (.literal d, rest)
    | .text s :: rest => some (.literal (.text s), rest)
    | .value v :: rest => some (.bound v, rest)
    | .keyword .null :: rest => some (.literal .null, rest)
    | .left :: rest =>
      if beginsQuery rest then none
      else do
        let (e, rest) ← readOr fuel rest
        match rest with
        | .right :: rest => pure (e, rest)
        | _ => none
    | .keyword .caseOf :: rest => readCase fuel rest
    | .keyword .exists_ :: .left :: .keyword .select :: .number _ :: .keyword .source :: rest => do
      let ((table, shown), rest) ← readTable rest
      match rest with
      | .keyword .test :: rest =>
        let (test, rest) ← readOr fuel rest
        match rest with
        | .right :: rest => pure (.anyRow table shown test, rest)
        | _ => none
      | .right :: rest => pure (.anyRow table shown (.literal (.int 1)), rest)
      | _ => none
    | .name function :: .left :: rest =>
      if Text.sameName function "DATE" then
        match rest with
        | .star :: .right :: rest => pure (.present .day, rest)
        | .keyword .quantifier :: .right :: rest => pure (.present .day, rest)
        | .right :: rest => pure (.present .day, rest)
        | rest => do
          let (e, rest) ← readOr fuel rest
          match rest with
          | .right :: rest => pure (.date e, rest)
          | _ => none
      else none
    | tokens => readColumn tokens

/-- The arms of a case up to its end. -/
def readCase : Nat → List Token → Option (Expr × List Token)
  | 0, _ => none
  | fuel + 1, tokens =>
    match tokens with
    | .keyword .when :: rest => do
      let (test, rest) ← readOr fuel rest
      match rest with
      | .keyword .thenArm :: rest =>
        let (value, rest) ← readOr fuel rest
        match rest with
        | .keyword .when :: _ =>
          match ← readCase fuel rest with
          | (.caseOf arms otherwise, rest) => pure (.caseOf ((test, value) :: arms) otherwise, rest)
          | _ => none
        | .keyword .elseArm :: rest =>
          let (otherwise, rest) ← readOr fuel rest
          match rest with
          | .keyword .endCase :: rest => pure (.caseOf [(test, value)] otherwise, rest)
          | _ => none
        | .keyword .endCase :: rest => pure (.caseOf [(test, value)] (.literal .null), rest)
        | _ => none
      | _ => none
    | _ => none

end

/-- How deep the reading of so many tokens can go. -/
def readingFuel (tokens : List Token) : Nat :=
  8 * tokens.length + 8

/-- The test that a text writes with values for its placeholders. -/
def readTest? (s : String) (values : List Value) : Option Expr := do
  let tokens ← tokens? s
  let tokens := bindMarks tokens values
  match readOr (readingFuel tokens) tokens with
  | some (e, []) => some e
  | _ => none

end TableQuery.Sql
