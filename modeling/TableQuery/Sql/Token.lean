import TableQuery.Identifier
import TableQuery.Store.Datum

namespace TableQuery.Sql

/-- The words with a meaning in a test. The other reserved words cannot be names either. -/
inductive Keyword
  | and
  | or
  | not
  | member
  | between
  | like
  | escape
  | is
  | null
  | caseOf
  | when
  | thenArm
  | elseArm
  | endCase
  | exists_
  | select
  | source
  | test
  | shown
  | quantifier
  | other
deriving DecidableEq, Repr

inductive Token
  | keyword (k : Keyword)
  | name (s : String)
  | number (d : Datum)
  | text (s : String)
  /-- A value bound to the placeholder that stood here. -/
  | value (v : Value)
  | mark
  | dot
  | comma
  | left
  | right
  | star
  | eq
  | ne
  | lt
  | le
  | gt
  | ge
deriving DecidableEq, Repr

def keywords : List (String × Keyword) :=
  [("AND", .and), ("OR", .or), ("NOT", .not), ("IN", .member), ("BETWEEN", .between),
   ("LIKE", .like), ("ESCAPE", .escape), ("IS", .is), ("NULL", .null), ("CASE", .caseOf),
   ("WHEN", .when), ("THEN", .thenArm), ("ELSE", .elseArm), ("END", .endCase),
   ("EXISTS", .exists_), ("SELECT", .select), ("FROM", .source), ("WHERE", .test), ("AS", .shown),
   ("ALL", .quantifier), ("DISTINCT", .quantifier)]

/-- The reserved words that no test has a use for. -/
def reserved : List String :=
  ["ADD", "ALTER", "AUTOINCREMENT", "CHECK", "COLLATE", "COMMIT", "CONSTRAINT", "CREATE",
   "DEFAULT", "DEFERRABLE", "DELETE", "DROP", "EXCEPT", "FOREIGN", "GROUP", "HAVING", "INDEX",
   "INSERT", "INTERSECT", "INTO", "ISNULL", "JOIN", "LIMIT", "NOTHING", "NOTNULL", "ON", "ORDER",
   "PRIMARY", "REFERENCES", "RETURNING", "SET", "TABLE", "TO", "TRANSACTION", "UNION", "UNIQUE",
   "UPDATE", "USING", "VALUES"]

/-- A word is a keyword in any case, or else a name. -/
def wordToken (cs : List Char) : Token :=
  let upper := String.ofList (cs.map Char.toUpper)
  match keywords.find? (·.1 = upper) with
  | some found => .keyword found.2
  | none => if reserved.contains upper then .keyword .other else .name (String.ofList cs)

/-- The name that a token is where only a name can stand. -/
def Token.name? : Token → Option String
  | .name s => some s
  | .keyword .like => some "like"
  | .keyword .endCase => some "end"
  | _ => none

/-- A word that can be a name where only a name can stand. -/
def plainName (s : String) : Bool :=
  (wordToken s.toList).name?.isSome

/-- What has been read of a token. -/
inductive Begun
  | nothing
  | word (cs : List Char)
  | digits (cs : List Char)
  | decimal (cs parts : List Char)
  | text (cs : List Char)
  /-- A quote that ends a text, or is the first of two that stand for one. -/
  | quote (cs : List Char)
  | less
  | greater
  | bang
  | equal
deriving DecidableEq, Repr

namespace Begun

/-- The token that was begun, gone on with by one character more. -/
def extend? (p : Begun) (c : Char) : Option Begun :=
  match p with
  | nothing => none
  | word cs => if Identifier.isNameCharacter c then some (word (cs ++ [c])) else none
  | digits cs =>
    if c.isDigit then some (digits (cs ++ [c])) else if c = '.' then some (decimal cs []) else none
  | decimal cs parts => if c.isDigit then some (decimal cs (parts ++ [c])) else none
  | text cs => some (if c = '\x27' then quote cs else text (cs ++ [c]))
  | quote cs => if c = '\x27' then some (text (cs ++ [c])) else none
  | _ => none

/-- The token that a sign of two characters makes. -/
def pair? (p : Begun) (c : Char) : Option Token :=
  match p, c with
  | less, '=' => some .le
  | less, '>' => some .ne
  | greater, '=' => some .ge
  | bang, '=' => some .ne
  | equal, '=' => some .eq
  | _, _ => none

/-- The tokens that were begun and are complete. -/
def finish? : Begun → Option (List Token)
  | nothing => some []
  | word cs => some [wordToken cs]
  | digits cs =>
    let n := Text.digitsValue cs
    some [.number (if isInt64 n then .int n else .real (Double.ofDigits false cs [] 0))]
  | decimal cs parts =>
    some [.number (.real (Double.ofDigits false cs parts 0))]
  | text _ => none
  | quote cs => some [.text (String.ofList cs)]
  | less => some [.lt]
  | greater => some [.gt]
  | bang => none
  | equal => some [.eq]

/-- The first character of a token: the token, when it is complete already, or its beginning. A
number has no letter right behind it. -/
def start? (c : Char) : Option (List Token × Begun) :=
  match c with
  | '?' => some ([.mark], nothing)
  | '.' => some ([.dot], nothing)
  | ',' => some ([.comma], nothing)
  | '(' => some ([.left], nothing)
  | ')' => some ([.right], nothing)
  | '*' => some ([.star], nothing)
  | '=' => some ([], equal)
  | '<' => some ([], less)
  | '>' => some ([], greater)
  | '!' => some ([], bang)
  | '\x27' => some ([], text [])
  | c =>
    if c = ' ' || (9 ≤ c.toNat && c.toNat ≤ 13 && c.toNat ≠ 11) then some ([], nothing)
    else if c.isDigit then some ([], digits [c])
    else if Identifier.isNameStart c then some ([], word [c])
    else none

def isNumber : Begun → Bool
  | digits _ => true
  | decimal _ _ => true
  | _ => false

/-- One character more: the tokens that it completes, and what it begins. -/
def step? (p : Begun) (c : Char) : Option (List Token × Begun) :=
  match p.extend? c with
  | some p => some ([], p)
  | none =>
    match p.pair? c with
    | some token => some ([token], nothing)
    | none =>
      if p.isNumber && Identifier.isNameCharacter c then none
      else do
        let done ← p.finish?
        let (begun, p) ← start? c
        pure (done ++ begun, p)

end Begun

/-- The tokens of the characters, a part of the first having been read before. -/
def tokensFrom (p : Begun) : List Char → Option (List Token)
  | [] => p.finish?
  | c :: rest => do
    let (tokens, p) ← p.step? c
    let others ← tokensFrom p rest
    pure (tokens ++ others)

/-- The tokens of a text, if it is made of tokens. -/
def tokens? (s : String) : Option (List Token) :=
  tokensFrom .nothing s.toList

/-- The values in place of the placeholders, one after the other. A placeholder that no value is
left for is null. -/
def bindMarks : List Token → List Value → List Token
  | [], _ => []
  | .mark :: rest, [] => .value .null :: bindMarks rest []
  | .mark :: rest, v :: values => .value v :: bindMarks rest values
  | token :: rest, values => token :: bindMarks rest values

example : tokens? "a.b<=? AND x='it''s'" =
    some [.name "a", .dot, .name "b", .le, .mark, .keyword .and, .name "x", .eq, .text "it's"] := by
  decide +kernel

end TableQuery.Sql
