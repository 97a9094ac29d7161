import TableQuery.Error
import TableQuery.Text.Blank

namespace TableQuery

/-- A comparison between a column and a value. -/
inductive Comparison
  | eq
  | ne
  | gt
  | ge
  | lt
  | le
  | like
  | notLike
deriving DecidableEq, Repr

namespace Comparison

/-- The comparison in a statement. -/
def sign : Comparison → String
  | eq => "="
  | ne => "!="
  | gt => ">"
  | ge => ">="
  | lt => "<"
  | le => "<="
  | like => "LIKE"
  | notLike => "NOT LIKE"

/-- The words that callers use. -/
def words : List (String × Comparison) :=
  [("=", eq), ("!=", ne), ("<>", ne), (">", gt), (">=", ge), ("<", lt), ("<=", le),
   ("like", like), ("not like", notLike)]

/-- The comparison a word stands for. Blanks around the word and the case of ASCII letters do not
count. -/
def read (word : String) : Except InvalidInput Comparison :=
  let plain := String.ofList ((Text.trimmed word.toList).map Char.toLower)
  match words.find? (·.1 = plain) with
  | some entry => .ok entry.2
  | none => .error (.operator plain)

theorem read_sign (op : Comparison) : read op.sign = .ok op := by
  cases op <;> rfl

end Comparison

end TableQuery
