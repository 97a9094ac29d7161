import TableQuery.Store.Datum

namespace TableQuery

/-- The kind of cell that a column prefers. -/
inductive Affinity
  | integer
  | real
  | text
  /-- Cells stay as they come. -/
  | any
deriving DecidableEq, Repr

namespace Affinity

/-- A double that stands for an integer within 64 bits, its two ends left out. -/
def wholeNumber (x : Double) : Datum :=
  match x.toInt? with
  | some n => if minInt64 < n && n < maxInt64 then .int n else .real x
  | none => .real x

/-- A text that writes a number becomes the number. -/
def numberOfText : Datum → Datum
  | .text s => (Datum.number? s).getD (.text s)
  | d => d

/-- A number becomes its text. -/
def textOfNumber : Datum → Datum
  | .int n => .text (Text.intText n)
  | .real x => .text x.columnText
  | d => d

/-- The cell that a column makes of a value. A column of doubles has one zero. -/
def store (a : Affinity) (d : Datum) : Datum :=
  match a with
  | integer =>
    match numberOfText d with
    | .real x => wholeNumber x
    | d => d
  | real =>
    match numberOfText d with
    | .int n => .real (Double.ofInt n)
    | .real x => .real (if x.units = 0 then .zero else x)
    | d => d
  | text => textOfNumber d
  | any => d

def isNumeric : Affinity → Bool
  | integer => true
  | real => true
  | _ => false

/-- The conversion of both sides of a comparison. Of two columns a numeric one decides; a column
decides against what is no column. -/
def comparing (a b : Option Affinity) : Datum → Datum :=
  match a, b with
  | some x, some y => if x.isNumeric || y.isNumeric then numberOfText else id
  | some x, none => single x
  | none, some y => single y
  | none, none => id
where
  single : Affinity → Datum → Datum
    | text => textOfNumber
    | any => id
    | _ => numberOfText

example : store integer (.text "1e3") = .int 1000 := by decide +kernel
example : store real (.int 2) = .real (Double.ofInt 2) := by decide +kernel
example : store text (.real ⟨0x3ff8000000000000⟩) = .text "1.5" := by decide +kernel

end Affinity

end TableQuery
