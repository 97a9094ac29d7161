import TableQuery.Double.Layout
import TableQuery.Text.Numeral
import TableQuery.Text.Utf8
import TableQuery.Value

namespace TableQuery

/-- A value in a cell of a table. -/
inductive Datum
  | null
  | int (n : Int)
  | real (x : Double)
  | text (s : String)
  /-- A text whose bytes are no UTF-8. -/
  | garbled (t : Text.Garbled)
  | blob (bytes : List Nat)
deriving DecidableEq, Repr, Inhabited

/-- Lexicographic order of lists by the numbers of their elements. -/
def orderBy {α : Type} (number : α → Nat) : List α → List α → Ordering
  | [], [] => .eq
  | [], _ :: _ => .lt
  | _ :: _, [] => .gt
  | a :: as, b :: bs => (compare (number a) (number b)).then (orderBy number as bs)

namespace Datum

/-- Truth values are bound as one and zero. -/
def ofValue : Value → Datum
  | .text s => text s
  | .int n => int n
  | .real x => real x
  | .bool b => int (if b then 1 else 0)
  | .null => null

/-- Whether the cell can be read back. -/
def legible : Datum → Bool
  | garbled _ => false
  | _ => true

/-- The cell as it is read back, if it can be. -/
def toJson : Datum → Json
  | null => .null
  | int n => .int n
  | real x => if x.finite then .real x else .null
  | text s => .text s
  | garbled _ => .null
  | blob bytes => .list (bytes.map fun byte => .int (Int.ofNat byte))

def isNull : Datum → Bool
  | null => true
  | _ => false

theorem isNull_eq_false {d : Datum} : d.isNull = false ↔ d ≠ null := by
  cases d <;> simp [isNull]

theorem ofValue_ne_null {v : Value} (h : v ≠ .null) : ofValue v ≠ null := by
  cases v <;> simp_all [ofValue]

/-- Nothing comes before numbers, numbers before texts, texts before bytes. -/
def rank : Datum → Nat
  | null => 0
  | int _ => 1
  | real _ => 1
  | text _ => 2
  | garbled _ => 2
  | blob _ => 3

/-- A number in units of the least positive double, so that integers and doubles compare without
rounding. -/
def units : Datum → Int
  | int n => n * Double.unitsPerOne
  | real x => x.units
  | _ => 0

/-- The order of cells. Texts are ordered by code point, which is the order of their bytes; those
that are no UTF-8 stand among them by their bytes. -/
def order (a b : Datum) : Ordering :=
  (compare a.rank b.rank).then
    (match a, b with
    | text s, text t => orderBy Char.toNat s.toList t.toList
    | text s, garbled t => orderBy UInt8.toNat (Text.bytes s) t.bytes
    | garbled s, text t => orderBy UInt8.toNat s.bytes (Text.bytes t)
    | garbled s, garbled t => orderBy UInt8.toNat s.bytes t.bytes
    | blob s, blob t => orderBy id s t
    | _, _ => compare a.units b.units)

/-- The text that a pattern is matched with. It counts as far as a zero, and bytes are taken for
UTF-8. -/
def textForm : Datum → List Char
  | null => []
  | int n => Text.intCharacters n
  | real x => x.columnText.toList
  | text s => s.toList.takeWhile (·.toNat ≠ 0)
  | garbled t => Text.looseCharacters none ((t.bytes.map UInt8.toNat).takeWhile (· ≠ 0))
  | blob bytes => Text.looseCharacters none (bytes.takeWhile (· ≠ 0))

/-- The blanks around a number in a text. -/
def isNumberBlank (c : Char) : Bool :=
  c = ' ' || (9 ≤ c.toNat && c.toNat ≤ 13)

/-- The exponent at the start of the characters, if one is complete, and what stands behind. -/
def exponentPart (cs : List Char) : Option (Int × List Char) :=
  match cs with
  | e :: rest =>
    if e = 'e' || e = 'E' then
      let (negative, rest) := match rest with
        | '-' :: rest => (true, rest)
        | '+' :: rest => (false, rest)
        | rest => (false, rest)
      let digits := rest.takeWhile Char.isDigit
      if digits.isEmpty then none
      else
        let n : Int := Double.exponentOfDigits digits
        some (if negative then -n else n, rest.drop digits.length)
    else none
  | [] => none

/-- The number at the start of a text, and what stands behind. A number without point and exponent
is an integer if it fits in 64 bits. -/
def leadingNumber? (cs : List Char) : Option (Datum × List Char) :=
  let (negative, cs) := match cs.dropWhile isNumberBlank with
    | '-' :: rest => (true, rest)
    | '+' :: rest => (false, rest)
    | cs => (false, cs)
  let whole := cs.takeWhile Char.isDigit
  let cs := cs.drop whole.length
  let (pointed, parts, cs) := match cs with
    | '.' :: rest => (true, rest.takeWhile Char.isDigit, rest.dropWhile Char.isDigit)
    | cs => (false, [], cs)
  if whole.isEmpty && parts.isEmpty then none
  else
    match exponentPart cs with
    | some (exponent, rest) => some (real (Double.ofDigits negative whole parts exponent), rest)
    | none =>
      let value := Text.digitsValue whole
      let n : Int := if negative then -value else value
      if !pointed && isInt64 n then some (int n, cs)
      else some (real (Double.ofDigits negative whole parts 0), cs)

/-- The number that a whole text writes. -/
def number? (s : String) : Option Datum :=
  match leadingNumber? s.toList with
  | some (n, rest) => if rest.all isNumberBlank then some n else none
  | none => none

/-- Whether the number that characters start with is one other than zero. -/
def startsTrue (cs : List Char) : Bool :=
  ((leadingNumber? cs).map fun found => found.1.units).getD 0 != 0

/-- Whether a cell counts as true: as a number other than zero. A text counts by the number it
starts with. -/
def truth : Datum → Option Bool
  | null => none
  | int n => some (n != 0)
  | real x => some (x.units != 0)
  | text s => some (startsTrue s.toList)
  | garbled t => some (startsTrue (t.bytes.map fun b => Char.ofNat b.toNat))
  | blob _ => some false

def ofTruth : Option Bool → Datum
  | none => null
  | some b => int (if b then 1 else 0)

theorem truth_ofTruth (t : Option Bool) : (ofTruth t).truth = t := by
  rcases t with _ | _ | _ <;> rfl

example : number? " 12.0 " = some (real (Double.ofInt 12)) := by decide +kernel
example : number? "1e" = none := by decide +kernel

end Datum

end TableQuery
