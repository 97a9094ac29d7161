import TableQuery.Integer

namespace TableQuery.Text

/-- The decimal digits of an integer, a minus sign before those of a negative one. -/
def intCharacters (n : Int) : List Char :=
  if n < 0 then '-' :: Nat.toDigits 10 n.natAbs else Nat.toDigits 10 n.natAbs

def intText (n : Int) : String :=
  String.ofList (intCharacters n)

/-- The value of an ASCII digit. -/
def digit? (c : Char) : Option Nat :=
  if c.isDigit then some (c.toNat - '0'.toNat) else none

/-- The number that a list of characters writes, other characters counting as zero. -/
def digitsValue (cs : List Char) : Nat :=
  cs.foldl (fun n c => n * 10 + (digit? c).getD 0) 0

/-- Why a text is not an integer of the wanted range. -/
inductive NumeralFault
  | empty
  | invalidDigit
  | tooLarge
  | tooSmall
deriving DecidableEq, Repr

def NumeralFault.message : NumeralFault → String
  | empty => "cannot parse integer from empty string"
  | invalidDigit => "invalid digit found in string"
  | tooLarge => "number too large to fit in target type"
  | tooSmall => "number too small to fit in target type"

/-- A range of integers that contains zero. A sign is read as such only where the range has
negative members. -/
structure NumeralRange where
  least : Int
  greatest : Int
deriving DecidableEq, Repr

def NumeralRange.int64 : NumeralRange := ⟨minInt64, maxInt64⟩
def NumeralRange.nat32 : NumeralRange := ⟨0, maxNat32⟩
def NumeralRange.nat64 : NumeralRange := ⟨0, maxNat64⟩

/-- The digits one after another. The first character that is no digit or takes the number out of
its range is the fault, whatever follows it. -/
def readDigits (range : NumeralRange) (negative : Bool) : Int → List Char → Except NumeralFault Int
  | n, [] => .ok n
  | n, c :: rest =>
    match digit? c with
    | none => .error .invalidDigit
    | some d =>
      let next := if negative then n * 10 - d else n * 10 + d
      if next < range.least then .error .tooSmall
      else if range.greatest < next then .error .tooLarge
      else readDigits range negative next rest

/-- An integer of the range, in decimal digits. A plus sign is allowed, a minus sign for ranges
with negative members, and a sign alone is no number. -/
def readInt (range : NumeralRange) : List Char → Except NumeralFault Int
  | [] => .error .empty
  | ['+'] => .error .invalidDigit
  | ['-'] => .error .invalidDigit
  | '+' :: rest => readDigits range false 0 rest
  | '-' :: rest =>
    if range.least < 0 then readDigits range true 0 rest else .error .invalidDigit
  | cs => readDigits range false 0 cs

example : readInt .nat32 ['+', '7'] = .ok 7 := rfl
example : readInt .nat32 ['-', '1'] = .error .invalidDigit := rfl
example : readInt ⟨-128, 127⟩ ['-', '1', '2', '9', 'x'] = .error .tooSmall := rfl

end TableQuery.Text
