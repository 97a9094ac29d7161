import TableQuery.Text.Numeral

namespace TableQuery

/-- A day of the Gregorian calendar, continued to the year zero. -/
structure Date where
  year : Nat
  month : Nat
  day : Nat
deriving DecidableEq, Repr

namespace Date

def isLeap (year : Nat) : Bool :=
  year % 4 = 0 && (year % 100 != 0 || year % 400 = 0)

def monthLength (year month : Nat) : Nat :=
  if month = 2 then (if isLeap year then 29 else 28)
  else if month = 4 || month = 6 || month = 9 || month = 11 then 30 else 31

def valid (d : Date) : Bool :=
  1 ≤ d.month && d.month ≤ 12 && 1 ≤ d.day && d.day ≤ monthLength d.year d.month

/-- The number a list of ASCII digits writes. -/
def number? (cs : List Char) : Option Nat :=
  if cs.all Char.isDigit then some (Text.digitsValue cs) else none

/-- A number filled with zeros up to a width. -/
def padded (width n : Nat) : List Char :=
  let digits := Nat.toDigits 10 n
  List.replicate (width - digits.length) '0' ++ digits

/-- The day as `YYYY-MM-DD`. -/
def characters (d : Date) : List Char :=
  padded 4 d.year ++ '-' :: padded 2 d.month ++ '-' :: padded 2 d.day

/-- A day written `dd/mm/YYYY`. -/
def readDayFirst? : List Char → Option Date
  | [d₁, d₂, '/', m₁, m₂, '/', y₁, y₂, y₃, y₄] => do
    let day ← number? [d₁, d₂]
    let month ← number? [m₁, m₂]
    let year ← number? [y₁, y₂, y₃, y₄]
    let date : Date := ⟨year, month, day⟩
    if date.valid then some date else none
  | _ => none

example : (Date.mk 2024 2 29).valid = true := by decide
example : (Date.mk 1900 2 29).valid = false := by decide
example : (Date.mk 7 3 1).characters = "0007-03-01".toList := by decide +kernel

end Date

end TableQuery
