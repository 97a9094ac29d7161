import TableQuery.Text.Utf8

namespace TableQuery.Text

/-- The value of a hexadecimal digit. -/
def hexValue? (b : UInt8) : Option UInt8 :=
  if 48 ≤ b && b ≤ 57 then some (b - 48)
  else if 65 ≤ b && b ≤ 70 then some (b - 55)
  else if 97 ≤ b && b ≤ 102 then some (b - 87)
  else none

/-- The bytes that a text stands for, `%` and two hexadecimal digits being one byte. -/
def percentDecoded : Bytes → Bytes
  | 37 :: a :: b :: rest =>
    match hexValue? a, hexValue? b with
    | some high, some low => (high * 16 + low) :: percentDecoded rest
    | _, _ => 37 :: percentDecoded (a :: b :: rest)
  | b :: rest => b :: percentDecoded rest
  | [] => []

/-- The parts of a list between separators. -/
def splitAtEach (separator : UInt8) : Bytes → List Bytes
  | [] => [[]]
  | b :: rest =>
    if b = separator then [] :: splitAtEach separator rest
    else
      match splitAtEach separator rest with
      | [] => [[b]]
      | first :: others => (b :: first) :: others

/-- What stands before the first separator and, if there is one, behind it. -/
def splitFirst (separator : UInt8) (bs : Bytes) : Bytes × Option Bytes :=
  (bs.takeWhile (· ≠ separator),
    match bs.dropWhile (· ≠ separator) with
    | [] => none
    | _ :: rest => some rest)

/-- The names and values of a query, `&` between them and `=` between name and value. -/
def parameters (bs : Bytes) : List (Bytes × Bytes) :=
  ((splitAtEach 38 bs).filter fun part => !part.isEmpty).map fun part =>
    let (name, value) := splitFirst 61 part
    (name, value.getD [])

example : percentDecoded (bytes "a%2Fb%2") = bytes "a/b%2" := by decide +kernel
example : parameters (bytes "a=1&&b") = [(bytes "a", bytes "1"), (bytes "b", [])] := by
  decide +kernel

end TableQuery.Text
