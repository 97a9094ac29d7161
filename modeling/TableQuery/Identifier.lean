namespace TableQuery

/-- A column as a caller names it: an optional table, the column or a star, and an optional name
for the result. -/
structure Identifier where
  table : Option String := none
  /-- Nothing stands for the star. -/
  column : Option String
  shown : Option String := none
deriving DecidableEq, Repr

namespace Identifier

def isNameStart (c : Char) : Bool :=
  c.isAlpha || c = '_'

def isNameCharacter (c : Char) : Bool :=
  c.isAlphanum || c = '_'

/-- A name at the start of the characters, with what stands behind it. -/
def readName? : List Char → Option (String × List Char)
  | [] => none
  | c :: rest =>
    if isNameStart c then
      some (String.ofList (c :: rest.takeWhile isNameCharacter), rest.dropWhile isNameCharacter)
    else none

/-- A name and nothing behind it. -/
def readOnlyName? (cs : List Char) : Option String :=
  match readName? cs with
  | some (name, []) => some name
  | _ => none

/-- The letters of the word `as`. The long s counts as a form of s. -/
def isAs (a s : Char) : Bool :=
  (a = 'a' || a = 'A') && (s = 's' || s = 'S' || s = 'ſ')

/-- Nothing, or the word `as` between single spaces and a name. -/
def readShown? : List Char → Option (Option String)
  | [] => some none
  | ' ' :: a :: s :: ' ' :: rest => if isAs a s then (readOnlyName? rest).map some else none
  | _ => none

def readCharacters? (cs : List Char) : Option Identifier :=
  if cs = ['*'] then some ⟨none, none, none⟩
  else
    match readName? cs with
    | none => none
    | some (table, '.' :: '*' :: rest) => (readShown? rest).map fun shown => ⟨some table, none, shown⟩
    | some (table, '.' :: rest) =>
      match readName? rest with
      | none => none
      | some (column, rest) => (readShown? rest).map fun shown => ⟨some table, some column, shown⟩
    | some (column, rest) => (readShown? rest).map fun shown => ⟨none, some column, shown⟩

/-- The identifier that a text writes, if it writes one. -/
def read? (s : String) : Option Identifier :=
  readCharacters? s.toList

def valid (s : String) : Bool :=
  (read? s).isSome

example : valid "users.* AS u" = true := by decide +kernel
example : valid "* as u" = false := by decide +kernel
example : valid "name  as n" = false := by decide +kernel
example : valid "name aſ n" = true := by decide +kernel

end Identifier

end TableQuery
