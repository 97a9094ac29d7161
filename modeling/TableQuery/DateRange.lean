import TableQuery.Calendar
import TableQuery.Text.Blank

namespace TableQuery

/-- All days from a first one to a last one. -/
structure DateRange where
  first : Date
  last : Date
deriving DecidableEq, Repr

namespace DateRange

/-- A range written `dd/mm/YYYY - dd/mm/YYYY`, with any one blank on each side of the hyphen. -/
def readCharacters? (cs : List Char) : Option DateRange :=
  match cs.drop 10 with
  | before :: '-' :: behind :: rest =>
    if Text.isBlank before && Text.isBlank behind then do
      let first ← Date.readDayFirst? (cs.take 10)
      let last ← Date.readDayFirst? rest
      pure ⟨first, last⟩
    else none
  | _ => none

def read? (s : String) : Option DateRange :=
  readCharacters? s.toList

/-- The first second of the range. -/
def start (r : DateRange) : String :=
  String.ofList (r.first.characters ++ " 00:00:00".toList)

/-- The last second of the range. -/
def finish (r : DateRange) : String :=
  String.ofList (r.last.characters ++ " 23:59:59".toList)

example : (read? "01/02/2024 - 29/02/2024").map start = some "2024-02-01 00:00:00" := by
  decide +kernel
example : read? "30/02/2024 - 01/03/2024" = none := by decide +kernel

end DateRange

end TableQuery
