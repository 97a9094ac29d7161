import TableQuery.Shape
import TableQuery.Value

namespace TableQuery

/-- A row as it was read: values by column in the order of the columns. Loaded relations stand
under their names. -/
abbrev Record := OrderedMap Json

namespace Record

/-- A column as a value to bind; a column that is not there is null. -/
def value (r : Record) (column : String) : Value :=
  match r.get? column with
  | some j => .ofJson j
  | none => .null

theorem value_of_not_mem {r : Record} {column : String} (h : column ∉ r.keys) :
    r.value column = .null := by
  rw [OrderedMap.mem_keys_iff, Option.not_isSome_iff_eq_none] at h
  rw [value, h]

theorem mem_keys_of_value {r : Record} {column : String} (h : (r.value column).isNull = false) :
    column ∈ r.keys := by
  refine Decidable.byContradiction fun hmissing => ?_
  rw [value_of_not_mem hmissing] at h
  cases h

def text? (r : Record) (column : String) : Option String :=
  (r.get? column).bind Json.text?

def int64? (r : Record) (column : String) : Option Int :=
  (r.get? column).bind Json.int64?

def toJson (r : Record) : Json :=
  .ofMap r

/-- The record in a typed form. -/
def decode {α : Type} (reader : Shape.Reader α) (r : Record) : Except ShapeFault α :=
  reader r.toJson

/-- The columns of `later` written over those of `r`. -/
def merge (r later : Record) : Record :=
  later.entries.foldl (fun r entry => r.insert entry.1 entry.2) r

end Record

end TableQuery
