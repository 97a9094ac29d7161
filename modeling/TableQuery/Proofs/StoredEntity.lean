import TableQuery.Proofs.ReadBack
import TableQuery.Proofs.UpdateWrites
import TableQuery.Proofs.UpsertedRows

namespace TableQuery

open Sql

/-- The columns of a record with their values. -/
def Record.pairs (r : Record) : List (String × Value) :=
  r.keys.map fun column => (column, r.value column)

/-- A comparison with a value leaves what a column keeps. -/
theorem Affinity.comparing_kept {a : Affinity} {d : Datum} (h : a.store d = d) :
    Affinity.comparing (some a) none d = d := by
  have htext : ∀ s, a.store (.text s) = .text s → a.isNumeric = true →
      numberOfText (.text s) = .text s := by
    intro s hs ha
    cases hnumber : Datum.number? s with
    | none => simp [numberOfText, hnumber]
    | some n =>
      have hmade : numberOfText (.text s) = n := by
        simp [numberOfText, hnumber]
      rcases Datum.number?_cases hnumber with ⟨m, rfl, _⟩ | ⟨x, rfl⟩
      · cases a <;> simp [store, hmade, isNumeric] at hs ha
      · have hwhole : wholeNumber x ≠ .text s := by
          unfold wholeNumber
          split
          next => split <;> simp
          next => simp
        cases a <;> simp [store, hmade, isNumeric, hwhole] at hs ha
  cases a with
  | any => rfl
  | text => exact h
  | integer =>
    cases d with
    | text s => exact htext s h rfl
    | _ => rfl
  | real =>
    cases d with
    | text s => exact htext s h rfl
    | _ => rfl

theorem Cell.sortKey_of_equal {a : Affinity} {d : Datum} {v : Value} (hkept : a.store d = d)
    (h : Cell.compare .eq ⟨some a, d⟩ (.ofValue v) = some true) :
    d ≠ .null ∧ d.sortKey = (Affinity.comparing (some a) none (.ofValue v)).sortKey := by
  unfold Cell.compare at h
  split at h
  next => cases h
  next hnull =>
    rw [Bool.or_eq_true, not_or, Bool.not_eq_true, Datum.isNull_eq_false] at hnull
    refine ⟨hnull.1, (Datum.order_eq_iff _ _).mp ?_⟩
    have hequal : Relator.holds .eq ((Affinity.comparing (some a) none d).order
        (Affinity.comparing (some a) none (.ofValue v))) = true := Option.some.inj h
    rw [Affinity.comparing_kept hkept] at hequal
    exact of_decide_eq_true hequal

/-- A row has the value that its own cell is bound as. -/
theorem Table.compare_own {t : Table} {name : String} {p : Nat} {row : Row} {v : Value}
    (hp : t.schema.Declares name p) (hkept : t.schema.storedAt p (row.cell p) = row.cell p)
    (hnull : row.cell p ≠ .null) (hv : Datum.ofValue v = row.cell p) :
    Cell.compare .eq (t.cellOf name row) (.ofValue v) = some true := by
  have hlt := hp.lt_cells
  rw [Schema.storedAt, List.getElem?_eq_getElem hlt] at hkept
  have hvalue : (Cell.ofValue v).datum = row.cell p := hv
  have haffinity : (Cell.ofValue v).affinity = none := rfl
  rw [cellOf_declared hp, List.getElem?_eq_getElem hlt, Cell.compare, hvalue, haffinity,
    Datum.isNull_eq_false.mpr hnull]
  simp [Affinity.comparing_kept hkept, (Datum.order_eq_iff _ _).mpr rfl, Relator.holds]

/-- In a column with no value twice at most one row has a value. -/
theorem Table.rowsWith_cases {t : Table} {name : String} {p : Nat}
    (hp : t.schema.Declares name p)
    (hkept : ∀ row ∈ t.rows, t.schema.storedAt p (row.cell p) = row.cell p) (honce : t.Once [p])
    (v : Value) : t.rowsWith name v = [] ∨ ∃ row, t.rowsWith name v = [row] := by
  have hlt := hp.lt_cells
  have hequal : ∀ row ∈ t.rowsWith name v, row.cell p ≠ .null ∧ (row.cell p).sortKey =
      (Affinity.comparing (some (t.schema.cells[p]).affinity) none (.ofValue v)).sortKey := by
    intro row hrow
    obtain ⟨hmem, hcompare⟩ := List.mem_filter.mp hrow
    rw [decide_eq_true_iff, cellOf_declared hp, List.getElem?_eq_getElem hlt] at hcompare
    have hown := hkept row hmem
    rw [Schema.storedAt, List.getElem?_eq_getElem hlt] at hown
    exact Cell.sortKey_of_equal hown hcompare
  have hpair : (t.rowsWith name v).Pairwise fun a b => Schema.collides [p] a b = false :=
    List.Pairwise.sublist List.filter_sublist honce
  rcases hrows : t.rowsWith name v with _ | ⟨a, _ | ⟨b, rest⟩⟩
  · exact .inl rfl
  · exact .inr ⟨a, rfl⟩
  · rw [hrows] at hequal hpair
    obtain ⟨ha, hsame⟩ := hequal a (by simp)
    obtain ⟨hb, hsame'⟩ := hequal b (by simp)
    have hmeet : Schema.collides [p] a b = true :=
      Schema.collides_one_iff.mpr ⟨ha, hb, hsame.trans hsame'.symm⟩
    rw [(List.pairwise_cons.mp hpair).1 b (by simp)] at hmeet
    cases hmeet

namespace Entity

variable {e : Entity} {moment : Moment} {attributes values record found : Record}
  {store : Store} {session after : Session} {t : Table} {row : Row} {p : Nat}

/-- Attributes to find a row by and values for it: each for a column of its own, which is none of
the times and, of the values, neither the key of the entity nor that of the rows. -/
structure Divides (e : Entity) (s : Schema) (attributes values : Record) : Prop where
  suits_attributes : s.Suits attributes
  suits_values : s.Suits values
  given : ∀ name ∈ attributes.keys, attributes.value name ≠ .null
  apart : ∀ name ∈ values.keys, name ∉ attributes.keys
  not_key : e.primaryKey ∉ values.keys
  uncounted : ∀ name ∈ values.keys, s.columnIndex? name ≠ some s.keyIndex
  timeless : ∀ name ∈ attributes.keys ++ values.keys, ∀ time ∈ [createdAt, updatedAt],
    Text.sameName name time = false

instance (s : Schema) : Decidable (e.Divides s attributes values) :=
  decidable_of_iff (_ ∧ _ ∧ _ ∧ _ ∧ _ ∧ _ ∧ _)
    ⟨fun h => ⟨h.1, h.2.1, h.2.2.1, h.2.2.2.1, h.2.2.2.2.1, h.2.2.2.2.2.1, h.2.2.2.2.2.2⟩,
      fun h => ⟨h.suits_attributes, h.suits_values, h.given, h.apart, h.not_key, h.uncounted,
        h.timeless⟩⟩

/-- A store with the table of an entity as writes leave it: it has its own name and is no log of
itself, its rows are in order, and no two have the same key, which is no time, is as its column
keeps it and is read back as it is stored. -/
structure Stored (e : Entity) (store : Store) (t : Table) (p : Nat) : Prop where
  plain : IsPlain e.table
  named : store.Named
  own : store.table e.table = .ok t
  read : store.readable? none e.table = some t
  unlogged : ¬ store.Logs t.schema.name e.table
  ordered : t.Ordered
  plain_key : IsPlain e.primaryKey
  key : t.schema.Declares e.primaryKey p
  key_timeless : ∀ time ∈ [createdAt, updatedAt], Text.sameName e.primaryKey time = false
  count_timeless : ∀ time ∈ [createdAt, updatedAt],
    t.schema.columnIndex? time ≠ some t.schema.keyIndex
  once : t.Once [p]
  kept : ∀ row ∈ t.rows, t.schema.storedAt p (row.cell p) = row.cell p ∧ (row.cell p).Fits
  bytesless : ∀ row ∈ t.rows, ∀ bytes, row.cell p ≠ .blob bytes

theorem Divides.takes (h : e.Divides t.schema attributes values) (hstored : e.Stored store t p) :
    t.Takes e values := by
  have hkey : Schema.isKeyName updatedAt = false := by decide
  refine ⟨fun a ha b hb i hai hbi => ?_, fun name hname i hi hindex => ?_,
    fun name hname i hi htime => ?_, fun i htime hindex => ?_⟩
  · exact (h.suits_values.declares_of_writtenColumn ha hai).name_eq
      (h.suits_values.declares_of_writtenColumn hb hbi)
  · rw [hstored.key.index?_eq] at hindex
    cases hindex
    have hsame := (h.suits_values.declares_of_writtenColumn hname hi).name_eq hstored.key
    exact h.not_key (hsame ▸ hname)
  · have hindex := Schema.columnIndex?_of_writtenColumn hkey htime
    have hsame := Schema.sameName_of_columnIndex? hindex
      (h.suits_values.declares_of_writtenColumn hname hi)
    rw [h.timeless name (List.mem_append_right _ hname) updatedAt (by simp)] at hsame
    cases hsame
  · rw [hstored.key.index?_eq] at hindex
    cases hindex
    have hindex := Schema.columnIndex?_of_writtenColumn hkey htime
    have hsame := Schema.sameName_of_columnIndex? hindex hstored.key
    rw [hstored.key_timeless updatedAt (by simp)] at hsame
    cases hsame

/-- Only the row itself has the key that is read of it. -/
theorem Stored.rowsWith_key (h : e.Stored store t p) (hmem : row ∈ t.rows)
    (hkey : ((t.cellOf e.primaryKey row).value).isNull = false) :
    t.rowsWith e.primaryKey (t.cellOf e.primaryKey row).value = [row] := by
  obtain ⟨hkept, hfits⟩ := h.kept row hmem
  have hcell : (t.cellOf e.primaryKey row).datum = row.cell p := by
    rw [Table.cellOf_declared h.key]
  have hvalue : Datum.ofValue (t.cellOf e.primaryKey row).value = row.cell p := by
    unfold Cell.value at hkey ⊢
    rw [hcell] at hkey ⊢
    exact Datum.ofValue_ofJson hfits (h.bytesless row hmem) hkey
  have hown : row ∈ t.rowsWith e.primaryKey (t.cellOf e.primaryKey row).value :=
    List.mem_filter.mpr ⟨hmem, decide_eq_true (Table.compare_own h.key hkept
      (hvalue ▸ Datum.ofValue_ne_null (Value.isNull_eq_false.mp hkey)) hvalue)⟩
  rcases Table.rowsWith_cases h.key (fun other hother => (h.kept other hother).1) h.once
    (t.cellOf e.primaryKey row).value with hnone | ⟨other, hother⟩
  · rw [hnone] at hown
    cases hown
  · rw [hother, List.mem_singleton] at hown
    rw [hother, hown]

/-- The first row with the attributes comes back as a record, which has a key and the values. -/
structure Finds (e : Entity) (store : Store) (t : Table) (attributes values record : Record) :
    Prop where
  read : store.readable? none e.table = some t
  wide : ∀ row ∈ t.rows, t.schema.columns.length ≤ row.length
  first : (t.rows.find? (t.Meets attributes.pairs)).map t.readRow = some (.ok record)
  keyed : (record.value e.primaryKey).isNull = false
  clean : changedColumns record values = []

end Entity

end TableQuery
