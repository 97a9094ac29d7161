import TableQuery.Proofs.FirstMatch
import TableQuery.Proofs.InsertedRows

namespace TableQuery

open Sql

namespace Double

theorem not_isNaN_of_finite {x : Double} (h : x.finite = true) : x.isNaN = false := by
  have hexponent : x.rawExponent ≠ 2047 := by
    simpa [finite] using h
  simp [isNaN, hexponent]

theorem sameNumber_of_units {x y : Double} (hx : x.finite = true) (hy : y.finite = true)
    (h : x.units = y.units) : x.sameNumber y = true := by
  simp [sameNumber, not_isNaN_of_finite hx, not_isNaN_of_finite hy, h]

theorem finite_ofInt_small {n : Int} (h : n.natAbs ≤ twoTo 53) : (ofInt n).finite = true :=
  finite_ofInt (Nat.lt_of_le_of_lt h (twoTo_lt (by decide)))

end Double

/-- A column keeps a value, or the number that it is. -/
def Affinity.Keeps : Affinity → Value → Prop
  | _, .null => True
  | text, .text _ => True
  | integer, .int n => n.natAbs ≤ twoTo 53
  | integer, .bool _ => True
  | real, .int n => n.natAbs ≤ twoTo 53
  | real, .real x => x.finite = true
  | _, _ => False

namespace Affinity

variable {a : Affinity} {v : Value}

instance (a : Affinity) (v : Value) : Decidable (a.Keeps v) := by
  unfold Keeps
  split <;> infer_instance

theorem store_null (a : Affinity) : a.store .null = .null := by
  cases a <;> rfl

theorem looselyEq_int {n : Int} (h : n.natAbs ≤ twoTo 53) :
    Value.looselyEq (.int n) (.int n) = true := by
  have hfinite := Double.finite_ofInt_small h
  exact Double.sameNumber_of_units hfinite hfinite rfl

theorem units_oneZero (x : Double) :
    (if x.units = 0 then Double.zero else x).units = x.units := by
  split
  next h =>
    rw [h]
    decide
  next => rfl

theorem finite_oneZero {x : Double} (h : x.finite = true) :
    (if x.units = 0 then Double.zero else x).finite = true := by
  split
  next => decide
  next => exact h

/-- A kept value looks the same when it is read. -/
theorem Keeps.looselyEq (h : a.Keeps v) :
    (Value.ofJson (a.store (.ofValue v)).toJson).looselyEq v = true := by
  cases v with
  | null =>
    rw [Datum.ofValue, store_null]
    rfl
  | text s =>
    cases a with
    | text => simp [store, textOfNumber, Datum.ofValue, Datum.toJson, Value.ofJson,
        Value.looselyEq, Value.number?]
    | _ => exact h.elim
  | bool b =>
    cases a with
    | integer => cases b <;> decide +kernel
    | _ => exact h.elim
  | int n =>
    cases a with
    | integer =>
      have hread : Value.ofJson (Datum.int n).toJson = .int n := by
        have hfits : isInt64 n = true := Value.Exact.fits (v := .int n) h n rfl
        simp [Datum.toJson, Value.ofJson, hfits]
      have hstored : store integer (.ofValue (.int n)) = .int n := rfl
      rw [hstored, hread]
      exact looselyEq_int h
    | real =>
      have hfinite := Double.finite_ofInt_small h
      have hstored : store real (.ofValue (.int n)) = .real (Double.ofInt n) := rfl
      have hread : Value.ofJson (Datum.real (Double.ofInt n)).toJson = .real (Double.ofInt n) := by
        simp [Datum.toJson, Value.ofJson, hfinite]
      rw [hstored, hread]
      exact Double.sameNumber_of_units hfinite hfinite rfl
    | _ => exact h.elim
  | real x =>
    cases a with
    | real =>
      have hstored : store real (.ofValue (.real x)) =
          .real (if x.units = 0 then .zero else x) := rfl
      have hfinite := finite_oneZero h
      rw [hstored]
      simp only [Datum.toJson, hfinite, ↓reduceIte, Value.ofJson]
      exact Double.sameNumber_of_units hfinite h (units_oneZero x)
    | _ => exact h.elim

/-- A kept value is found again by a comparison with it. -/
theorem Keeps.equal (h : a.Keeps v) (hv : v ≠ .null) :
    Cell.compare .eq ⟨some a, a.store (.ofValue v)⟩ (.ofValue v) = some true := by
  have hequal : ∀ c d : Datum, c ≠ .null → d ≠ .null → comparing (some a) none c = c →
      comparing (some a) none d = d → c.sortKey = d.sortKey →
        Cell.compare .eq ⟨some a, c⟩ ⟨none, d⟩ = some true := by
    intro c d hc hd hc' hd' hsame
    have horder := (Datum.order_eq_iff c d).mpr hsame
    simp [Cell.compare, Datum.isNull_eq_false.mpr hc, Datum.isNull_eq_false.mpr hd, hc', hd',
      horder, Sql.Relator.holds]
  cases v with
  | null => exact absurd rfl hv
  | text s =>
    cases a with
    | text => exact hequal (.text s) (.text s) (by simp) (by simp) rfl rfl rfl
    | _ => exact h.elim
  | bool b =>
    cases a with
    | integer => exact hequal (.int _) (.int _) (by simp) (by simp) rfl rfl rfl
    | _ => exact h.elim
  | int n =>
    cases a with
    | integer => exact hequal (.int n) (.int n) (by simp) (by simp) rfl rfl rfl
    | real =>
      refine hequal (.real (Double.ofInt n)) (.int n) (by simp) (by simp) rfl rfl ?_
      simp [Datum.sortKey, Datum.rank, Datum.units, Double.units_ofInt_small h]
    | _ => exact h.elim
  | real x =>
    cases a with
    | real =>
      refine hequal (.real (if x.units = 0 then .zero else x)) (.real x) (by simp) (by simp)
        rfl rfl ?_
      simp only [Datum.sortKey, Datum.rank, Datum.units, units_oneZero]
    | _ => exact h.elim

end Affinity

namespace Schema

variable {s : Schema} {name written : String} {k : Nat}

theorem Declares.lt (h : s.Declares name k) : k < s.columns.length := by
  obtain ⟨column, hcolumn, _⟩ := Option.map_eq_some_iff.mp h.named
  exact (List.getElem?_eq_some_iff.mp hcolumn).1

theorem Declares.name_eq {other : String} (h : s.Declares name k) (h' : s.Declares other k) :
    name = other :=
  Option.some.inj (h.named.symm.trans h'.named)

theorem Declares.lt_cells (h : s.Declares name k) : k < s.cells.length :=
  Nat.lt_of_lt_of_le h.lt s.length_columns_le

theorem writtenColumn_declared (hplain : IsPlain name) (h : s.Declares name k) :
    s.writtenColumn name = .ok k := by
  unfold writtenColumn plainName
  rw [statementName_plain hplain]
  simp [bind, Except.bind, h.index?_eq]

/-- A name that no key goes by leads to a column of its name. -/
theorem columnIndex?_of_writtenColumn (hkey : isKeyName written = false)
    (h : s.writtenColumn written = .ok k) : s.columnIndex? written = some k := by
  unfold writtenColumn at h
  obtain ⟨name, hname, hindex⟩ := Except.of_bind_ok h
  clear h
  obtain rfl := eq_of_plainName hname
  split at hindex
  next hindex' =>
    cases hindex
    simpa [index?, hkey] using hindex'
  next => cases hindex

theorem sameName_of_columnIndex? (h : s.columnIndex? written = some k)
    (hdeclares : s.Declares name k) : Text.sameName name written = true := by
  obtain ⟨column, hcolumn, hname⟩ := Option.map_eq_some_iff.mp hdeclares.named
  obtain ⟨hlt, hfound⟩ := List.findIdx?_eq_some_iff_getElem.mp h
  rw [List.getElem?_eq_getElem hlt] at hcolumn
  cases hcolumn
  rw [← hname]
  exact hfound.1

/-- A record names columns as a table declares them, with values that these keep. -/
structure Suits (s : Schema) (r : Record) : Prop where
  plain : ∀ name ∈ r.keys, IsPlain name
  declared : ∀ name ∈ r.keys, ∃ k, s.Declares name k
  kept : ∀ name ∈ r.keys, ∀ column ∈ s.columns, column.name = name →
    column.affinity.Keeps (r.value name)

theorem suits_iff {r : Record} : s.Suits r ↔ (∀ name ∈ r.keys, IsPlain name) ∧
    (∀ name ∈ r.keys, ∃ k ∈ s.columnIndex? name, s.Declares name k) ∧
    ∀ name ∈ r.keys, ∀ column ∈ s.columns, column.name = name →
      column.affinity.Keeps (r.value name) := by
  constructor
  · intro h
    refine ⟨h.plain, fun name hname => ?_, h.kept⟩
    obtain ⟨k, hk⟩ := h.declared name hname
    exact ⟨k, hk.index, hk⟩
  · rintro ⟨hplain, hdeclared, hkept⟩
    refine ⟨hplain, fun name hname => ?_, hkept⟩
    obtain ⟨k, _, hk⟩ := hdeclared name hname
    exact ⟨k, hk⟩

instance (r : Record) : Decidable (s.Suits r) :=
  decidable_of_iff _ suits_iff.symm

theorem Suits.declares_of_writtenColumn {r : Record} (h : s.Suits r) (hmem : name ∈ r.keys)
    (hname : s.writtenColumn name = .ok k) : s.Declares name k := by
  obtain ⟨i, hi⟩ := h.declared name hmem
  rw [writtenColumn_declared (h.plain name hmem) hi] at hname
  cases hname
  exact hi

theorem source?_eq {names : List String} (honly : ∀ other ∈ names,
    s.writtenColumn other = .ok k → other = name) (hmem : name ∈ names)
    (hname : s.writtenColumn name = .ok k) : s.source? names k = some name := by
  obtain ⟨other, hother⟩ := exists_source? ⟨name, hmem, hname⟩
  obtain ⟨hmem', hother'⟩ := mem_of_source? hother
  rw [hother, honly other hmem' hother']

end Schema

namespace Table

variable {t t' : Table} {row : Row} {name : String} {k : Nat}

theorem cellOf_congr (h : t'.schema = t.schema) (name : String) (row : Row) :
    t'.cellOf name row = t.cellOf name row := by
  rw [cellOf, cellOf, h]

theorem recordOf_congr (h : t'.schema = t.schema) (row : Row) :
    t'.recordOf row = t.recordOf row := by
  rw [recordOf, recordOf, h]

theorem equals_congr (h : t'.schema = t.schema) (name : String) (v : Value) :
    t'.Equals name v = t.Equals name v := by
  funext row
  cases v <;> simp only [Equals, cellOf_congr h]

theorem cellOf_declared (h : t.schema.Declares name k) (row : Row) :
    t.cellOf name row = ⟨(t.schema.cells[k]?).map Column.affinity, row.cell k⟩ := by
  rw [cellOf, h.index?_eq]

/-- A record of a row has the cells of the row under the names of their columns. -/
theorem value_recordOf (h : t.schema.Declares name k)
    (hwide : t.schema.columns.length ≤ row.length) :
    (t.recordOf row).value name = (t.cellOf name row).value := by
  have hcolumn : k < t.schema.columns.length := h.lt
  have hrow : k < row.length := by omega
  have hname : (t.schema.columns[k]).name = name := by
    simpa [hcolumn] using h.named
  have hcell : row.cell k = row[k] := by
    simp [Row.cell, hrow]
  have hget : (t.recordOf row).get? name = some (row.cell k).toJson := by
    refine OrderedMap.get?_ofList_of_mem ?_ fun entry hentry hkey => ?_
    · refine List.mem_map.mpr ⟨(t.schema.columns[k], row[k]), ?_, ?_⟩
      · have hzip : k < (t.schema.columns.zip row).length := by
          rw [List.length_zip]
          omega
        have hpair : (t.schema.columns.zip row)[k] = (t.schema.columns[k], row[k]) :=
          List.getElem_zip
        rw [← hpair]
        exact List.getElem_mem hzip
      · rw [hname, hcell]
    · obtain ⟨pair, hpair, rfl⟩ := List.mem_map.mp hentry
      obtain ⟨i, hi, hzip⟩ := List.getElem_of_mem hpair
      have hi' : i < t.schema.columns.length ∧ i < row.length := by
        rw [List.length_zip] at hi
        omega
      rw [List.getElem_zip] at hzip
      subst hzip
      -- no other column has the name
      have hsame : i = k := by
        refine h.only i ?_
        rw [Schema.cells_of_columns (List.getElem?_eq_getElem hi'.1), Option.map_some]
        exact congrArg some hkey
      subst hsame
      rw [hcell]
  rw [Record.value, hget, cellOf_declared h]
  rfl

end Table

end TableQuery
