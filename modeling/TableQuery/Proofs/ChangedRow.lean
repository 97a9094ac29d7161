import TableQuery.Proofs.KeptRows
import TableQuery.Proofs.Preparation

namespace TableQuery

open Sql

namespace Schema

variable {s : Schema} {row : Row} {changes : List (Nat × Datum)} {i : Nat}

theorem cell_set_self {row : Row} (h : i < row.length) (d : Datum) :
    Row.cell (row.set i d) i = d := by
  simp [Row.cell, h]

theorem cell_set_of_ne {j : Nat} (h : j ≠ i) (row : Row) (d : Datum) :
    Row.cell (row.set j d) i = row.cell i := by
  simp [Row.cell, h]

theorem changedRow_cons (s : Schema) (row : Row) (change : Nat × Datum)
    (changes : List (Nat × Datum)) :
    s.changedRow row (change :: changes) =
      s.changedRow (row.set change.1 (s.storedAt change.1 change.2)) changes :=
  rfl

theorem cell_changedRow_other (h : ∀ change ∈ changes, change.1 ≠ i) :
    (s.changedRow row changes).cell i = row.cell i := by
  induction changes generalizing row with
  | nil => rfl
  | cons change changes ih =>
    rw [changedRow_cons, ih fun other hmem => h other (List.mem_cons_of_mem _ hmem)]
    exact cell_set_of_ne (h change List.mem_cons_self) row _

/-- A cell holds what all changes of it agree on. -/
theorem cell_changedRow {d : Datum} (hmem : ∃ change ∈ changes, change.1 = i)
    (hagree : ∀ change ∈ changes, change.1 = i → change.2 = d) (hi : i < row.length) :
    (s.changedRow row changes).cell i = s.storedAt i d := by
  induction changes generalizing row with
  | nil => simp at hmem
  | cons change changes ih =>
    rw [changedRow_cons]
    by_cases hrest : ∃ later ∈ changes, later.1 = i
    · refine ih hrest (fun later hlater => hagree later (List.mem_cons_of_mem _ hlater)) ?_
      simpa using hi
    · have hlast : change.1 = i := by
        obtain ⟨found, hfound, hcolumn⟩ := hmem
        rcases List.mem_cons.mp hfound with rfl | hfound
        · exact hcolumn
        · exact absurd ⟨found, hfound, hcolumn⟩ hrest
      rw [cell_changedRow_other fun later hlater hcolumn => hrest ⟨later, hlater, hcolumn⟩, hlast,
        cell_set_self hi, hagree change List.mem_cons_self hlast]

/-- The changes of a row that assignments ask for. -/
def assigned (s : Schema) (assignments : List (String × Value)) :
    Except StoreFault (List (Nat × Datum)) :=
  assignments.mapM fun assignment => do
    let column ← s.writtenColumn assignment.1
    pure (column, Datum.ofValue assignment.2)

theorem of_assigned {assignments : List (String × Value)}
    (h : s.assigned assignments = .ok changes) :
    (∀ assignment ∈ assignments, ∃ i, s.writtenColumn assignment.1 = .ok i ∧
      (i, Datum.ofValue assignment.2) ∈ changes) ∧
    ∀ change ∈ changes, ∃ assignment ∈ assignments,
      s.writtenColumn assignment.1 = .ok change.1 ∧ change.2 = .ofValue assignment.2 := by
  obtain ⟨hforth, hback⟩ := Except.of_mapM_ok h
  constructor
  · intro assignment hmem
    obtain ⟨change, hchange, hlooked⟩ := hforth assignment hmem
    obtain ⟨i, hi, hlooked⟩ := Except.of_bind_ok hlooked
    cases hlooked
    exact ⟨i, hi, hchange⟩
  · intro change hmem
    obtain ⟨assignment, hassignment, hlooked⟩ := hback change hmem
    obtain ⟨i, hi, hlooked⟩ := Except.of_bind_ok hlooked
    cases hlooked
    exact ⟨assignment, hassignment, hi, rfl⟩

theorem length_columns_le (s : Schema) : s.columns.length ≤ s.cells.length := by
  unfold cells
  split
  next => exact Nat.le_refl _
  next =>
    rw [List.length_append]
    omega

theorem index?_lt (hkey : s.keyIndex < s.cells.length) {name : String}
    (h : s.index? name = some i) : i < s.cells.length := by
  unfold index? at h
  cases hcolumn : s.columnIndex? name with
  | some j =>
    rw [hcolumn] at h
    cases h
    have hlt := (List.findIdx?_eq_some_iff_findIdx_eq.mp hcolumn).1
    exact Nat.lt_of_lt_of_le hlt s.length_columns_le
  | none =>
    rw [hcolumn] at h
    simp only [Option.orElse_none, Option.ite_none_right_eq_some, Option.some.injEq] at h
    exact h.2 ▸ hkey

theorem index?_of_writtenColumn {column : String}
    (h : s.writtenColumn column = .ok i) : ∃ name, s.index? name = some i := by
  unfold writtenColumn at h
  obtain ⟨name, _, h⟩ := Except.of_bind_ok h
  split at h
  next hindex =>
    cases h
    exact ⟨name, hindex⟩
  next => cases h

end Schema

/-- The cell of a row under the name of a column. -/
def Table.cellOf (t : Table) (name : String) (row : Row) : Cell :=
  match t.schema.index? name with
  | some i => ⟨(t.schema.cells[i]?).map Column.affinity, row.cell i⟩
  | none => ⟨none, .null⟩

/-- The rows of a table whose column equals a value. -/
def Table.rowsWith (t : Table) (name : String) (v : Value) : List Row :=
  t.rows.filter fun row => Cell.compare .eq (t.cellOf name row) (.ofValue v) = some true

/-- A name, alone or behind a name of the table, leads to its column in the one table that is
read. -/
theorem Table.lookup_own {t : Table} (table : Option String) {name : String}
    (htable : ∀ known ∈ table, t.schema.isCalled known = true)
    (hown : (t.schema.index? name).isSome) (shown : List (String × Origin)) (rows : List Row) :
    Env.lookup table name [⟨⟨[(t.schema.name, t.schema)], shown⟩, rows⟩] =
      .ok (t.cellOf name (rows[0]?.getD [])) := by
  obtain ⟨i, hi⟩ := Option.isSome_iff_exists.mp hown
  have horigin : Scope.origin ⟨[(t.schema.name, t.schema)], shown⟩ table name =
      .ok (some (.cell ⟨0, i⟩)) := by
    cases table with
    | none => simp [Scope.origin, Scope.placesFrom, hi]
    | some known => simp [Scope.origin, Scope.placesFrom, Scope.isTable, hi, htable known rfl]
  simp only [Env.lookup, horigin, Table.cellOf, hi]
  rfl

theorem Table.columnCell_own {t : Table} {name : String} (hname : IsPlain name)
    (hown : (t.schema.index? name).isSome) (shown : List (String × Origin)) (row : Row) :
    Env.columnCell [⟨⟨[(t.schema.name, t.schema)], shown⟩, [row]⟩] name = t.cellOf name row := by
  have hlookup := Table.lookup_own none (by simp) hown shown [row]
  simp only [Env.columnCell, Identifier.read?_name hname.1, Env.cell, hlookup]
  rfl

namespace Store

/-- The test of an update is that of a clause for its key. -/
theorem prepareTest_key (store : Store) (scope : Scope) (key : String) {v : Value}
    (hv : v ≠ .null) :
    store.prepareTest scope [(.and, .raw (key ++ " = ?") [v])] =
      store.prepareTest scope [(.and, .compare key .eq v)] := by
  have hsign : (" " ++ Comparison.eq.sign) ++ " ?" = " = ?" := by decide
  have htext : Criteria.text? [(.and, .raw (key ++ " = ?") [v])] =
      Criteria.text? [(.and, .compare key .eq v)] := by
    cases v with
    | null => exact absurd rfl hv
    | _ => simp [Criteria.text?, Criteria.text, Criteria.restText, Test.text, Test.compareText,
        String.append_assoc, ← hsign]
  have hbindings : Criteria.bindings [(.and, .raw (key ++ " = ?") [v])] =
      Criteria.bindings [(.and, .compare key .eq v)] := by
    cases v with
    | null => exact absurd rfl hv
    | _ => rfl
  unfold prepareTest
  rw [htext, hbindings]

/-- An update changes the rows that have its key one by one, and nothing else. -/
theorem of_update_rows {store store' : Store} {u : Update} {t : Table} {result : WriteResult}
    (ht : store.table u.table = .ok t) (hkey : IsPlain u.key)
    (hown : (t.schema.index? u.key).isSome) (hv : u.keyValue ≠ .null)
    (h : store.update u = .ok (store', result)) :
    ∃ changes between, t.schema.assigned u.assignments = .ok changes ∧
      (t.rowsWith u.key u.keyValue).foldlM (updateRow u.table changes) (store, ⟨0, []⟩) =
        .ok (between, result) ∧
      ∃ schemas, store' = between.noteWritten schemas := by
  unfold update at h
  obtain ⟨own, ht', h⟩ := Except.of_bind_ok h
  rw [ht] at ht'
  cases ht'
  obtain ⟨changes, hchanges, h⟩ := Except.of_bind_ok h
  obtain ⟨test, htest, h⟩ := Except.of_bind_ok h
  obtain ⟨⟨changed, result'⟩, hfold, h⟩ := Except.of_bind_ok h
  obtain ⟨_, _, h⟩ := Except.of_bind_ok h
  cases h
  unfold rowTest at htest
  obtain ⟨prepared, hprepared, htest⟩ := Except.of_bind_ok htest
  have hholds : test = fun other => prepared.all fun e =>
      store.holds ⟨[(t.schema.name, t.schema)], []⟩ e [other] := by
    split at htest
    next => cases htest
    next => exact (Except.ok.inj htest).symm
  subst hholds
  rw [prepareTest_key store _ u.key hv] at hprepared
  have hfilter : (t.rows.filter fun other => prepared.all fun e =>
      store.holds ⟨[(t.schema.name, t.schema)], []⟩ e [other]) =
        t.rowsWith u.key u.keyValue := by
    refine List.filter_congr fun other _ => ?_
    rw [holds_of_clause (.and, .compare u.key .eq u.keyValue) (.inl hkey) trivial
      hprepared [other], Test.meaning, Table.columnCell_own hkey hown]
    cases hvalue : u.keyValue with
    | null => exact absurd hvalue hv
    | _ => rfl
  rw [hfilter] at hfold
  exact ⟨changes, changed, hchanges, hfold, _, rfl⟩

theorem of_update_one {store store' : Store} {u : Update} {t : Table} {row : Row}
    {result : WriteResult} (ht : store.table u.table = .ok t) (hkey : IsPlain u.key)
    (hown : (t.schema.index? u.key).isSome) (hv : u.keyValue ≠ .null)
    (hrow : t.rowsWith u.key u.keyValue = [row]) (h : store.update u = .ok (store', result)) :
    ∃ changes between, t.schema.assigned u.assignments = .ok changes ∧
      updateRow u.table changes (store, ⟨0, []⟩) row = .ok (between, result) ∧
      ∃ schemas, store' = between.noteWritten schemas := by
  obtain ⟨changes, between, hchanges, hfold, hnoted⟩ := of_update_rows ht hkey hown hv h
  rw [hrow, List.foldlM_cons] at hfold
  obtain ⟨⟨once, result'⟩, honce, hfold⟩ := Except.of_bind_ok hfold
  cases hfold
  exact ⟨changes, between, hchanges, honce, hnoted⟩

theorem of_update {store store' : Store} {u : Update} {t : Table} {row : Row}
    {result : WriteResult} (ht : store.table u.table = .ok t) (hkey : IsPlain u.key)
    (hown : (t.schema.index? u.key).isSome) (hv : u.keyValue ≠ .null)
    (hrow : t.rowsWith u.key u.keyValue = [row]) (h : store.update u = .ok (store', result)) :
    ∃ changes, t.schema.assigned u.assignments = .ok changes ∧
      store'.HasRow u.table t.schema (t.schema.changedRow row changes) := by
  obtain ⟨changes, between, hchanges, honce, schemas, rfl⟩ := of_update_one ht hkey hown hv hrow h
  exact ⟨changes, hchanges, (hasRow_of_updateRow ht honce).noteWritten schemas⟩

end Store

end TableQuery
