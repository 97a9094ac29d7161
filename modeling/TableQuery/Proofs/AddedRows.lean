import TableQuery.Proofs.InsertedRows

namespace TableQuery

/-- The stored row of a new one: its key is an integer, which is made where it is null, and all else
is kept. -/
structure Schema.Completes (s : Schema) (new stored : Row) : Prop where
  key : ∃ n, stored.cell s.keyIndex = .int n
  kept : ∀ i, i ≠ s.keyIndex ∨ new.cell i ≠ .null → stored.cell i = new.cell i

namespace Table

variable {t next last : Table} {given : List (Nat × Datum)} {batch : List (List (Nat × Datum))}
  {written : Written} {meeting : Option Meeting}

/-- Only the new row matters of what is given for it. -/
theorem addRow_congr {other : List (Nat × Datum)}
    (h : t.schema.newRow given = t.schema.newRow other) : t.addRow given meeting =
      t.addRow other meeting := by
  rw [addRow, addRow, h]

theorem schema_of_addRows (h : t.addRows batch meeting = .ok last) : last.schema = t.schema := by
  induction batch generalizing t with
  | nil =>
    cases h
    rfl
  | cons given batch ih =>
    obtain ⟨next, written, hadd, hrest⟩ := of_addRows_cons h
    exact (ih hrest).trans (schema_of_addRow hadd)

theorem completes_of_addRow (hkey : t.schema.keyIndex < t.schema.cells.length)
    (h : t.addRow given none = .ok (next, written)) :
    ∃ stored, t.schema.Completes (t.schema.newRow given) stored ∧
      next.rows.Perm (stored :: t.rows) := by
  obtain ⟨noted, stored, hkeyed, _, _, rfl, _⟩ := of_addRow_none h
  obtain ⟨_, hint, hkept⟩ := keyed_row hkeyed (length_newRow t.schema given ▸ hkey)
  exact ⟨stored, ⟨hint, hkept⟩, perm_insertSorted stored t.rows⟩

theorem completes_of_addRows (hkey : t.schema.keyIndex < t.schema.cells.length)
    (h : t.addRows batch none = .ok last) :
    ∃ stored, List.Forall₂ (fun given => t.schema.Completes (t.schema.newRow given)) batch stored ∧
      last.rows.Perm (stored ++ t.rows) := by
  induction batch generalizing t with
  | nil =>
    cases h
    exact ⟨[], .nil, .refl _⟩
  | cons given batch ih =>
    obtain ⟨next, written, hadd, hrest⟩ := of_addRows_cons h
    obtain ⟨row, hrow, hfirst⟩ := completes_of_addRow hkey hadd
    have hschema := schema_of_addRow hadd
    obtain ⟨stored, hstored, hperm⟩ := ih (hschema ▸ hkey) hrest
    rw [hschema] at hstored
    refine ⟨row :: stored, .cons hrow hstored, hperm.trans ?_⟩
    exact (hfirst.append_left stored).trans List.perm_middle

theorem mem_of_addRows (h : t.addRows batch none = .ok last) {row : Row} (hrow : row ∈ t.rows) :
    row ∈ last.rows := by
  induction batch generalizing t with
  | nil =>
    cases h
    exact hrow
  | cons given batch ih =>
    obtain ⟨next, written, hadd, hrest⟩ := of_addRows_cons h
    exact ih hrest ((of_addRow hadd).2 row hrow)

end Table

namespace Store

variable {store store' : Store} {table : String} {t next last : Table} {columns : List Nat}
  {names : List String} {result result' : WriteResult} {returning : Bool}

theorem setTable_setTable (h : last.schema = next.schema) :
    (store.setTable next).setTable last = store.setTable last := by
  unfold setTable
  rw [List.map_map]
  congr 2
  funext other
  rw [Function.comp_apply, h]
  split
  next => rw [if_pos (Text.sameName_refl _)]
  next => rfl

theorem setTable_self (h : ∀ u ∈ store.tables, Text.sameName u.schema.name t.schema.name = true →
    u = t) : store.setTable t = store := by
  have htables : store.tables.map (fun u =>
      if Text.sameName u.schema.name t.schema.name then t else u) = store.tables := by
    refine (List.map_congr_left fun u hu => ?_).trans (List.map_id store.tables)
    split
    next hsame => exact (h u hu hsame).symm
    next => rfl
  rw [setTable, htables]

theorem table_setTable (ht : store.table table = .ok t) (h : next.schema = t.schema) :
    (store.setTable next).table table = .ok next := by
  rw [table_eq_ok, table?_setTable_of (table_eq_ok.mp ht) h, if_pos (Text.sameName_refl table)]

theorem noteWritten_noteWritten (store : Store) (s : Schema) :
    (store.noteWritten [s]).noteWritten [s] = store.noteWritten [s] := by
  cases hcounted : s.counted with
  | none => simp [noteWritten, hcounted]
  | some key =>
    by_cases hmem : s.name ∈ store.written
    · simp [noteWritten, hcounted, hmem]
    · simp [noteWritten, hcounted, hmem]

/-- A table that is written again takes the place of what was written first. -/
theorem setTable_noteWritten_again (h : last.schema = next.schema) (s : Schema) :
    (((store.setTable next).noteWritten [s]).setTable last).noteWritten [s] =
      (store.setTable last).noteWritten [s] := by
  change (((store.setTable next).setTable last).noteWritten [s]).noteWritten [s] = _
  rw [setTable_setTable h, noteWritten_noteWritten]

/-- An insert that provides for no conflict, by its steps. -/
theorem insert_plain (ht : store.table table = .ok t) (names : List String)
    (rows : List (List Value)) (returning : Bool) :
    store.insert ⟨table, names, rows, none, returning⟩ = (do
      let columns ← names.mapM t.schema.writtenColumn
      if limits.values < rows.flatten.length then .error .statement
      let (between, result) ← rows.foldlM (insertRow table columns none) (store, ⟨0, []⟩)
      store.checkReferences between
      pure (between.noteWritten [t.schema], result)) := by
  unfold insert
  dsimp only
  rw [ht]
  rfl

theorem insertRow_of_addRow {values : List Value} {row : Row} (ht : store.table table = .ok t)
    (h : t.addRow (columns.zip (values.map Datum.ofValue)) none = .ok (next, .added row))
    (result : WriteResult) : insertRow table columns none (store, result) values =
      .ok (store.setTable next, ⟨result.count + 1, result.rows ++ [next.readRow row]⟩) := by
  unfold insertRow
  dsimp only
  rw [ht]
  dsimp only [bind, Except.bind]
  rw [h]
  rfl

theorem of_insertRows_none {rows : List (List Value)} (ht : store.table table = .ok t)
    (hne : rows ≠ [])
    (h : rows.foldlM (insertRow table columns none) (store, result) = .ok (store', result')) :
    ∃ last, t.addRows (rows.map fun values => columns.zip (values.map Datum.ofValue)) none =
        .ok last ∧ store' = store.setTable last ∧ result'.count = result.count + rows.length := by
  induction rows generalizing store t result with
  | nil => exact absurd rfl hne
  | cons values rows ih =>
    rw [List.foldlM_cons] at h
    obtain ⟨⟨between, result''⟩, hfirst, hrest⟩ := Except.of_bind_ok h
    obtain ⟨next, row, hadd, rfl, rfl⟩ := of_insertRow_none ht hfirst
    have hschema := Table.schema_of_addRow hadd
    have hadds : t.addRows ((values :: rows).map fun values =>
        columns.zip (values.map Datum.ofValue)) none =
          next.addRows (rows.map fun values => columns.zip (values.map Datum.ofValue)) none := by
      rw [List.map_cons, Table.addRows, List.foldlM_cons, hadd]
      rfl
    rw [hadds]
    cases rows with
    | nil =>
      cases hrest
      exact ⟨next, rfl, rfl, rfl⟩
    | cons second rest =>
      obtain ⟨last, hlast, rfl, hcount⟩ :=
        ih (table_setTable ht hschema) (List.cons_ne_nil _ _) hrest
      refine ⟨last, hlast, setTable_setTable (Table.schema_of_addRows hlast), ?_⟩
      rw [hcount, List.length_cons (a := values), Nat.add_assoc, Nat.add_comm 1]

/-- An insert of rows that may meet nothing adds them to its table, and all else stays. -/
theorem of_insert_batch {rows : List (List Value)} (ht : store.table table = .ok t)
    (hne : rows ≠ [])
    (h : store.insert ⟨table, names, rows, none, returning⟩ = .ok (store', result)) :
    ∃ columns last, names.mapM t.schema.writtenColumn = .ok columns ∧
      rows.flatten.length ≤ limits.values ∧
      t.addRows (rows.map fun values => columns.zip (values.map Datum.ofValue)) none = .ok last ∧
      store.checkReferences (store.setTable last) = .ok () ∧
      store' = (store.setTable last).noteWritten [t.schema] ∧ result.count = rows.length := by
  rw [insert_plain ht] at h
  obtain ⟨columns, hcolumns, h⟩ := Except.of_bind_ok h
  split at h
  next => cases h
  next hlimit =>
    obtain ⟨⟨between, result'⟩, hrows, h⟩ := Except.of_bind_ok h
    obtain ⟨_, hreferences, h⟩ := Except.of_bind_ok h
    cases h
    obtain ⟨last, hlast, rfl, hcount⟩ := of_insertRows_none ht hne hrows
    refine ⟨columns, last, hcolumns, Nat.le_of_not_lt hlimit, hlast, hreferences, rfl, ?_⟩
    rw [hcount, Nat.zero_add]

theorem insert_alone {values : List Value} {written : Table.Written}
    (ht : store.table table = .ok t) (hcolumns : names.mapM t.schema.writtenColumn = .ok columns)
    (hlimit : values.length ≤ limits.values)
    (hadd : t.addRow (columns.zip (values.map Datum.ofValue)) none = .ok (next, written))
    (hreferences : store.checkReferences (store.setTable next) = .ok ()) (returning : Bool) :
    ∃ result,
    store.insert ⟨table, names, [values], none, returning⟩ =
      .ok ((store.setTable next).noteWritten [t.schema], result) ∧ result.count = 1 := by
  obtain ⟨_, row, _, _, _, _, rfl⟩ := Table.of_addRow_none hadd
  refine ⟨⟨1, [next.readRow row]⟩, ?_, rfl⟩
  rw [insert_plain ht, hcolumns]
  have hfits : ¬ limits.values < [values].flatten.length := by
    simpa using hlimit
  dsimp only [bind, Except.bind]
  rw [if_neg hfits, List.foldlM_cons, insertRow_of_addRow ht hadd]
  dsimp only [bind, Except.bind, List.foldlM_nil, pure, Except.pure]
  rw [hreferences]
  rfl

end Store

end TableQuery
