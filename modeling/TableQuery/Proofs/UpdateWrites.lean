import TableQuery.Proofs.ChangedRow
import TableQuery.Proofs.KeptValues
import TableQuery.Proofs.ShownColumns
import TableQuery.Repository.Write
import TableQuery.Shop

namespace TableQuery

open Sql

namespace Entity

variable {e : Entity} {moment : Moment} {record input : Record} {session after : Session}
  {found : Record}

/-- The columns of an input that look different in a record. -/
def changedColumns (record input : Record) : List String :=
  input.keys.filter fun column => !(record.value column).looselyEq (input.value column)

theorem mem_changedColumns {column : String} : column ∈ changedColumns record input ↔
    column ∈ input.keys ∧ (record.value column).looselyEq (input.value column) = false := by
  simp [changedColumns]

/-- The time of the change is written beside the changes, unless these set it. -/
theorem mem_withChangeTime_iff {written : List (String × Value)} {assignment : String × Value} :
    assignment ∈ e.withChangeTime moment written ↔ assignment ∈ written ∨
      e.timestamps = true ∧ updatedAt ∉ written.map Prod.fst ∧
        assignment = (updatedAt, .text moment.now) := by
  unfold withChangeTime
  split
  next h =>
    rw [Bool.and_eq_true, Bool.not_eq_true', List.contains_eq_mem, decide_eq_false_iff_not] at h
    simp [h.1, h.2]
  next h =>
    rw [Bool.and_eq_true, Bool.not_eq_true', List.contains_eq_mem, decide_eq_false_iff_not] at h
    exact ⟨.inl, fun hmem => hmem.resolve_right fun htime => h ⟨htime.1, htime.2.1⟩⟩

theorem mem_withChangeTime {written : List (String × Value)} {assignment : String × Value}
    (h : assignment ∈ e.withChangeTime moment written) :
    assignment ∈ written ∨ assignment = (updatedAt, .text moment.now) :=
  (mem_withChangeTime_iff.mp h).imp_right fun htime => htime.2.2

theorem mem_withChangeTime_of_mem {written : List (String × Value)} {assignment : String × Value}
    (h : assignment ∈ written) (e : Entity) (moment : Moment) :
    assignment ∈ e.withChangeTime moment written :=
  mem_withChangeTime_iff.mpr (.inl h)

/-- Columns that are all identifiers are taken as they are; else the first that is none is
reported. -/
theorem mapM_checkedName {α : Type} (f : String → α) (columns : List String) :
    (columns.mapM fun column => (checkedName column).map f) =
      match columns.find? fun column => !Identifier.valid column with
      | none => .ok (columns.map f)
      | some column => .error (.identifier column) := by
  induction columns with
  | nil => rfl
  | cons column columns ih =>
    rw [List.mapM_cons, ih]
    cases hvalid : Identifier.valid column with
    | false =>
      have hchecked : checkedName column = .error (.identifier column) := by
        simp [checkedName, hvalid]
      rw [hchecked, List.find?_cons_of_pos (by simp [hvalid])]
      rfl
    | true =>
      have hchecked : checkedName column = .ok column := by
        simp [checkedName, hvalid]
      rw [hchecked, List.find?_cons_of_neg (by simp [hvalid])]
      cases columns.find? fun column => !Identifier.valid column <;> rfl

theorem changes_eq (record input : Record) : changes record input =
    match (changedColumns record input).find? fun column => !Identifier.valid column with
    | none => .ok ((changedColumns record input).map fun column => (column, input.value column))
    | some column => .error (.identifier column) :=
  mapM_checkedName (fun column => (column, input.value column)) (changedColumns record input)

theorem of_changes {written : List (String × Value)} (h : changes record input = .ok written) :
    written = (changedColumns record input).map fun column => (column, input.value column) := by
  rw [changes_eq] at h
  split at h
  next => exact (Except.ok.inj h).symm
  next => cases h

/-- The statement that writes what looks different. -/
def writing (e : Entity) (moment : Moment) (record input : Record) : Update where
  table := e.table
  assignments := e.withChangeTime moment
    ((changedColumns record input).map fun column => (column, input.value column))
  key := e.primaryKey
  keyValue := record.value e.primaryKey

theorem of_firstRow {key : Value} {result : WriteResult}
    (h : (e.firstRow key result).exec session = (.ok found, after)) :
    result.rows.head? = some (.ok found) ∧ after = session := by
  unfold firstRow at h
  split at h
  next hrows =>
    cases h
    exact ⟨by rw [hrows, List.head?_cons], rfl⟩
  next => cases h
  next => cases h

/-- A statement that writes and gives back a row has written, and the row is its first one. -/
theorem of_writtenRow {text : String} {change : Store → Except StoreFault (Store × WriteResult)}
    {key : Value}
    (h : Run.exec (do
      Run.emit (.statement text)
      let result ← Run.write change
      e.firstRow key result) session = (.ok found, after)) :
    ∃ result, change session.store = .ok (after.store, result) ∧
      result.rows.head? = some (.ok found) := by
  rw [Run.exec_bind, Run.exec_emit] at h
  obtain ⟨result, written, hwrite, h⟩ := Run.of_bind_ok h
  obtain ⟨hfound, rfl⟩ := of_firstRow h
  obtain ⟨store, hchange, rfl⟩ := Run.of_write hwrite
  exact ⟨result, hchange, hfound⟩

/-- A row is changed by one statement, which gives it back, or there is nothing to write. -/
theorem of_updateRow (h : (e.updateRow moment record input).exec session = (.ok found, after)) :
    (record.value e.primaryKey).isNull = false ∧
      ((changedColumns record input = [] ∧ found = record ∧ after.store = session.store) ∨
        ∃ result, session.store.update (e.writing moment record input) =
          .ok (after.store, result) ∧ result.rows.head? = some (.ok found)) := by
  unfold updateRow at h
  dsimp only at h
  split at h
  next => cases h
  next hkey =>
    refine ⟨by simpa using hkey, ?_⟩
    obtain ⟨written, between, hwritten, h⟩ := Run.of_bind_ok h
    obtain ⟨hchanges, rfl⟩ := Run.of_ofInvalid hwritten
    obtain rfl := of_changes hchanges
    split at h
    next hempty =>
      left
      rw [Run.exec_bind, Run.exec_emit] at h
      cases h
      exact ⟨by simpa using hempty, rfl, rfl⟩
    next =>
      right
      exact of_writtenRow h

theorem exec_updateRow_clean (hkey : (record.value e.primaryKey).isNull = false)
    (hclean : changedColumns record input = []) (session : Session) :
    (e.updateRow moment record input).exec session = (.ok record,
      { session with events := session.events ++ [.clean (record.value e.primaryKey)] }) := by
  have hchanges : changes record input = .ok [] := by
    rw [changes_eq, hclean]
    rfl
  unfold updateRow
  dsimp only
  rw [hkey, hchanges]
  rfl

/-- A successful update has nothing to write and leaves the store, or it is one statement. -/
theorem of_update (h : (e.update moment record input).exec session = (.ok found, after)) :
    (record.value e.primaryKey).isNull = false ∧
      ((changedColumns record input = [] ∧ after.store = session.store) ∨
        ∃ result, session.store.update (e.writing moment record input) =
          .ok (after.store, result)) := by
  obtain ⟨hkey, hdone⟩ := of_updateRow (Run.of_logged h)
  refine ⟨hkey, ?_⟩
  rcases hdone with ⟨hclean, _, hstore⟩ | ⟨result, hupdate, _⟩
  · exact .inl ⟨hclean, hstore⟩
  · exact .inr ⟨result, hupdate⟩

end Entity

/-- A row holds under the name of a column what the column makes of a value. -/
def Table.Holds (t : Table) (row : Row) (column : String) (v : Value) : Prop :=
  ∃ i, t.schema.writtenColumn column = .ok i ∧ row.cell i = t.schema.storedAt i (.ofValue v)

/-- A record of a row shows enough of a column to see whether the row holds a value there. -/
def Table.Shows (t : Table) (row : Row) (record : Record) (column : String) (v : Value) : Prop :=
  ∃ i, t.schema.writtenColumn column = .ok i ∧
    match record.get? column with
    | none => v = .null → row.cell i = .null
    | some j =>
      j = (row.cell i).toJson ∧
        (row.cell i).Tells ((t.schema.cells[i]?).map Column.affinity) v

/-- The cells of a row are in the columns of the table, and as these keep them. -/
structure Table.Sound (t : Table) (row : Row) : Prop where
  width : ∀ name i, t.schema.index? name = some i → i < row.length
  kept : ∀ i, t.schema.storedAt i (row.cell i) = row.cell i

/-- A row is sound that has a cell for each column and what the column makes of it. -/
theorem Table.sound_of_cells {t : Table} {row : Row}
    (hkey : t.schema.keyIndex < t.schema.cells.length)
    (hlength : row.length = t.schema.cells.length)
    (h : ∀ i < t.schema.cells.length, t.schema.storedAt i (row.cell i) = row.cell i) :
    t.Sound row where
  width _ _ hindex := hlength ▸ Schema.index?_lt hkey hindex
  kept i := by
    by_cases hi : i < t.schema.cells.length
    · exact h i hi
    · rw [Schema.storedAt, List.getElem?_eq_none (Nat.not_lt.mp hi)]

theorem Table.Sound.set {t : Table} {row : Row} (h : t.Sound row) (i : Nat) {d : Datum}
    (hd : d.Fits) : t.Sound (row.set i (t.schema.storedAt i d)) where
  width name j hindex := by
    rw [List.length_set]
    exact h.width name j hindex
  kept j := by
    by_cases hsame : i = j
    · subst hsame
      by_cases hi : i < row.length
      · rw [Schema.cell_set_self hi]
        exact t.schema.storedAt_storedAt i hd
      · rw [List.set_eq_of_length_le (Nat.not_lt.mp hi)]
        exact h.kept i
    · rw [Schema.cell_set_of_ne hsame]
      exact h.kept j

theorem Table.Sound.changedRow {t : Table} {row : Row} {changes : List (Nat × Datum)}
    (h : t.Sound row) (hfits : ∀ change ∈ changes, change.2.Fits) :
    t.Sound (t.schema.changedRow row changes) := by
  induction changes generalizing row with
  | nil => exact h
  | cons change changes ih =>
    rw [Schema.changedRow_cons]
    exact ih (h.set change.1 (hfits change List.mem_cons_self))
      fun later hlater => hfits later (List.mem_cons_of_mem _ hlater)

/-- An input names columns of their own, which are neither the key nor the time of the change. -/
structure Table.Takes (t : Table) (e : Entity) (input : Record) : Prop where
  apart : ∀ a ∈ input.keys, ∀ b ∈ input.keys, ∀ i, t.schema.writtenColumn a = .ok i →
    t.schema.writtenColumn b = .ok i → a = b
  not_key : ∀ column ∈ input.keys, ∀ i, t.schema.writtenColumn column = .ok i →
    t.schema.index? e.primaryKey ≠ some i
  not_time : ∀ column ∈ input.keys, ∀ i, t.schema.writtenColumn column = .ok i →
    t.schema.writtenColumn Entity.updatedAt ≠ .ok i
  time_not_key : ∀ i, t.schema.writtenColumn Entity.updatedAt = .ok i →
    t.schema.index? e.primaryKey ≠ some i

/-- A column that looks the same in a record that shows it is already as the input wants it. -/
theorem Table.Shows.holds {t : Table} {row : Row} {record : Record} {column : String} {v : Value}
    (hshows : t.Shows row record column v) (hsound : t.Sound row) (hv : v.Exact)
    (h : (record.value column).looselyEq v = true) : t.Holds row column v := by
  obtain ⟨i, hi, hshown⟩ := hshows
  refine ⟨i, hi, ?_⟩
  unfold Record.value at h
  cases hget : record.get? column with
  | none =>
    rw [hget] at h hshown
    have hnull := Value.looselyEq_null h
    have hcell := hshown hnull
    have hkept := hsound.kept i
    rw [hcell] at hkept
    rw [hnull, hcell]
    exact hkept.symm
  | some j =>
    rw [hget] at h hshown
    obtain ⟨rfl, htells⟩ := hshown
    exact (Schema.storedAt_of_looselyEq (hsound.kept i) hv htells h).symm

namespace Entity

variable {e : Entity} {moment : Moment} {record input : Record} {t : Table} {row : Row}
  {changes : List (Nat × Datum)}

theorem change_cases
    (h : t.schema.assigned (e.writing moment record input).assignments = .ok changes)
    {change : Nat × Datum} (hmem : change ∈ changes) :
    (∃ column ∈ changedColumns record input, t.schema.writtenColumn column = .ok change.1 ∧
      change.2 = .ofValue (input.value column)) ∨
      t.schema.writtenColumn updatedAt = .ok change.1 := by
  obtain ⟨assignment, hassignment, hi, hvalue⟩ := (Schema.of_assigned h).2 change hmem
  rcases mem_withChangeTime hassignment with hown | rfl
  · obtain ⟨column, hcolumn, rfl⟩ := List.mem_map.mp hown
    exact .inl ⟨column, hcolumn, hi, hvalue⟩
  · exact .inr hi

theorem cell_unchanged
    (h : t.schema.assigned (e.writing moment record input).assignments = .ok changes) {i : Nat}
    (hcolumns : ∀ column ∈ changedColumns record input, t.schema.writtenColumn column ≠ .ok i)
    (htime : t.schema.writtenColumn updatedAt ≠ .ok i) :
    (t.schema.changedRow row changes).cell i = row.cell i := by
  refine Schema.cell_changedRow_other fun change hmem hsame => ?_
  rcases change_cases h hmem with ⟨column, hcolumn, hi, _⟩ | hi
  · exact hcolumns column hcolumn (hsame ▸ hi)
  · exact htime (hsame ▸ hi)

theorem holds_changed (hwidth : ∀ name i, t.schema.index? name = some i → i < row.length)
    (htakes : t.Takes e input)
    (h : t.schema.assigned (e.writing moment record input).assignments = .ok changes)
    {column : String} (hcolumn : column ∈ changedColumns record input) :
    t.Holds (t.schema.changedRow row changes) column (input.value column) := by
  have hkey := (mem_changedColumns.mp hcolumn).1
  have hassignment := mem_withChangeTime_of_mem
    (List.mem_map_of_mem (f := fun column => (column, input.value column)) hcolumn) e moment
  obtain ⟨i, hi, hchange⟩ := (Schema.of_assigned h).1 _ hassignment
  obtain ⟨name, hname⟩ := Schema.index?_of_writtenColumn hi
  refine ⟨i, hi, Schema.cell_changedRow ⟨_, hchange, rfl⟩ ?_ (hwidth name i hname)⟩
  -- another change of the cell would come from another column of the input, or from the time
  intro other hother hsame
  rcases change_cases h hother with ⟨column', hcolumn', hi', hvalue⟩ | htime
  · rw [hsame] at hi'
    have hkey' := (mem_changedColumns.mp hcolumn').1
    rw [hvalue, htakes.apart column' hkey' column hkey i hi' hi]
  · rw [hsame] at htime
    exact absurd htime (htakes.not_time column hkey i hi)

theorem holds_unchanged_iff (htakes : t.Takes e input)
    (h : t.schema.assigned (e.writing moment record input).assignments = .ok changes)
    {column : String} (hcolumn : column ∈ input.keys)
    (hsame : (record.value column).looselyEq (input.value column) = true) (v : Value) :
    t.Holds (t.schema.changedRow row changes) column v ↔ t.Holds row column v := by
  refine exists_congr fun i => and_congr_right fun hi => ?_
  rw [cell_unchanged h (fun other hother hi' => ?_) (htakes.not_time column hcolumn i hi)]
  obtain ⟨hinput, hdiffers⟩ := mem_changedColumns.mp hother
  rw [htakes.apart other hinput column hcolumn i hi' hi, hsame] at hdiffers
  cases hdiffers

/-- What an update makes of a row: the same row where nothing looks different, or the row with the
changes of one statement. -/
def Updated (e : Entity) (moment : Moment) (record input : Record) (t : Table) (row stored : Row) :
    Prop :=
  (changedColumns record input = [] ∧ stored = row) ∨
    ∃ changes, t.schema.assigned (e.writing moment record input).assignments = .ok changes ∧
      stored = t.schema.changedRow row changes

variable {stored : Row}

theorem exists_updated {session after : Session} {found : Record} (hkey : IsPlain e.primaryKey)
    (ht : session.store.table e.table = .ok t) (hown : (t.schema.index? e.primaryKey).isSome)
    (hrow : t.rowsWith e.primaryKey (record.value e.primaryKey) = [row])
    (h : (e.update moment record input).exec session = (.ok found, after)) :
    ∃ stored, after.store.HasRow e.table t.schema stored ∧
      e.Updated moment record input t row stored := by
  obtain ⟨hnull, hdone⟩ := of_update h
  rcases hdone with ⟨hclean, hstore⟩ | ⟨result, hupdate⟩
  · have hmem : row ∈ t.rowsWith e.primaryKey (record.value e.primaryKey) := by
      simp [hrow]
    refine ⟨row, ?_, .inl ⟨hclean, rfl⟩⟩
    rw [hstore]
    exact ⟨t, ht, rfl, (List.mem_filter.mp hmem).1⟩
  · have hvalue := Value.isNull_eq_false.mp hnull
    obtain ⟨changes, hchanges, hhas⟩ := Store.of_update (u := e.writing moment record input) ht
      hkey hown hvalue hrow hupdate
    exact ⟨_, hhas, .inr ⟨changes, hchanges, rfl⟩⟩

theorem Updated.cellOf_key (h : e.Updated moment record input t row stored)
    (hown : (t.schema.index? e.primaryKey).isSome) (htakes : t.Takes e input) :
    t.cellOf e.primaryKey stored = t.cellOf e.primaryKey row := by
  rcases h with ⟨_, rfl⟩ | ⟨changes, hchanges, rfl⟩
  · rfl
  · obtain ⟨k, hk⟩ := Option.isSome_iff_exists.mp hown
    have hkeep : (t.schema.changedRow row changes).cell k = row.cell k := by
      refine cell_unchanged hchanges (fun column hcolumn hi => ?_)
        fun hi => htakes.time_not_key k hi hk
      exact htakes.not_key column (mem_changedColumns.mp hcolumn).1 k hi hk
    simp only [Table.cellOf, hk, hkeep]

theorem Updated.holds_iff (h : e.Updated moment record input t row stored)
    (hsound : t.Sound row) (htakes : t.Takes e input) :
    (∀ column ∈ input.keys, t.Holds stored column (input.value column)) ↔
      ∀ column ∈ input.keys, (record.value column).looselyEq (input.value column) = true →
        t.Holds row column (input.value column) := by
  rcases h with ⟨hclean, rfl⟩ | ⟨changes, hchanges, rfl⟩
  · refine forall₂_congr fun column hcolumn => ?_
    have hsame : (record.value column).looselyEq (input.value column) = true := by
      cases hsame : (record.value column).looselyEq (input.value column) with
      | true => rfl
      | false =>
        have hchanged := mem_changedColumns.mpr ⟨hcolumn, hsame⟩
        rw [hclean] at hchanged
        cases hchanged
    simp [hsame]
  · constructor
    · intro hall column hcolumn hsame
      exact (holds_unchanged_iff htakes hchanges hcolumn hsame _).mp (hall column hcolumn)
    · intro hall column hcolumn
      cases hsame : (record.value column).looselyEq (input.value column) with
      | true =>
        have hheld := hall column hcolumn hsame
        exact (holds_unchanged_iff htakes hchanges hcolumn hsame _).mpr hheld
      | false =>
        exact holds_changed hsound.width htakes hchanges (mem_changedColumns.mpr ⟨hcolumn, hsame⟩)

theorem Updated.sound (h : e.Updated moment record input t row stored) (hsound : t.Sound row)
    (hfits : ∀ column ∈ input.keys, (Datum.ofValue (input.value column)).Fits) :
    t.Sound stored := by
  rcases h with ⟨_, rfl⟩ | ⟨changes, hchanges, rfl⟩
  · exact hsound
  · refine hsound.changedRow fun change hmem => ?_
    obtain ⟨assignment, hassignment, _, hvalue⟩ := (Schema.of_assigned hchanges).2 change hmem
    rw [hvalue]
    rcases mem_withChangeTime hassignment with hown | rfl
    · obtain ⟨column, hcolumn, rfl⟩ := List.mem_map.mp hown
      exact hfits column (mem_changedColumns.mp hcolumn).1
    · exact fun n hn => nomatch hn

/-- An update leaves the row of the record's key with the whole input exactly where each column
that looks the same in the record held its value before; it did where the record shows enough of
every column. The row is then as sound as it was. -/
theorem update_keeps_input_iff {e : Entity} {moment : Moment} {record input : Record}
    {session after : Session} {found : Record} {t : Table} {row : Row}
    (hkey : IsPlain e.primaryKey) (ht : session.store.table e.table = .ok t)
    (hown : (t.schema.index? e.primaryKey).isSome)
    (hrow : t.rowsWith e.primaryKey (record.value e.primaryKey) = [row]) (hsound : t.Sound row)
    (htakes : t.Takes e input)
    (h : (e.update moment record input).exec session = (.ok found, after)) :
    ∃ stored, after.store.HasRow e.table t.schema stored ∧
      t.cellOf e.primaryKey stored = t.cellOf e.primaryKey row ∧
      ((∀ column ∈ input.keys, t.Holds stored column (input.value column)) ↔
        ∀ column ∈ input.keys, (record.value column).looselyEq (input.value column) = true →
          t.Holds row column (input.value column)) ∧
      ((∀ column ∈ input.keys,
          (input.value column).Exact ∧ t.Shows row record column (input.value column)) →
        t.Sound stored ∧
          ∀ column ∈ input.keys, t.Holds stored column (input.value column)) := by
  obtain ⟨stored, hhas, hupdated⟩ := exists_updated hkey ht hown hrow h
  have hiff := hupdated.holds_iff hsound htakes
  refine ⟨stored, hhas, hupdated.cellOf_key hown htakes, hiff, fun hshows => ⟨?_, ?_⟩⟩
  · exact hupdated.sound hsound fun column hcolumn => (hshows column hcolumn).1.fits
  · refine hiff.mpr fun column hcolumn hsame => ?_
    obtain ⟨hexact, hshown⟩ := hshows column hcolumn
    exact hshown.holds hsound hexact hsame

end Entity

namespace Shop

/-- The first customer as a table of one row. -/
def customerTable : Table where
  schema := customerSchema
  rows := [[.int 1, .text "x", .text "k", .int 1, .null, .null, .null, .null, .null]]

def oneCustomer : Store where
  tables := [customerTable, { schema := auditSchema }]
  watches := emptyStore.watches

def withoutCode : Record :=
  .ofList [("code", .null)]

/-- A record without its code takes null for the code as no change, and the code stays. -/
theorem update_leaves_code_that_was_not_read :
    ((do
      let found ← customers.find (.int 1)
      let shown ← customers.detail [("customers.id", some (.compare .eq (.int 1)))]
        ["id", "name"] []
      let _ ← customers.update ⟨"now", ""⟩ (shown.getD .empty) withoutCode
      let left ← customers.find (.int 1)
      pure (found.map (·.value "code"), left.map (·.value "code")) :
        Run (Option Value × Option Value)).exec { store := oneCustomer }).1.toOption =
      some (some (.text "k"), some (.text "k")) := by
  decide +kernel

theorem writtenColumn_code : customerSchema.writtenColumn "code" = .ok 2 :=
  Except.of_toOption (by decide +kernel)

theorem writtenColumn_updatedAt : customerSchema.writtenColumn Entity.updatedAt = .ok 8 :=
  Except.of_toOption (by decide +kernel)

/-- A record with its code has null for the code written. -/
theorem update_writes_null_over_code_that_was_read :
    ∃ found after stored,
      (customers.update ⟨"now", ""⟩ (.ofList [("id", .int 1), ("code", .text "k")])
        withoutCode).exec { store := oneCustomer } = (.ok found, after) ∧
      after.store.HasRow "customers" customerSchema stored ∧
      customerTable.Holds stored "code" .null := by
  have hupdated : ((customers.update ⟨"now", ""⟩ (.ofList [("id", .int 1), ("code", .text "k")])
      withoutCode).exec { store := oneCustomer }).1.toOption.isSome = true := by
    decide +kernel
  rcases hrun : (customers.update ⟨"now", ""⟩ (.ofList [("id", .int 1), ("code", .text "k")])
      withoutCode).exec { store := oneCustomer } with ⟨fault | found, after⟩
  · rw [hrun] at hupdated
    cases hupdated
  · have hkeys : withoutCode.keys = ["code"] := by decide +kernel
    have hsound : customerTable.Sound
        [.int 1, .text "x", .text "k", .int 1, .null, .null, .null, .null, .null] :=
      Table.sound_of_cells (by decide +kernel) (by decide +kernel) (by decide +kernel)
    have htakes : customerTable.Takes customers withoutCode :=
      { apart := by simp [hkeys]
        not_key := by
          rw [hkeys]
          intro column hcolumn i hi
          rw [List.mem_singleton.mp hcolumn] at hi
          cases writtenColumn_code.symm.trans hi
          decide +kernel
        not_time := by
          rw [hkeys]
          intro column hcolumn i hi htime
          rw [List.mem_singleton.mp hcolumn] at hi
          cases writtenColumn_code.symm.trans hi
          cases writtenColumn_updatedAt.symm.trans htime
        time_not_key := by
          intro i hi
          cases writtenColumn_updatedAt.symm.trans hi
          decide +kernel }
    obtain ⟨stored, hhas, _, _, hkept⟩ := Entity.update_keeps_input_iff (t := customerTable)
      (by decide +kernel) (Except.of_toOption (by decide +kernel)) (by decide +kernel)
      (by decide +kernel) hsound htakes hrun
    refine ⟨found, after, stored, rfl, hhas, (hkept ?_).2 "code" (by simp [hkeys])⟩
    rw [hkeys]
    intro column hcolumn
    rw [List.mem_singleton.mp hcolumn]
    exact ⟨trivial, 2, writtenColumn_code, rfl, trivial⟩

end Shop

end TableQuery
