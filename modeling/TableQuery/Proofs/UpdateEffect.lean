import TableQuery.Proofs.ExactUpdate
import TableQuery.Proofs.StoredEntity

namespace TableQuery

open Sql

/-- A column that a write finds is the one that is declared under the name. -/
theorem Schema.Declares.eq_of_writtenColumn {s : Schema} {name : String} {i k : Nat}
    (hk : s.Declares name k) (h : s.writtenColumn name = .ok i) : i = k := by
  unfold writtenColumn at h
  obtain ⟨written, hwritten, hfound⟩ := Except.of_bind_ok h
  clear h
  obtain rfl := eq_of_plainName hwritten
  rw [hk.index?_eq] at hfound
  exact (Except.ok.inj hfound).symm

theorem Table.readRow_congr {t t' : Table} (h : t'.schema = t.schema) (row : Row) :
    t'.readRow row = t.readRow row := by
  rw [readRow, readRow, legible, legible, h, recordOf_congr h]

namespace Store

/-- The rows of a table have a cell for each of its columns. -/
def Wide (store : Store) (name : String) : Prop :=
  ∀ t, store.table name = .ok t → ∀ row ∈ t.rows, t.schema.columns.length ≤ row.length

variable {store store' : Store} {name table : String}

theorem Wide.setTable (h : store.Wide name) {t t' : Table} (ht : store.table table = .ok t)
    (hschema : t'.schema = t.schema)
    (hrows : Text.sameName table name = true →
      ∀ row ∈ t'.rows, t.schema.columns.length ≤ row.length) : (store.setTable t').Wide name := by
  intro found hfound row hrow
  rw [table_eq_ok, table?_setTable_of (table_eq_ok.mp ht) hschema] at hfound
  split at hfound
  next hsame =>
    cases hfound
    rw [hschema]
    exact hrows hsame row hrow
  next => exact h found (table_eq_ok.mpr hfound) row hrow

/-- A row that is added to a log has a cell for each column, too. -/
theorem Wide.logChange (h : store.Wide name) {schema : Schema} {row : Row}
    (hlog : store.logChange table schema row = .ok store') : store'.Wide name := by
  refine logChange_induction (P := fun next => next.Wide name) hlog h ?_
  intro watch _ _ next log added given written hnext htable hadd
  obtain ⟨noted, whole, hkeyed, _, _, hadded, _⟩ := Table.of_addRow_none hadd
  have hschema := Table.schema_of_addRow hadd
  refine hnext.setTable htable hschema fun hsame other hother => ?_
  have hlength : whole.length = log.schema.cells.length := by
    rw [Table.length_keyed hkeyed, Table.length_newRow]
  rw [hadded] at hother
  rcases Table.mem_place.mp hother with rfl | hother
  · rw [hlength]
    exact log.schema.length_columns_le
  · refine hnext log ?_ other hother
    rw [table_eq_ok, ← table?_congr hsame, table_eq_ok.mp htable]

end Store

namespace Entity

variable {e : Entity} {moment : Moment} {record input found : Record} {store store' : Store}
  {session after : Session} {t : Table} {row : Row} {p : Nat} {changes : List (Nat × Datum)}

/-- A store has the table of an entity, which is read by the name that it is written by, and whose
key has a column of its own, with no value twice. -/
structure Tabled (e : Entity) (store : Store) (t : Table) (p : Nat) : Prop where
  plain : IsPlain e.table
  named : store.Named
  own : store.table e.table = .ok t
  read : store.readable? none e.table = some t
  narrow : t.schema.columns.length ≤ Store.limits.columns
  plain_key : IsPlain e.primaryKey
  key : t.schema.Declares e.primaryKey p
  wide : ∀ row ∈ t.rows, t.schema.columns.length ≤ row.length
  kept : ∀ row ∈ t.rows, t.schema.storedAt p (row.cell p) = row.cell p
  once : t.Once [p]

instance (store : Store) (t : Table) (p : Nat) : Decidable (e.Tabled store t p) :=
  decidable_of_iff (_ ∧ _ ∧ _ ∧ _ ∧ _ ∧ _ ∧ _ ∧ _ ∧ _ ∧ _)
    ⟨fun h => ⟨h.1, h.2.1, h.2.2.1, h.2.2.2.1, h.2.2.2.2.1, h.2.2.2.2.2.1, h.2.2.2.2.2.2.1,
        h.2.2.2.2.2.2.2.1, h.2.2.2.2.2.2.2.2.1, h.2.2.2.2.2.2.2.2.2⟩,
      fun h => ⟨h.plain, h.named, h.own, h.read, h.narrow, h.plain_key, h.key, h.wide, h.kept,
        h.once⟩⟩

/-- Columns are called as the table calls them, and the time of a change as the entity does. -/
structure Calls (e : Entity) (s : Schema) (columns : List String) : Prop where
  declared : ∀ column ∈ columns, ∃ k, s.Declares column k
  time : e.timestamps = true → ∀ column ∈ columns, Text.sameName column updatedAt = true →
    column = updatedAt

theorem calls_iff {s : Schema} {columns : List String} : e.Calls s columns ↔
    (∀ column ∈ columns, ∃ k ∈ s.columnIndex? column, s.Declares column k) ∧
      (e.timestamps = true → ∀ column ∈ columns, Text.sameName column updatedAt = true →
        column = updatedAt) := by
  constructor
  · refine fun h => ⟨fun column hcolumn => ?_, h.time⟩
    obtain ⟨k, hk⟩ := h.declared column hcolumn
    exact ⟨k, hk.index, hk⟩
  · refine fun h => ⟨fun column hcolumn => ?_, h.2⟩
    obtain ⟨k, _, hk⟩ := h.1 column hcolumn
    exact ⟨k, hk⟩

instance (s : Schema) (columns : List String) : Decidable (e.Calls s columns) :=
  decidable_of_iff _ calls_iff.symm

section Cells

variable {s : Schema}

theorem written_or_time
    (h : s.assigned (e.writing moment record input).assignments = .ok changes)
    {change : Nat × Datum} (hmem : change ∈ changes) :
    (∃ column ∈ changedColumns record input, s.writtenColumn column = .ok change.1 ∧
      change.2 = .ofValue (input.value column)) ∨
      e.timestamps = true ∧ updatedAt ∉ changedColumns record input ∧
        s.columnIndex? updatedAt = some change.1 ∧ change.2 = .text moment.now := by
  obtain ⟨assignment, hassignment, hi, hvalue⟩ := (Schema.of_assigned h).2 change hmem
  rcases mem_withChangeTime_iff.mp hassignment with hown | ⟨htimestamps, hunset, rfl⟩
  · obtain ⟨column, hcolumn, rfl⟩ := List.mem_map.mp hown
    exact .inl ⟨column, hcolumn, hi, hvalue⟩
  · refine .inr ⟨htimestamps, ?_, Schema.columnIndex?_of_writtenColumn (by decide) hi, hvalue⟩
    simpa using hunset

/-- A column that looks different gets the value of the input. -/
theorem Calls.cell_written (h : e.Calls s (changedColumns record input))
    (hchanges : s.assigned (e.writing moment record input).assignments = .ok changes)
    {column : String} (hcolumn : column ∈ changedColumns record input) {k : Nat}
    (hk : s.Declares column k) (hwide : s.columns.length ≤ row.length) :
    (s.changedRow row changes).cell k = s.storedAt k (.ofValue (input.value column)) := by
  have hassignment := mem_withChangeTime_of_mem
    (List.mem_map_of_mem (f := fun column => (column, input.value column)) hcolumn) e moment
  obtain ⟨i, hi, hchange⟩ := (Schema.of_assigned hchanges).1 _ hassignment
  obtain rfl := hk.eq_of_writtenColumn hi
  have hlt := hk.lt
  refine Schema.cell_changedRow ⟨_, hchange, rfl⟩ (fun other hother hsame => ?_) (by omega)
  -- another change of the cell would come from a column of its name, or from the time
  rcases written_or_time hchanges hother with ⟨column', hcolumn', hi', hvalue⟩ | htime
  · obtain ⟨k', hk'⟩ := h.declared column' hcolumn'
    obtain rfl := hk'.eq_of_writtenColumn hi'
    rw [hsame] at hk'
    rw [hvalue, hk'.name_eq hk]
  · obtain ⟨htimestamps, hunset, hindex, _⟩ := htime
    have hcalled := Schema.sameName_of_columnIndex? (hsame ▸ hindex) hk
    exact absurd (h.time htimestamps column hcolumn hcalled ▸ hcolumn) hunset

theorem Calls.cell_time (h : e.Calls s (changedColumns record input))
    (hchanges : s.assigned (e.writing moment record input).assignments = .ok changes)
    (htimestamps : e.timestamps = true) (hunset : updatedAt ∉ changedColumns record input)
    (hwide : s.columns.length ≤ row.length) :
    ∃ k, s.columnIndex? updatedAt = some k ∧
      (s.changedRow row changes).cell k = s.storedAt k (.text moment.now) := by
  have hassignment : (updatedAt, Value.text moment.now) ∈
      (e.writing moment record input).assignments :=
    mem_withChangeTime_iff.mpr (.inr ⟨htimestamps, by simpa using hunset, rfl⟩)
  obtain ⟨k, hk, hchange⟩ := (Schema.of_assigned hchanges).1 _ hassignment
  have hindex : s.columnIndex? updatedAt = some k :=
    Schema.columnIndex?_of_writtenColumn (by decide) hk
  have hlt := (List.findIdx?_eq_some_iff_findIdx_eq.mp hindex).1
  refine ⟨k, hindex, Schema.cell_changedRow (d := .text moment.now) ⟨_, hchange, rfl⟩
    (fun other hother hsame => ?_) (by omega)⟩
  rcases written_or_time hchanges hother with ⟨column, hcolumn, hi, _⟩ | ⟨_, _, _, hvalue⟩
  · obtain ⟨i, hdeclares⟩ := h.declared column hcolumn
    obtain rfl := hdeclares.eq_of_writtenColumn hi
    have hcalled := Schema.sameName_of_columnIndex? (hsame ▸ hindex) hdeclares
    exact absurd (h.time htimestamps column hcolumn hcalled ▸ hcolumn) hunset
  · exact hvalue

theorem Calls.cell_other (h : e.Calls s (changedColumns record input))
    (hchanges : s.assigned (e.writing moment record input).assignments = .ok changes) {i : Nat}
    (hcolumns : ∀ column ∈ changedColumns record input, ¬ s.Declares column i)
    (htime : e.timestamps = true → updatedAt ∉ changedColumns record input →
      s.columnIndex? updatedAt ≠ some i) (row : Row) :
    (s.changedRow row changes).cell i = row.cell i := by
  refine Schema.cell_changedRow_other fun change hmem hsame => ?_
  rcases written_or_time hchanges hmem with ⟨column, hcolumn, hi, _⟩ | hchange
  · obtain ⟨k, hk⟩ := h.declared column hcolumn
    obtain rfl := hk.eq_of_writtenColumn hi
    exact hcolumns column hcolumn (hsame ▸ hk)
  · obtain ⟨htimestamps, hunset, hindex, _⟩ := hchange
    exact htime htimestamps hunset (hsame ▸ hindex)

end Cells

/-- The row with the key of a record, before and after an update with an input. -/
structure Effect (e : Entity) (moment : Moment) (record input : Record) (t : Table)
    (before after : Store) (row stored : Row) : Prop where
  alone : t.rowsWith e.primaryKey (record.value e.primaryKey) = [row]
  has : after.HasRow e.table t.schema stored
  length : stored.length = row.length
  written : ∀ column ∈ changedColumns record input, ∃ k, t.schema.Declares column k ∧
    stored.cell k = t.schema.storedAt k (.ofValue (input.value column))
  time : e.timestamps = true → updatedAt ∉ changedColumns record input →
    ∃ k, t.schema.columnIndex? updatedAt = some k ∧
      stored.cell k = t.schema.storedAt k (.text moment.now)
  other : ∀ i, (∀ column ∈ changedColumns record input, ¬ t.schema.Declares column i) →
    (e.timestamps = true → updatedAt ∉ changedColumns record input →
      t.schema.columnIndex? updatedAt ≠ some i) → stored.cell i = row.cell i
  rows : ∀ name schema other, before.HasRow name schema other →
    (Text.sameName e.table name = true → other ∈ t.rows.erase row) →
      after.HasRow name schema other
  own : ¬ before.Logs t.schema.name e.table → ∃ t', after.table e.table = .ok t' ∧
    t'.schema = t.schema ∧ t'.rows.Perm (stored :: t.rows.erase row)
  tables : ∀ name, Text.sameName e.table name = false → ¬ before.Logs t.schema.name name →
    after.table? name = before.table? name

theorem Tabled.isSome_key (h : e.Tabled store t p) : (t.schema.index? e.primaryKey).isSome := by
  rw [h.key.index?_eq]
  rfl

/-- An update that the store takes, of a row that is not there, leaves the tables as they are. -/
theorem Tabled.of_update_none (h : e.Tabled store t p)
    (hnull : (record.value e.primaryKey).isNull = false)
    (hnone : t.rowsWith e.primaryKey (record.value e.primaryKey) = []) {result : WriteResult}
    (hupdate : store.update (e.writing moment record input) = .ok (store', result)) :
    result.rows = [] ∧ store'.tables = store.tables := by
  obtain ⟨changes, between, _, hfold, schemas, rfl⟩ :=
    Store.of_update_rows (u := e.writing moment record input) h.own h.plain_key h.isSome_key
      (Value.isNull_eq_false.mp hnull) hupdate
  have hnone' : t.rowsWith (e.writing moment record input).key
      (e.writing moment record input).keyValue = [] := hnone
  rw [hnone'] at hfold
  cases hfold
  exact ⟨rfl, rfl⟩

/-- After an update all rows of the table still have a cell for each column. -/
theorem Tabled.wide_after (h : e.Tabled store t p)
    (hnull : (record.value e.primaryKey).isNull = false)
    (hrow : t.rowsWith e.primaryKey (record.value e.primaryKey) = [row]) {result : WriteResult}
    (hupdate : store.update (e.writing moment record input) = .ok (store', result)) :
    store'.Wide e.table := by
  have hmem : row ∈ t.rowsWith e.primaryKey (record.value e.primaryKey) := by
    simp [hrow]
  obtain ⟨changes, between, _, _, hlog, schemas, rfl⟩ :=
    Store.of_update_alone (u := e.writing moment record input) h.own h.plain_key h.isSome_key
      (Value.isNull_eq_false.mp hnull) hrow hupdate
  have hschema : (t.replaceRow row (t.schema.changedRow row changes)).schema = t.schema := rfl
  have hset : (store.setTable (t.replaceRow row (t.schema.changedRow row changes))).Wide e.table := by
    refine Store.Wide.setTable (fun t' ht' => ?_) h.own hschema fun _ other hother => ?_
    · rw [h.own] at ht'
      cases ht'
      exact h.wide
    · rcases Table.mem_place.mp hother with rfl | hother
      · rw [Schema.length_changedRow]
        exact h.wide row (List.mem_filter.mp hmem).1
      · exact h.wide other (List.mem_of_mem_erase hother)
  have hlogged : between.Wide e.table := hset.logChange hlog
  exact hlogged

/-- What the store makes of the one row with the key. -/
theorem Tabled.effect (h : e.Tabled store t p)
    (hnull : (record.value e.primaryKey).isNull = false)
    (hcalls : e.Calls t.schema (changedColumns record input))
    (hrow : t.rowsWith e.primaryKey (record.value e.primaryKey) = [row]) {result : WriteResult}
    (hupdate : store.update (e.writing moment record input) = .ok (store', result)) :
    ∃ stored, result.rows = [t.readRow stored] ∧ store.SameSchemas store' ∧
      e.Effect moment record input t store store' row stored := by
  have hmem : row ∈ t.rowsWith e.primaryKey (record.value e.primaryKey) := by
    simp [hrow]
  have hwide := h.wide row (List.mem_filter.mp hmem).1
  obtain ⟨changes, between, hchanges, hback, hlog, schemas, rfl⟩ :=
    Store.of_update_alone (u := e.writing moment record input) h.own h.plain_key h.isSome_key
      (Value.isNull_eq_false.mp hnull) hrow hupdate
  have hschema : (t.replaceRow row (t.schema.changedRow row changes)).schema = t.schema := rfl
  have hset := h.named.sameSchemas_setTable h.own hschema
  have hlogged := (h.named.of_sameSchemas hset).sameSchemas_logChange hlog
  have htable := Store.table?_setTable_of (Store.table_eq_ok.mp h.own) hschema
  have hunlogged := (Store.of_logChange hlog).2
  have hplaced : ∀ other, other ∈ (t.replaceRow row (t.schema.changedRow row changes)).rows ↔
      other = t.schema.changedRow row changes ∨ other ∈ t.rows.erase row := by
    intro other
    exact Table.mem_place
  refine ⟨t.schema.changedRow row changes, hback,
    (hset.trans hlogged).trans (.noteWritten between schemas), ?_⟩
  refine ⟨hrow, ?_, Schema.length_changedRow t.schema row changes, fun column hcolumn => ?_,
    fun htimestamps hunset => hcalls.cell_time hchanges htimestamps hunset hwide,
    fun i hcolumns htime => hcalls.cell_other hchanges hcolumns htime row,
    fun name schema other hother hkeeps => ?_, fun hlogs => ?_, fun name hname hlogs => ?_⟩
  · refine (Store.HasRow.logChange ?_ hlog).noteWritten schemas
    have hown := htable e.table
    rw [if_pos (Text.sameName_refl e.table)] at hown
    exact ⟨_, Store.table_eq_ok.mpr hown, hschema, (hplaced _).mpr (.inl rfl)⟩
  · obtain ⟨k, hk⟩ := hcalls.declared column hcolumn
    exact ⟨k, hk, hcalls.cell_written hchanges hcolumn hk hwide⟩
  · refine (Store.HasRow.logChange ?_ hlog).noteWritten schemas
    exact hother.setTable_of h.own hschema fun hsame => (hplaced other).mpr (.inr (hkeeps hsame))
  · refine ⟨t.replaceRow row (t.schema.changedRow row changes), ?_, hschema, perm_insertSorted _ _⟩
    have hown : between.table? e.table =
        some (t.replaceRow row (t.schema.changedRow row changes)) := by
      rw [hunlogged e.table hlogs, htable, if_pos (Text.sameName_refl e.table)]
    exact Store.table_eq_ok.mpr hown
  · have hother : between.table? name = store.table? name := by
      rw [hunlogged name hlogs, htable, hname, if_neg Bool.false_ne_true]
    exact hother

end Entity

/-- To read rows of an entity brings them back as they are read one by one. -/
theorem Entity.exec_fetchAll {e : Entity} {session : Session} {t : Table} (hplain : IsPlain e.table)
    (hread : session.store.readable? none e.table = some t)
    (hnarrow : t.schema.columns.length ≤ Store.limits.columns)
    (hwide : ∀ row ∈ t.rows, t.schema.columns.length ≤ row.length) (limit offset : Option Int) :
    ∃ events, ({ e.query with limit := limit, offset := offset } : Query).fetchAll.exec session =
      (((Store.window limit offset t.rows).mapM t.readRow).mapError .storage,
        { session with events := events }) := by
  obtain ⟨events, hfetch⟩ :=
    Query.exec_fetchAll { e.query with limit := limit, offset := offset } session
  have hselect := Store.select_rows hplain hread hnarrow hwide [] limit offset
  have htest : session.store.rowTest t [] = .ok fun _ => true := rfl
  rw [htest, Except.bind, List.filter_true] at hselect
  refine ⟨events, ?_⟩
  rw [hfetch, Query.rows_of_no_loads rfl]
  exact congrArg (fun rows => (Except.mapError QueryError.storage rows, _)) hselect

/-- An update of a record with a key writes the columns of the input that look different in the
record. Where none does, the record comes back and nothing is done. Where one is no identifier, the
input is invalid. Where the store takes the statement and no row has the key, none is found. What
comes back of a success is the changed row as it is read again: its columns that looked different,
and the time, are new, and all else is as it was. -/
theorem Entity.update_effect {e : Entity} {moment : Moment} {record input : Record}
    (hkey : (record.value e.primaryKey).isNull = false) (session : Session) :
    (changedColumns record input = [] → (e.update moment record input).exec session = (.ok record,
      { session with events := session.events ++ [.clean (record.value e.primaryKey)] })) ∧
    (∀ column ∈ changedColumns record input, Identifier.valid column = false →
      ∃ first ∈ changedColumns record input, Identifier.valid first = false ∧
        (e.update moment record input).exec session = (.error (.invalid (.identifier first)),
          { session with events := session.events ++ [.failed .update] })) ∧
    ∀ t p, e.Tabled session.store t p → changedColumns record input ≠ [] →
      ((∀ column ∈ changedColumns record input, Identifier.valid column = true) →
        t.rowsWith e.primaryKey (record.value e.primaryKey) = [] → ∀ store result,
        session.store.update (e.writing moment record input) = .ok (store, result) →
          store.tables = session.store.tables ∧
          (e.update moment record input).exec session =
            (.error (.notFound e.table (record.value e.primaryKey).display),
              ⟨store, session.events ++ [.statement (e.writing moment record input).text] ++
                [.failed .update]⟩)) ∧
      (e.Calls t.schema (changedColumns record input) → ∀ found after,
        (e.update moment record input).exec session = (.ok found, after) →
        ∃ row stored, e.Effect moment record input t session.store after.store row stored ∧
          ∃ t', after.store.table e.table = .ok t' ∧ stored ∈ t'.rows ∧
            t'.readRow stored = .ok found ∧
            ∀ limit offset, ∃ events,
              ({ e.query with limit := limit, offset := offset } : Query).fetchAll.exec after =
                (((Store.window limit offset t'.rows).mapM t'.readRow).mapError .storage,
                  { after with events := events })) := by
  refine ⟨fun hclean => exec_update_clean hkey hclean session,
    fun column hmem hinvalid => exec_update_invalid hkey hmem hinvalid session,
    fun t p htabled hchanged => ⟨fun hvalid hnone store result hupdate => ?_,
      fun hcalls found after hrun => ?_⟩⟩
  · obtain ⟨hrows, htables⟩ := htabled.of_update_none hkey hnone hupdate
    have hexec : (e.update moment record input).exec session = _ :=
      exec_update_changed hkey hchanged hvalid session
    rw [hupdate] at hexec
    dsimp only at hexec
    rw [hrows] at hexec
    exact ⟨htables, hexec⟩
  · obtain ⟨_, ⟨hclean, _⟩ | ⟨result, hupdate, hfound⟩⟩ := of_updateRow (Run.of_logged hrun)
    · exact absurd hclean hchanged
    · rcases Table.rowsWith_cases htabled.key htabled.kept htabled.once
        (record.value e.primaryKey) with hnone | ⟨row, hrow⟩
      · rw [(htabled.of_update_none hkey hnone hupdate).1] at hfound
        cases hfound
      · obtain ⟨stored, hback, hschemas, heffect⟩ := htabled.effect hkey hcalls hrow hupdate
        obtain ⟨t', ht', hschema, hmem⟩ := heffect.has
        have hread := htabled.named.readable?_eq hschemas htabled.read ht' hschema
        have hwide := htabled.wide_after hkey hrow hupdate t' ht'
        rw [hback, List.head?_cons, Option.some_inj, ← Table.readRow_congr hschema] at hfound
        exact ⟨row, stored, heffect, t', ht', hmem, hfound,
          exec_fetchAll htabled.plain hread (hschema ▸ htabled.narrow) hwide⟩

namespace Shop

/-- A customer with a code, and one of the same name without. -/
def codedTable : Table where
  schema := customerSchema
  rows :=
    [[.int 1, .text "x", .text "k", .int 1, .null, .null, .null, .null, .null],
     [.int 2, .text "x", .null, .int 1, .null, .null, .null, .null, .null]]

def codedCustomers : Store where
  tables := [codedTable, { schema := auditSchema }]
  watches := emptyStore.watches

theorem tabled_codedCustomers : customers.Tabled codedCustomers codedTable 0 := by
  decide +kernel

def firstCustomer : Record :=
  .ofList [("id", .int 1), ("name", .text "x"), ("status", .int 1)]

def newName : Record :=
  .ofList [("name", .text "y"), ("status", .int 1)]

/-- The first customer gets a new name and the time, and the second is left as it is. -/
theorem update_effect_of_new_name :
    ∃ found after, ∃ stored second : Row, (customers.update ⟨"now", ""⟩ firstCustomer newName).exec
        { store := codedCustomers } = (.ok found, after) ∧
      codedTable.rows[1]? = some second ∧
      (∃ t', after.store.table "customers" = .ok t' ∧ t'.rows.Perm [stored, second]) ∧
      stored.cell 1 = .text "y" ∧ stored.cell 8 = .text "now" ∧ stored.cell 2 = .text "k" := by
  have hupdated : ((customers.update ⟨"now", ""⟩ firstCustomer newName).exec
      { store := codedCustomers }).1.toOption.isSome = true := by
    decide +kernel
  have hchanged : Entity.changedColumns firstCustomer newName = ["name"] := by decide +kernel
  have hname : customerSchema.Declares "name" 1 := by decide +kernel
  have hcalls : customers.Calls customerSchema (Entity.changedColumns firstCustomer newName) := by
    decide +kernel
  rcases hrun : (customers.update ⟨"now", ""⟩ firstCustomer newName).exec
      { store := codedCustomers } with ⟨fault | found, after⟩
  · rw [hrun] at hupdated
    cases hupdated
  · obtain ⟨_, _, hthere⟩ := @Entity.update_effect customers ⟨"now", ""⟩ firstCustomer newName
      (by decide +kernel) { store := codedCustomers }
    obtain ⟨_, hsuccess⟩ := hthere codedTable 0 tabled_codedCustomers (by simp [hchanged])
    obtain ⟨row, stored, heffect, _⟩ := hsuccess hcalls found after hrun
    have halone : codedTable.rowsWith "id" (.int 1) =
        [[.int 1, .text "x", .text "k", .int 1, .null, .null, .null, .null, .null]] := by
      decide +kernel
    have hrow := heffect.alone.symm.trans halone
    obtain rfl := List.head_eq_of_cons_eq hrow
    obtain ⟨t', ht', _, hperm⟩ := heffect.own (by decide +kernel)
    refine ⟨found, after, stored, _, rfl, rfl, ⟨t', ht', hperm⟩, ?_, ?_, ?_⟩
    · obtain ⟨k, hk, hcell⟩ := heffect.written "name" (by simp [hchanged])
      obtain rfl := Option.some.inj (hname.index.symm.trans hk.index)
      rw [hcell]
      decide +kernel
    · obtain ⟨k, hk, hcell⟩ := heffect.time rfl (by simp [hchanged, Entity.updatedAt])
      have htime : customerSchema.columnIndex? Entity.updatedAt = some 8 := by decide +kernel
      obtain rfl := Option.some.inj (htime.symm.trans hk)
      rw [hcell]
      decide +kernel
    · refine (heffect.other 2 (fun column hcolumn hdeclares => ?_) fun _ _ => ?_).trans ?_
      · rw [hchanged, List.mem_singleton] at hcolumn
        subst hcolumn
        have hsame := Option.some.inj (hname.index.symm.trans hdeclares.index)
        cases hsame
      · decide +kernel
      · rfl

end Shop

end TableQuery
