import TableQuery.Proofs.KeptValues
import TableQuery.Proofs.OrderedRows

namespace TableQuery

namespace Identifier

theorem eq_of_readName? {cs : List Char} {name : String} (h : readName? cs = some (name, [])) :
    name = String.ofList cs := by
  obtain ⟨ns, _, hname, rfl⟩ := readName?_spelling h
  rw [hname, List.append_nil]

theorem eq_nil_of_readShown? {cs : List Char} (h : readShown? cs = some none) : cs = [] := by
  unfold readShown? at h
  split at h
  next => rfl
  next =>
    split at h
    next =>
      obtain ⟨_, _, hshown⟩ := Option.map_eq_some_iff.mp h
      cases hshown
    next => cases h
  next => cases h

/-- A name alone is the whole text that was read. -/
theorem eq_of_read?_alone {s name : String} (h : read? s = some ⟨none, some name, none⟩) :
    name = s := by
  unfold read? readCharacters? at h
  split at h
  next => cases h
  next =>
    split at h
    next => cases h
    next =>
      obtain ⟨_, _, hread⟩ := Option.map_eq_some_iff.mp h
      cases hread
    next =>
      split at h
      next => cases h
      next =>
        obtain ⟨_, _, hread⟩ := Option.map_eq_some_iff.mp h
        cases hread
    next column rest _ _ hname =>
      obtain ⟨shown, hshown, hread⟩ := Option.map_eq_some_iff.mp h
      cases hread
      rw [eq_nil_of_readShown? hshown] at hname
      rw [eq_of_readName? hname, String.ofList_toList]

end Identifier

theorem of_statementName {s : String} {i : Identifier} (h : statementName s = .ok i) :
    Identifier.read? s = some i := by
  unfold statementName at h
  split at h
  next found hread =>
    dsimp only at h
    split at h
    next =>
      cases h
      exact hread
    next => cases h
  next => cases h

/-- A name that a write spells alone is what the caller has written. -/
theorem eq_of_plainName {written name : String} (h : plainName written = .ok name) :
    name = written := by
  obtain ⟨⟨table, column, shown⟩, hi, h⟩ := Except.of_bind_ok h
  have hread := of_statementName hi
  cases table with
  | some table => cases h
  | none =>
    cases column with
    | none => cases h
    | some column =>
      cases shown with
      | some shown => cases h
      | none =>
        cases h
        exact Identifier.eq_of_read?_alone hread

namespace Except

variable {ε α β : Type} {f : α → Except ε β} {as : List α} {bs : List β}

/-- Where all results are known beforehand, these come out. -/
theorem eq_map_of_mapM_ok {g : α → β} (hg : ∀ a b, f a = .ok b → b = g a)
    (h : as.mapM f = .ok bs) : bs = as.map g := by
  have hpairs := mapM_eq_ok_iff.mp h
  clear h
  induction hpairs with
  | nil => rfl
  | cons hab _ ih => rw [List.map_cons, ← ih, hg _ _ hab]

end Except

namespace Schema

/-- The cells that columns are called by. -/
def indices (s : Schema) (names : List String) : List Nat :=
  names.filterMap fun name => (s.writtenColumn name).toOption

theorem indices_of_mapM {s : Schema} {names : List String} {columns : List Nat}
    (h : names.mapM s.writtenColumn = .ok columns) : s.indices names = columns := by
  have hpairs := Except.mapM_eq_ok_iff.mp h
  clear h
  unfold indices
  induction hpairs with
  | nil => rfl
  | cons hab _ ih => rw [List.filterMap_cons, hab, Except.toOption, ih]

theorem mem_indices {s : Schema} {names : List String} {i : Nat} :
    i ∈ s.indices names ↔ ∃ name ∈ names, s.writtenColumn name = .ok i := by
  unfold indices
  rw [List.mem_filterMap]
  refine exists_congr fun name => and_congr_right fun _ => ⟨Except.of_toOption, fun h => ?_⟩
  rw [h]
  rfl

/-- The column of an insert whose values a cell gets. Of two columns for one cell the first counts,
of two keys the last. -/
def source? (s : Schema) (names : List String) (i : Nat) : Option String :=
  let own := names.filter fun name => s.writtenColumn name = .ok i
  if i = s.keyIndex then own.getLast? else own.head?

/-- The row that an insert into the named columns makes of values under their names. -/
def rowBy (s : Schema) (names : List String) (value : String → Value) : Row :=
  s.cells.mapIdx fun i column =>
    column.affinity.store
      (((s.source? names i).map fun name => Datum.ofValue (value name)).getD column.absent)

def rowOf (s : Schema) (names : List String) (record : Record) : Row :=
  s.rowBy names record.value

variable {s : Schema} {names : List String} {columns : List Nat} {record : Record} {i : Nat}

theorem mem_of_source? {name : String} (h : s.source? names i = some name) :
    name ∈ names ∧ s.writtenColumn name = .ok i := by
  have hmem : name ∈ names.filter fun name => s.writtenColumn name = .ok i := by
    unfold source? at h
    dsimp only at h
    split at h
    next => exact List.mem_of_getLast? h
    next => exact List.mem_of_head? h
  simpa using List.mem_filter.mp hmem

theorem exists_source? (h : ∃ name ∈ names, s.writtenColumn name = .ok i) :
    ∃ name, s.source? names i = some name := by
  obtain ⟨name, hmem, hname⟩ := h
  have hne : (names.filter fun name => s.writtenColumn name = .ok i) ≠ [] :=
    List.ne_nil_of_mem (List.mem_filter.mpr ⟨hmem, by simpa using hname⟩)
  unfold source?
  dsimp only
  split
  next => exact ⟨_, List.getLast?_eq_some_getLast hne⟩
  next => exact ⟨_, List.head?_eq_some_head hne⟩

/-- Beside the numbers of columns stand the values under their names. -/
theorem given_of_zip (h : names.mapM s.writtenColumn = .ok columns) (g : String → Datum) (i : Nat) :
    ((columns.zip (names.map g)).filter (·.1 = i)).map Prod.snd =
      (names.filter fun name => s.writtenColumn name = .ok i).map g := by
  have hpairs := Except.mapM_eq_ok_iff.mp h
  clear h
  induction hpairs with
  | nil => rfl
  | @cons name column _ _ hname _ ih =>
    rw [List.map_cons, List.zip_cons_cons, List.filter_cons, List.filter_cons, hname]
    by_cases hi : column = i
    · simp [hi, ih]
    · simp [hi, ih]

theorem newRow_of_zip (h : names.mapM s.writtenColumn = .ok columns) (record : Record) :
    s.newRow (columns.zip ((names.map record.value).map Datum.ofValue)) = s.rowOf names record := by
  unfold newRow rowOf rowBy
  refine List.mapIdx_eq_mapIdx_iff.mpr fun i hi => ?_
  rw [List.map_map, given_of_zip h, source?]
  dsimp only
  split
  next => rw [List.getLast?_map]; rfl
  next => rw [List.head?_map]; rfl

theorem cell_rowOf {name : String} (h : s.source? names i = some name) (hi : i < s.cells.length)
    (record : Record) :
    (s.rowOf names record).cell i = s.storedAt i (.ofValue (record.value name)) := by
  simp [rowOf, rowBy, Row.cell, storedAt, hi, h]

theorem cell_rowOf_absent {column : Column} (h : s.source? names i = none)
    (hcolumn : s.cells[i]? = some column) (record : Record) :
    (s.rowOf names record).cell i = column.affinity.store column.absent := by
  simp [rowOf, rowBy, Row.cell, hcolumn, h]

end Schema

theorem Affinity.store_ne_null {a : Affinity} {d : Datum} (h : d ≠ .null) : a.store d ≠ .null := by
  have hnumber : numberOfText d ≠ .null := by
    cases d with
    | text s =>
      cases hread : Datum.number? s with
      | none => simp [numberOfText, hread]
      | some n => rcases Datum.number?_cases hread with ⟨m, rfl, _⟩ | ⟨x, rfl⟩ <;>
          simp [numberOfText, hread]
    | _ => exact h
  have hwhole : ∀ x, wholeNumber x ≠ .null := by
    intro x
    unfold wholeNumber
    split
    next => split <;> simp
    next => simp
  cases a with
  | any => exact h
  | text => cases d <;> simp_all [store, textOfNumber]
  | integer =>
    dsimp only [store]
    split
    next x _ => exact hwhole x
    next => exact hnumber
  | real =>
    dsimp only [store]
    split
    next => simp
    next => simp
    next => exact hnumber

theorem Schema.storedAt_ne_null {s : Schema} {i : Nat} {d : Datum} (h : d ≠ .null) :
    s.storedAt i d ≠ .null := by
  unfold storedAt
  split
  next => exact Affinity.store_ne_null h
  next => exact h

namespace Store

/-- A name that a log of the changes of a table goes by. -/
def Logs (store : Store) (table name : String) : Prop :=
  ∃ watch ∈ store.watches, watch.table = table ∧ Text.sameName watch.log name = true

instance (store : Store) (table name : String) : Decidable (store.Logs table name) :=
  inferInstanceAs (Decidable (∃ watch ∈ store.watches, _))

variable {store store' : Store} {table : String} {t t' : Table}

theorem of_logChange {schema : Schema} {row : Row}
    (h : store.logChange table schema row = .ok store') :
    store'.watches = store.watches ∧
      ∀ name, ¬ store.Logs table name → store'.table? name = store.table? name := by
  -- what the watches have written so far are logs
  refine logChange_induction (P := fun next : Store => next.watches = store.watches ∧
    ∀ name, ¬ store.Logs table name → next.table? name = store.table? name)
    h ⟨rfl, fun _ _ => rfl⟩ ?_
  intro watch hmem htable next log added given written hnext hlog hadd
  refine ⟨hnext.1, fun name hname => ?_⟩
  have hother : ¬ Text.sameName watch.log name = true := fun hsame =>
    hname ⟨watch, hmem, htable, hsame⟩
  rw [table?_setTable_of (table_eq_ok.mp hlog) (Table.schema_of_addRow hadd), if_neg hother]
  exact hnext.2 name hname

/-- An inserted row is added to its table, and logs are all else that changes, where rows may be
changed; they keep their rows. -/
theorem of_insertRow {columns : List Nat} {meeting : Option Table.Meeting} {values : List Value}
    {result result' : WriteResult} (ht : store.table table = .ok t)
    (h : insertRow table columns meeting (store, result) values = .ok (store', result')) :
    ∃ next written, t.addRow (columns.zip (values.map Datum.ofValue)) meeting =
        .ok (next, written) ∧ store'.watches = store.watches ∧
      (∀ name, ¬ store.Logs t.schema.name name ∨ (∀ m ∈ meeting, m.update = []) →
        store'.table? name =
          if Text.sameName table name then some next else store.table? name) ∧
      ∀ name schema row, Text.sameName table name = false → store.HasRow name schema row →
        store'.HasRow name schema row := by
  obtain ⟨own, hown, h⟩ := Except.of_bind_ok h
  rw [ht] at hown
  cases hown
  obtain ⟨⟨next, written⟩, hadd, h⟩ := Except.of_bind_ok h
  refine ⟨next, written, hadd, ?_⟩
  have hschema := Table.schema_of_addRow hadd
  have hset := table?_setTable_of (table_eq_ok.mp ht) hschema
  have hkept : ∀ name schema row, Text.sameName table name = false →
      store.HasRow name schema row → (store.setTable next).HasRow name schema row := by
    intro name schema row hother hrow
    refine hrow.setTable_of ht hschema fun hsame => ?_
    rw [hother] at hsame
    cases hsame
  cases written with
  | added row =>
    cases h
    exact ⟨rfl, fun name _ => hset name, hkept⟩
  | dropped =>
    cases h
    exact ⟨rfl, fun name _ => hset name, hkept⟩
  | changed row =>
    obtain ⟨logged, hlog, h⟩ := Except.of_bind_ok h
    cases h
    obtain ⟨hwatches, htables⟩ := of_logChange hlog
    rw [hschema] at htables
    refine ⟨hwatches, fun name hname => ?_, fun name schema row hother hrow =>
      (hkept name schema row hother hrow).logChange hlog⟩
    rcases hname with hname | hnothing
    · exact (htables name hname).trans (hset name)
    · obtain ⟨m, hm, hupdate⟩ := Table.update_of_addRow hadd
      exact absurd (hnothing m hm) hupdate

/-- A row that meets nothing is added and comes back. -/
theorem of_insertRow_none {columns : List Nat} {values : List Value}
    {result result' : WriteResult} (ht : store.table table = .ok t)
    (h : insertRow table columns none (store, result) values = .ok (store', result')) :
    ∃ next row, t.addRow (columns.zip (values.map Datum.ofValue)) none = .ok (next, .added row) ∧
      store' = store.setTable next ∧
      result' = ⟨result.count + 1, result.rows ++ [next.readRow row]⟩ := by
  obtain ⟨own, hown, h⟩ := Except.of_bind_ok h
  rw [ht] at hown
  cases hown
  obtain ⟨⟨next, written⟩, hadd, h⟩ := Except.of_bind_ok h
  obtain ⟨noted, row, _, _, _, _, rfl⟩ := Table.of_addRow_none hadd
  cases h
  exact ⟨next, row, hadd, rfl, rfl⟩

theorem of_insertRows {columns : List Nat} {meeting : Option Table.Meeting}
    {rows : List (List Value)} {result result' : WriteResult} (ht : store.table table = .ok t)
    (hlogs : ¬ store.Logs t.schema.name table)
    (h : rows.foldlM (insertRow table columns meeting) (store, result) = .ok (store', result')) :
    ∃ last, t.addRows (rows.map fun values => columns.zip (values.map Datum.ofValue)) meeting =
        .ok last ∧ store'.watches = store.watches ∧
      (∀ name, ¬ store.Logs t.schema.name name ∨ (∀ m ∈ meeting, m.update = []) →
        store'.table? name =
          if Text.sameName table name then some last else store.table? name) ∧
      ∀ name schema row, Text.sameName table name = false → store.HasRow name schema row →
        store'.HasRow name schema row := by
  induction rows generalizing store t result with
  | nil =>
    cases h
    refine ⟨t, rfl, rfl, fun name _ => ?_, fun _ _ _ _ hrow => hrow⟩
    split
    next hsame => rw [← table?_congr hsame, table_eq_ok.mp ht]
    next => rfl
  | cons values rows ih =>
    rw [List.foldlM_cons] at h
    obtain ⟨⟨between, result''⟩, hfirst, hrest⟩ := Except.of_bind_ok h
    obtain ⟨next, written, hadd, hwatches, htables, hkept⟩ := of_insertRow ht hfirst
    have hschema := Table.schema_of_addRow hadd
    have hnext : between.table table = .ok next := by
      rw [table_eq_ok, htables table (.inl hlogs), if_pos (Text.sameName_refl table)]
    have hsame : ∀ name, between.Logs next.schema.name name ↔ store.Logs t.schema.name name := by
      intro name
      rw [Logs, Logs, hwatches, hschema]
    obtain ⟨last, hadds, hwatches', htables', hkept'⟩ :=
      ih hnext (fun hlog => hlogs ((hsame table).mp hlog)) hrest
    refine ⟨last, ?_, hwatches'.trans hwatches, fun name hname => ?_,
      fun name schema row hother hrow => hkept' name schema row hother
        (hkept name schema row hother hrow)⟩
    · rw [List.map_cons, Table.addRows, List.foldlM_cons, hadd]
      exact hadds
    · rw [htables' name (hname.imp_left fun hnot hlog => hnot ((hsame name).mp hlog)),
        htables name hname]
      split
      next => rfl
      next => rfl

/-- The rows of an insert go into its table one by one. -/
theorem of_insert {i : Insert} {result : WriteResult}
    (h : store.insert i = .ok (store', result)) (ht : store.table i.table = .ok t) :
    ∃ columns meeting between, i.columns.mapM t.schema.writtenColumn = .ok columns ∧
      (match i.conflict with
      | some conflict => meetingOf t.schema columns conflict
      | none => .ok none) = .ok meeting ∧
      i.rows.foldlM (insertRow i.table columns meeting) (store, ⟨0, []⟩) = .ok (between, result) ∧
      ∃ schemas, store' = between.noteWritten schemas := by
  obtain ⟨own, hown, h⟩ := Except.of_bind_ok h
  rw [ht] at hown
  cases hown
  obtain ⟨columns, hcolumns, h⟩ := Except.of_bind_ok h
  obtain ⟨table, names, rows, conflict, returning⟩ := i
  cases conflict
  all_goals
    obtain ⟨meeting, hmeeting, h⟩ := Except.of_bind_ok h
    dsimp only at h
    split at h
    next => cases h
    next =>
      obtain ⟨⟨between, result'⟩, hrows, h⟩ := Except.of_bind_ok h
      obtain ⟨_, _, h⟩ := Except.of_bind_ok h
      cases h
      exact ⟨columns, meeting, between, hcolumns, hmeeting, hrows, _, rfl⟩

/-- An insert of one row that may meet nothing adds it and gives it back. -/
theorem of_insert_one {names : List String} {values : List Value} {returning : Bool}
    {result : WriteResult} (ht : store.table table = .ok t)
    (h : store.insert ⟨table, names, [values], none, returning⟩ = .ok (store', result)) :
    ∃ columns next row, names.mapM t.schema.writtenColumn = .ok columns ∧
      t.addRow (columns.zip (values.map Datum.ofValue)) none = .ok (next, .added row) ∧
      result.rows = [next.readRow row] ∧
      ∃ schemas, store' = (store.setTable next).noteWritten schemas := by
  obtain ⟨columns, meeting, between, hcolumns, hmeeting, hrows, schemas, rfl⟩ :=
    of_insert h ht
  cases hmeeting
  rw [List.foldlM_cons] at hrows
  obtain ⟨⟨once, result'⟩, honce, hrows⟩ := Except.of_bind_ok hrows
  cases hrows
  obtain ⟨next, row, hadd, rfl, rfl⟩ := of_insertRow_none ht honce
  exact ⟨columns, next, row, hcolumns, hadd, rfl, schemas, rfl⟩

end Store

end TableQuery
