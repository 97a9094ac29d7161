import Mathlib.Data.Multiset.ZeroCons
import TableQuery.Proofs.CreatedRow
import TableQuery.Proofs.InsertedTogether
import TableQuery.Proofs.UpsertWrites

namespace TableQuery

namespace Schema

variable {s : Schema} {i : Nat}

theorem storedAt_eq_null_iff {d : Datum} : s.storedAt i d = .null ↔ d = .null := by
  refine ⟨fun h => ?_, fun h => ?_⟩
  · by_contra hd
    exact storedAt_ne_null hd h
  · rw [h, storedAt]
    split
    next column _ => exact column.affinity.store_null
    next => rfl

theorem sameName_of_columnIndex?_eq {a b : String} (ha : s.columnIndex? a = some i)
    (hb : s.columnIndex? b = some i) : Text.sameName a b = true := by
  obtain ⟨_, hfirst, _⟩ := List.findIdx?_eq_some_iff_getElem.mp ha
  obtain ⟨_, hsecond, _⟩ := List.findIdx?_eq_some_iff_getElem.mp hb
  rw [Text.sameName_iff] at hfirst hsecond ⊢
  exact hfirst.symm.trans hsecond

end Schema

theorem Datum.ofValue_eq_null_iff {v : Value} : ofValue v = .null ↔ v = .null := by
  cases v <;> simp [ofValue]

namespace Table

/-- What has become of a new row makes the rows before it to the rows after it. -/
def Written.Moves (before after : List Row) : Written → Prop
  | added row => after.Perm (row :: before)
  | changed row => ∃ old ∈ before, after.Perm (row :: before.erase old)
  | dropped => after = before

/-- What has become of new rows, one after the other, reaches the rows after from those before. -/
inductive Reaches : List Row → List Written → List Row → Prop
  | done (rows : List Row) : Reaches rows [] rows
  | step {before between after : List Row} {written : Written} {rest : List Written}
    (hfirst : written.Moves before between) (hrest : Reaches between rest after) :
    Reaches before (written :: rest) after

/-- What a new row brings is found in what has become of it: all of it where it is added, the cells
to update where it changes a stored row. -/
def Written.Brings (s : Schema) (meeting : Option Meeting) (new : Row) : Written → Prop
  | added row => s.Completes new row
  | changed row => ∃ m ∈ meeting, m.update ≠ [] ∧ (∃ n, row.cell s.keyIndex = .int n) ∧
      ∀ i ∈ m.update, i < s.cells.length → i ≠ s.keyIndex → row.cell i = s.storedAt i (new.cell i)
  | dropped => ∃ m ∈ meeting, m.update = []

/-- Rows with a cell for each column and one for the key. -/
structure Whole (t : Table) : Prop where
  key : t.schema.keyIndex < t.schema.cells.length
  width : ∀ row ∈ t.rows, row.length = t.schema.cells.length

theorem Ordered.whole {t : Table} (h : t.Ordered) : t.Whole :=
  ⟨h.schema.lt, h.width⟩

variable {t next last : Table} {given : List (Nat × Datum)} {batch : List (List (Nat × Datum))}
  {written : Written} {meeting : Option Meeting}

theorem key_of_changeRow {row changed : Row} {changes : List (Nat × Datum)}
    (h : t.changeRow row changes = .ok (next, changed)) :
    ∃ n, changed.cell t.schema.keyIndex = .int n := by
  rw [(of_changeRow h).1]
  obtain ⟨_, hkey, _⟩ := Except.of_bind_ok h
  unfold Schema.checkKey at hkey
  split at hkey
  next n hn => exact ⟨n, hn⟩
  next => cases hkey

theorem Whole.placed (h : t.Whole) {row : Row} {rows : List Row}
    (hrow : row.length = t.schema.cells.length) (hrows : ∀ other ∈ rows, other ∈ t.rows)
    (hschema : next.schema = t.schema) (hplaced : next.rows = t.place rows row) : next.Whole := by
  refine ⟨hschema ▸ h.key, fun other hother => ?_⟩
  rw [hschema]
  rw [hplaced] at hother
  rcases mem_place.mp hother with rfl | hother
  · exact hrow
  · exact h.width other (hrows other hother)

theorem Whole.of_addRow (h : t.Whole) (hadd : t.addRow given meeting = .ok (next, written)) :
    next.Whole ∧ next.schema = t.schema ∧ written.Moves t.rows next.rows ∧
      written.Brings t.schema meeting (t.schema.newRow given) := by
  have hschema' := schema_of_addRow hadd
  obtain ⟨noted, row, hkeyed, hcases⟩ := addRow_cases hadd
  have hlength := length_newRow t.schema given
  obtain ⟨hschema, hrows⟩ := of_keyed hkeyed
  obtain ⟨hwidth, hint, hcell⟩ := keyed_row hkeyed (hlength ▸ h.key)
  -- a row that meets a stored one is dropped or changes it, any other is placed by its key
  rcases hcases with ⟨m, hm, stored, hfound, hdone⟩ | ⟨_, _, rfl, rfl⟩
  · have hstored := List.mem_of_find?_eq_some hfound
    rcases hdone with ⟨hempty, rfl, rfl⟩ | ⟨hne, changed, rfl, hchange⟩
    · refine ⟨⟨hschema ▸ h.key, ?_⟩, hschema', hrows, m, hm, hempty⟩
      rw [hrows, hschema]
      exact h.width
    · have hkey := key_of_changeRow hchange
      obtain ⟨hchanged, rfl⟩ := of_changeRow hchange
      have hlong : changed.length = t.schema.cells.length := by
        rw [hchanged, Schema.length_changedRow, h.width stored hstored]
      have hplaced : (noted.replaceRow stored changed).rows =
          t.place (t.rows.erase stored) changed := by
        rw [replaceRow, place, place, hrows, hschema]
      refine ⟨h.placed hlong (fun _ => List.mem_of_mem_erase) hschema' hplaced, hschema',
        ⟨stored, hstored, ?_⟩, m, hm, hne, hschema ▸ hkey, fun i hi hlt hindex => ?_⟩
      · rw [hplaced]
        exact perm_insertSorted changed _
      · rw [hchanged, Schema.cell_changedRow (d := row.cell i) ⟨_, List.mem_map_of_mem hi, rfl⟩ ?_
          (h.width stored hstored ▸ hlt), hcell i (.inl hindex), hschema]
        intro change hmem hsame
        obtain ⟨j, _, rfl⟩ := List.mem_map.mp hmem
        exact congrArg row.cell hsame
  · exact ⟨h.placed (hwidth.trans hlength) (fun _ hmem => hmem) hschema' rfl, hschema',
      perm_insertSorted row t.rows, hint, hcell⟩

theorem Whole.of_addRows (h : t.Whole) (hadds : t.addRows batch meeting = .ok last) :
    ∃ outcomes, Reaches t.rows outcomes last.rows ∧
      List.Forall₂ (fun given written => written.Brings t.schema meeting (t.schema.newRow given))
        batch outcomes := by
  induction batch generalizing t with
  | nil =>
    cases hadds
    exact ⟨[], .done _, .nil⟩
  | cons given batch ih =>
    obtain ⟨next, written, hadd, hrest⟩ := of_addRows_cons hadds
    obtain ⟨hwhole, hschema, hmoves, hbrings⟩ := h.of_addRow hadd
    obtain ⟨outcomes, hreaches, hlater⟩ := ih hwhole hrest
    rw [hschema] at hlater
    exact ⟨written :: outcomes, .step hmoves hreaches, .cons hbrings hlater⟩

end Table

/-- Where rows may meet others, all columns to update are there. -/
theorem Store.update_of_meetingOf {schema : Schema} {columns : List Nat} {conflict : Conflict}
    {meeting : Option Table.Meeting} (h : meetingOf schema columns conflict = .ok meeting)
    {m : Table.Meeting} (hm : m ∈ meeting) :
    conflict.update.mapM schema.writtenColumn = .ok m.update := by
  obtain ⟨k, _, ⟨_, _, rfl⟩ | ⟨update, hupdate, rfl⟩⟩ := meetingOf_cases h
  · cases hm
  · cases hm
    exact hupdate

/-- The name that counts for a cell is one of the row's own, with null under it. -/
def Record.GivesNull (s : Schema) (names : List String) (row : Record) (i : Nat) : Prop :=
  ∃ name ∈ row.keys, s.source? names i = some name ∧ row.value name = .null

namespace Entity

variable {e : Entity} {moment : Moment} {rows : List Record} {unique update : List String}
  {session after : Session} {count : Nat} {t : Table} {s : Schema} {i : Nat}

theorem Timed.value_eq_null_iff {row timed : Record} (h : Timed moment row timed) {name : String}
    (hmem : name ∈ timed.keys) :
    timed.value name = .null ↔ name ∈ row.keys ∧ row.value name = .null := by
  rcases h name with ⟨hown, _, hvalue⟩ | ⟨hnone, hnow⟩
  · rw [hvalue, and_iff_right hown]
  · rw [hnow hmem]
    simp [hnone]

/-- The columns that an upsert writes, those of its first row with its times. -/
def upsertColumns (e : Entity) (moment : Moment) (rows : List Record) : List String :=
  ((rows.map (e.withMissingTimes moment)).head?.map OrderedMap.keys).getD []

/-- A row as an upsert brings it. -/
def broughtRow (e : Entity) (s : Schema) (moment : Moment) (rows : List Record) (row : Record) :
    Row :=
  s.rowOf (e.upsertColumns moment rows) (e.withMissingTimes moment row)

/-- The columns of an upsert are columns of its table, those to update too where rows may meet
others, and its rows have them all. -/
structure Resolved (e : Entity) (s : Schema) (moment : Moment) (rows : List Record)
    (update : List String) (meeting : Option Table.Meeting) : Prop where
  columns : ∀ column ∈ e.upsertColumns moment rows, ∃ i, s.writtenColumn column = .ok i
  same : ∀ row ∈ rows, ∀ column ∈ e.upsertColumns moment rows,
    column ∈ (e.withMissingTimes moment row).keys
  update : ∀ m ∈ meeting, (e.conflictColumns update).mapM s.writtenColumn = .ok m.update

theorem reaches_of_upsert (ht : session.store.table e.table = .ok t) (hordered : t.Ordered)
    (hlogs : ¬ session.store.Logs t.schema.name e.table)
    (h : (e.upsert moment rows unique update).exec session = (.ok count, after)) :
    ∃ t' outcomes meeting, after.store.table e.table = .ok t' ∧
      Table.Reaches t.rows outcomes t'.rows ∧ e.Resolved t.schema moment rows update meeting ∧
      List.Forall₂ (fun row written => Table.Written.Brings t.schema meeting
        (e.broughtRow t.schema moment rows row) written) rows outcomes := by
  rcases of_upsert h with ⟨rfl, hstore⟩ | ⟨first, rest, hrows, hall, result, hinsert⟩
  · refine ⟨t, [], none, hstore ▸ ht, .done _, ⟨?_, ?_, ?_⟩, .nil⟩
    · simp [upsertColumns]
    · simp
    · simp
  · obtain ⟨columns, meeting, between, hcolumns, hmeeting, hfold, schemas, hafter⟩ :=
      Store.of_insert hinsert ht
    obtain ⟨t', hadds, _, htables, _⟩ := Store.of_insertRows ht hlogs hfold
    obtain ⟨outcomes, hreaches, hbrings⟩ := hordered.whole.of_addRows hadds
    have hnames : e.upsertColumns moment rows = first.keys := by
      simp [upsertColumns, hrows]
    have ht' : after.store.table e.table = .ok t' := by
      rw [Store.table_eq_ok, hafter]
      exact (htables e.table (.inl hlogs)).trans (if_pos (Text.sameName_refl _))
    refine ⟨t', outcomes, meeting, ht', hreaches, ⟨?_, ?_, fun m => ?_⟩, ?_⟩
    · rw [hnames]
      intro column hcolumn
      obtain ⟨i, _, hi⟩ := (Except.of_mapM_ok hcolumns).1 column hcolumn
      exact ⟨i, hi⟩
    · rw [hnames]
      intro row hrow
      exact hall _ (hrows ▸ List.mem_map_of_mem hrow)
    · exact Store.update_of_meetingOf hmeeting
    · rw [← hrows, List.map_map, List.map_map, List.forall₂_map_left_iff] at hbrings
      refine hbrings.imp fun row written hwritten => ?_
      rw [broughtRow, hnames, ← Schema.newRow_of_zip hcolumns]
      exact hwritten

theorem mem_keys_withMissingTimes (htimes : e.timestamps = true) (row : Record) {column : String} :
    column ∈ (e.withMissingTimes moment row).keys ↔
      column ∈ row.keys ∨ column ∈ [createdAt, updatedAt] := by
  rw [keys_withMissingTimes, writtenNames, if_pos htimes, List.mem_append, List.mem_filter,
    decide_eq_true_iff]
  tauto

theorem updatedAt_mem_conflictColumns (htimes : e.timestamps = true) (h : update ≠ []) :
    updatedAt ∈ e.conflictColumns update := by
  rw [mem_conflictColumns, overwrites, if_pos ⟨htimes, h⟩]
  exact List.mem_append_right update List.mem_cons_self

theorem mem_upsertColumns (htimes : e.timestamps = true) {row : Record} (hrow : row ∈ rows)
    {time : String} (htime : time ∈ [createdAt, updatedAt]) :
    time ∈ e.upsertColumns moment rows := by
  obtain ⟨first, rest, rfl⟩ := List.exists_cons_of_ne_nil (List.ne_nil_of_mem hrow)
  exact (mem_keys_withMissingTimes htimes first).mpr (.inr htime)

/-- The time of a change is among what is to be updated, if anything is. -/
theorem Resolved.updates {meeting : Option Table.Meeting} {m : Table.Meeting}
    (h : e.Resolved s moment rows update meeting) (htimes : e.timestamps = true)
    (hm : m ∈ meeting) (hupdate : update ≠ []) (hi : s.writtenColumn updatedAt = .ok i) :
    i ∈ m.update := by
  rw [← Schema.indices_of_mapM (h.update m hm)]
  exact Schema.mem_indices.mpr ⟨updatedAt, updatedAt_mem_conflictColumns htimes hupdate, hi⟩

/-- A brought cell is null exactly where the row gives null for it. -/
theorem Resolved.brought_null_iff {meeting : Option Table.Meeting} {row : Record} {column : String}
    (h : e.Resolved s moment rows update meeting) (hkey : s.keyIndex < s.cells.length)
    (hrow : row ∈ rows) (hcolumn : column ∈ e.upsertColumns moment rows)
    (hi : s.writtenColumn column = .ok i) :
    (e.broughtRow s moment rows row).cell i = .null ↔
      row.GivesNull s (e.upsertColumns moment rows) i := by
  obtain ⟨name, hname⟩ := Schema.exists_source? ⟨column, hcolumn, hi⟩
  obtain ⟨hmem, _⟩ := Schema.mem_of_source? hname
  obtain ⟨_, hindex⟩ := Schema.index?_of_writtenColumn hi
  rw [broughtRow, Schema.cell_rowOf hname (Schema.index?_lt hkey hindex),
    Schema.storedAt_eq_null_iff, Datum.ofValue_eq_null_iff,
    (e.timed_withMissingTimes moment row).value_eq_null_iff (h.same row hrow name hmem)]
  constructor
  · rintro ⟨hown, hnull⟩
    exact ⟨name, hown, hname, hnull⟩
  · rintro ⟨other, hown, hother, hnull⟩
    rw [hname] at hother
    cases hother
    exact ⟨hown, hnull⟩

/-- What a successful creation from an input has added to a table. -/
def Makes (e : Entity) (s : Schema) (moment : Moment) (input : Record) (made : Row) : Prop :=
  ∃ (session after : Session) (found : Record) (t t' : Table),
    session.store.table e.table = .ok t ∧ t.schema = s ∧ t.Ordered ∧
    (e.create moment input).exec session = (.ok found, after) ∧
    after.store.table e.table = .ok t' ∧ t'.rows.Perm (made :: t.rows)

theorem Makes.takes {input : Record} {made : Row} (h : e.Makes s moment input made) :
    s.Takes (e.completed moment input).keys (e.completed moment input) made := by
  obtain ⟨session, after, found, t, t', ht, rfl, hordered, hcreate, ht', hperm⟩ := h
  obtain ⟨columns, next, row, hcolumns, hadd, _, schemas, hafter⟩ :=
    of_createRow ht (Run.of_logged hcreate)
  obtain ⟨stored, hcompletes, hadded⟩ := Table.completes_of_addRow hordered.schema.lt hadd
  rw [Schema.newRow_of_zip hcolumns] at hcompletes
  have hnext : after.store.table e.table = .ok next := by
    rw [hafter]
    exact Store.table_setTable ht (Table.schema_of_addRow hadd)
  rw [hnext] at ht'
  cases ht'
  -- one row more than before, whichever way it is told
  have hsame : stored = made := by
    have hboth := Multiset.coe_eq_coe.mpr (hadded.symm.trans hperm)
    rw [← Multiset.cons_coe, ← Multiset.cons_coe] at hboth
    exact (Multiset.cons_inj_left _).mp hboth
  exact hsame ▸ Schema.takes_of_completes hordered.schema.lt hcompletes

theorem time_unique {time other : String} (htime : time ∈ [createdAt, updatedAt])
    (hother : other ∈ [createdAt, updatedAt]) (hi : s.writtenColumn time = .ok i)
    (hi' : s.writtenColumn other = .ok i) : other = time := by
  have hplain : ∀ name ∈ [createdAt, updatedAt], Schema.isKeyName name = false := by decide
  have hapart : ∀ a ∈ [createdAt, updatedAt], ∀ b ∈ [createdAt, updatedAt],
      Text.sameName a b = true → a = b := by decide
  exact hapart other hother time htime (Schema.sameName_of_columnIndex?_eq
    (Schema.columnIndex?_of_writtenColumn (hplain other hother) hi')
    (Schema.columnIndex?_of_writtenColumn (hplain time htime) hi))

section

variable {row : Record} {time : String} (htimes : e.timestamps = true)
  (htime : time ∈ [createdAt, updatedAt]) (hi : s.writtenColumn time = .ok i)
  (hown : ∀ name ∈ row.keys, s.writtenColumn name = .ok i → name = time)

include htimes htime hi hown

/-- A created row has a time as given or, missing or null, the time of the write. -/
theorem Makes.cell_time {made : Row} (h : e.Makes s moment row made)
    (hkey : s.writtenColumn e.primaryKey ≠ .ok i) :
    made.cell i = s.storedAt i (.ofValue
      (if (row.value time).isNull then .text moment.now else row.value time)) ∧
    made.cell i ≠ .null := by
  have hvalue : (e.completed moment row).value time =
      if (row.value time).isNull then .text moment.now else row.value time :=
    value_completed_time htimes htime fun hsame => hkey (hsame ▸ hi)
  have hgiven : (e.completed moment row).value time ≠ .null := by
    rw [hvalue]
    split
    next => simp
    next hgiven => exact Value.isNull_eq_false.mp (by simpa using hgiven)
  have hmem : time ∈ (e.completed moment row).keys :=
    Record.mem_keys_of_value (Value.isNull_eq_false.mpr hgiven)
  have hsource : s.source? (e.completed moment row).keys i = some time := by
    refine Schema.source?_eq (fun other hother hwritten => ?_) hmem hi
    rcases mem_keys_completed hother with hother | rfl | hother
    · exact hown other hother hwritten
    · exact absurd hwritten hkey
    · exact time_unique htime hother hi hwritten
  have hcell := h.takes time hmem i hi hsource
  rw [if_neg fun hnull => hgiven hnull.2] at hcell
  rw [hcell, ← hvalue]
  exact ⟨rfl, Schema.storedAt_ne_null (Datum.ofValue_ne_null hgiven)⟩

/-- An upsert brings a time as given or, missing, the time of the write. -/
theorem Resolved.brought_time {meeting : Option Table.Meeting}
    (h : e.Resolved s moment rows update meeting) (hlt : s.keyIndex < s.cells.length)
    (hrow : row ∈ rows) (hgiven : ¬ row.GivesNull s (e.upsertColumns moment rows) i) :
    (e.broughtRow s moment rows row).cell i = s.storedAt i (.ofValue
      (if (row.value time).isNull then .text moment.now else row.value time)) := by
  have hmem : time ∈ e.upsertColumns moment rows := mem_upsertColumns htimes hrow htime
  have hsource : s.source? (e.upsertColumns moment rows) i = some time := by
    refine Schema.source?_eq (fun other hother hwritten => ?_) hmem hi
    rcases (mem_keys_withMissingTimes htimes row).mp (h.same row hrow other hother) with hmem | hmem
    · exact hown other hmem hwritten
    · exact time_unique htime hmem hi hwritten
  obtain ⟨_, hindex⟩ := Schema.index?_of_writtenColumn hi
  rw [broughtRow, Schema.cell_rowOf hsource (Schema.index?_lt hlt hindex)]
  congr 2
  rcases e.timed_withMissingTimes moment row time with ⟨hthere, _, hvalue⟩ | ⟨hnone, hnow⟩
  · have hnull : (row.value time).isNull = false := by
      refine Value.isNull_eq_false.mpr fun hnull => ?_
      exact hgiven ⟨time, hthere, hsource, hnull⟩
    rw [hvalue, hnull]
    rfl
  · have hnull : (row.value time).isNull = true := by
      by_contra hvalue
      exact hnone (Record.mem_keys_of_value (by simpa using hvalue))
    rw [hnow (h.same row hrow time hmem), hnull]
    rfl

end

/-- The times of what has become of a row. One is null in an added row where the row gives null for
it, and else as a creation of the row makes it; a changed row has a null time of change under the
same condition. The key of the store is never null, and rows are dropped where nothing is to be
updated. -/
def Fills (e : Entity) (s : Schema) (moment : Moment) (names update : List String)
    (row : Record) : Table.Written → Prop
  | .added stored => ∀ time ∈ [createdAt, updatedAt], ∃ i, s.writtenColumn time = .ok i ∧
      (stored.cell i = .null ↔ i ≠ s.keyIndex ∧ row.GivesNull s names i) ∧
      (i ≠ s.keyIndex → s.writtenColumn e.primaryKey ≠ .ok i →
        (∀ name ∈ row.keys, s.writtenColumn name = .ok i → name = time) →
        ∀ made, e.Makes s moment row made →
          (stored.cell i = made.cell i ↔ ¬ row.GivesNull s names i))
  | .changed stored => update ≠ [] ∧ ∃ i, s.writtenColumn updatedAt = .ok i ∧
      (stored.cell i = .null ↔ i ≠ s.keyIndex ∧ row.GivesNull s names i)
  | .dropped => update = []

theorem Resolved.fills {meeting : Option Table.Meeting} {row : Record} {written : Table.Written}
    (h : e.Resolved s moment rows update meeting) (htimes : e.timestamps = true)
    (hlt : s.keyIndex < s.cells.length) (hrow : row ∈ rows)
    (hbrings : written.Brings s meeting (e.broughtRow s moment rows row)) :
    e.Fills s moment (e.upsertColumns moment rows) update row written := by
  cases written with
  | added stored =>
    obtain ⟨⟨n, hn⟩, hkept⟩ := hbrings
    intro time htime
    have hmem : time ∈ e.upsertColumns moment rows := mem_upsertColumns htimes hrow htime
    obtain ⟨i, hi⟩ := h.columns time hmem
    have hnull := h.brought_null_iff hlt hrow hmem hi
    -- the store gives an integer key to the row, even where a time is the key
    have hiff : stored.cell i = .null ↔
        i ≠ s.keyIndex ∧ row.GivesNull s (e.upsertColumns moment rows) i := by
      by_cases hindex : i = s.keyIndex
      · simp [hindex, hn]
      · rw [hkept i (.inl hindex), hnull, and_iff_right hindex]
    refine ⟨i, hi, hiff, fun hindex hkey hown made hmade => ?_⟩
    obtain ⟨hcell, hfilled⟩ := hmade.cell_time htimes htime hi hown hkey
    by_cases hgiven : row.GivesNull s (e.upsertColumns moment rows) i
    · rw [hiff.mpr ⟨hindex, hgiven⟩]
      exact iff_of_false (Ne.symm hfilled) (not_not_intro hgiven)
    · rw [hkept i (.inl hindex), hcell, h.brought_time htimes htime hi hown hlt hrow hgiven]
      exact iff_of_true rfl hgiven
  | changed stored =>
    obtain ⟨m, hm, hne, ⟨n, hn⟩, hchanged⟩ := hbrings
    have hupdate : update ≠ [] := by
      rintro rfl
      refine hne ((Schema.indices_of_mapM (h.update m hm)).symm.trans ?_)
      simp [conflictColumns, Schema.indices]
    have hmem : updatedAt ∈ e.upsertColumns moment rows := mem_upsertColumns htimes hrow (by simp)
    obtain ⟨i, hi⟩ := h.columns updatedAt hmem
    have hmeets := h.updates htimes hm hupdate hi
    obtain ⟨_, hindex⟩ := Schema.index?_of_writtenColumn hi
    refine ⟨hupdate, i, hi, ?_⟩
    by_cases hkey : i = s.keyIndex
    · simp [hkey, hn]
    · rw [hchanged i hmeets (Schema.index?_lt hlt hindex) hkey, Schema.storedAt_eq_null_iff,
        h.brought_null_iff hlt hrow hmem hi, and_iff_right hkey]
  | dropped =>
    -- the time of change is updated along with anything else
    obtain ⟨m, hm, hempty⟩ := hbrings
    obtain ⟨i, hi⟩ := h.columns updatedAt (mem_upsertColumns htimes hrow (by simp))
    by_contra hupdate
    have hmeets := h.updates htimes hm hupdate hi
    rw [hempty] at hmeets
    cases hmeets

/-- A successful upsert of an entity that keeps times leaves a time null in an added row, and the
time of change in a changed one, exactly where a row gives null for it: only what is missing is
filled. Where null is not given, an added row has the times that a creation of the row gives it. -/
theorem upsert_fills_times_unless_null (htimes : e.timestamps = true)
    (ht : session.store.table e.table = .ok t) (hordered : t.Ordered)
    (hlogs : ¬ session.store.Logs t.schema.name e.table)
    (h : (e.upsert moment rows unique update).exec session = (.ok count, after)) :
    ∃ t' outcomes, after.store.table e.table = .ok t' ∧
      Table.Reaches t.rows outcomes t'.rows ∧
      List.Forall₂ (e.Fills t.schema moment (e.upsertColumns moment rows) update) rows outcomes := by
  obtain ⟨t', outcomes, meeting, ht', hreaches, hresolved, hbrings⟩ :=
    reaches_of_upsert ht hordered hlogs h
  have hboth := (List.forall₂_and_left rows outcomes).mpr ⟨fun _ hrow => hrow, hbrings⟩
  exact ⟨t', outcomes, ht', hreaches, hboth.imp fun _ _ hwritten =>
    hresolved.fills htimes hordered.schema.lt hwritten.1 hwritten.2⟩

end Entity

namespace Shop

/-- A customer in store without a time of creation, and a new one who is given none. -/
def timedCustomers : List Record :=
  [.ofList [("id", .int 1), ("name", .text "b"), ("created_at", .text "then")],
   .ofList [("id", .int 2), ("name", .text "c"), ("created_at", .null)]]

theorem upsert_fills_two_customers :
    ∃ count after t' outcomes, (customers.upsert ⟨"now", ""⟩ timedCustomers ["id"] ["name"]).exec
        { store := oneCustomer } = (.ok count, after) ∧
      after.store.table "customers" = .ok t' ∧
      Table.Reaches customerTable.rows outcomes t'.rows ∧
      List.Forall₂ (customers.Fills customerSchema ⟨"now", ""⟩
        ["id", "name", "created_at", "updated_at"] ["name"]) timedCustomers outcomes ∧
      t'.rows =
        [[.int 1, .text "b", .text "k", .int 1, .null, .null, .null, .null, .text "now"],
         [.int 2, .text "c", .null, .int 1, .null, .null, .null, .null, .text "now"]] := by
  have hrows : (((customers.upsert ⟨"now", ""⟩ timedCustomers ["id"] ["name"]).exec
      { store := oneCustomer }).2.store.table? "customers").map Table.rows = some
        [[.int 1, .text "b", .text "k", .int 1, .null, .null, .null, .null, .text "now"],
         [.int 2, .text "c", .null, .int 1, .null, .null, .null, .null, .text "now"]] := by
    decide +kernel
  have hupserted : ((customers.upsert ⟨"now", ""⟩ timedCustomers ["id"] ["name"]).exec
      { store := oneCustomer }).1.toOption.isSome = true := by
    decide +kernel
  have hcolumns : customers.upsertColumns ⟨"now", ""⟩ timedCustomers =
      ["id", "name", "created_at", "updated_at"] := by
    decide +kernel
  rcases hrun : (customers.upsert ⟨"now", ""⟩ timedCustomers ["id"] ["name"]).exec
      { store := oneCustomer } with ⟨fault | count, after⟩
  · rw [hrun] at hupserted
    cases hupserted
  · obtain ⟨t', outcomes, ht', hreaches, hfills⟩ :=
      Entity.upsert_fills_times_unless_null (t := customerTable) rfl
        (Except.of_toOption (by decide +kernel)) (by decide +kernel) (by decide) hrun
    have htable : after.store.table? "customers" = some t' := Store.table_eq_ok.mp ht'
    rw [hrun, htable, Option.map_some, Option.some.injEq] at hrows
    rw [hcolumns] at hfills
    exact ⟨count, after, t', outcomes, rfl, ht', hreaches, hfills, hrows⟩

/-- A new customer who is given null for the time of creation. -/
def nullTime : Record :=
  .ofList [("name", .text "a"), ("created_at", .null)]

/-- The customers once a run has ended. -/
def customersAfter {α : Type} (run : Run α) : Option (List Row) :=
  ((run.exec { store := emptyStore }).2.store.table? "customers").map Table.rows

/-- A creation fills a time that is null. An upsert stores the null, and takes it over the time of
change of a customer in store. -/
theorem upsert_stores_null_times :
    customersAfter (customers.create ⟨"now", ""⟩ nullTime) = some
      [[.int 1, .text "a", .null, .int 1, .null, .null, .null, .text "now", .text "now"]] ∧
    customersAfter (customers.upsert ⟨"now", ""⟩ [nullTime] ["id"] []) = some
      [[.int 1, .text "a", .null, .int 1, .null, .null, .null, .null, .text "now"]] ∧
    customersAfter (do
      let _ ← customers.create ⟨"now", ""⟩ nullTime
      customers.upsert ⟨"now", ""⟩
        [.ofList [("id", .int 1), ("name", .text "b"), ("updated_at", .null)]] ["id"] ["name"]) =
      some [[.int 1, .text "b", .null, .int 1, .null, .null, .null, .text "now", .null]] := by
  decide +kernel

end Shop

end TableQuery
