import TableQuery.Proofs.AddedRows
import TableQuery.Proofs.CreatedRow
import TableQuery.Proofs.EqualRows
import TableQuery.Proofs.InsertedTogether
import TableQuery.Proofs.KeptValues
import TableQuery.Proofs.UpdateEffect
import TableQuery.Shop

namespace TableQuery

open Sql

namespace Table

variable {t : Table} {row : Row} {name : String} {p : Nat}

/-- A value that no other row collides with is had by its row alone. -/
theorem equals_alone (hp : t.schema.Declares name p)
    (hkept : ∀ other ∈ t.rows, t.schema.storedAt p (other.cell p) = other.cell p)
    (hown : t.schema.storedAt p (row.cell p) = row.cell p) (hnull : row.cell p ≠ .null)
    (hnew : ∀ other ∈ t.rows, Schema.collides [p] row other = false) {v : Value}
    (hv : Datum.ofValue v = row.cell p) :
    t.Equals name v row = true ∧ ∀ other ∈ t.rows, t.Equals name v other = false := by
  have hlt := hp.lt_cells
  have hstore : ∀ d, t.schema.storedAt p d = (t.schema.cells[p]).affinity.store d := by
    intro d
    rw [Schema.storedAt, List.getElem?_eq_getElem hlt]
  have hequals : ∀ other, t.Equals name v other = true ↔
      Cell.compare .eq (t.cellOf name other) (.ofValue v) = some true := by
    intro other
    cases v with
    | null => exact absurd hv.symm hnull
    | _ => exact decide_eq_true_iff
  refine ⟨(hequals row).mpr (compare_own hp hown hnull hv), fun other hother => ?_⟩
  rw [← Bool.not_eq_true, hequals, cellOf_declared hp, List.getElem?_eq_getElem hlt]
  intro hequal
  have hkept' := hkept other hother
  rw [hstore] at hkept' hown
  -- equal cells have one sort key, and so the rows would collide
  obtain ⟨hother', hkey⟩ := Cell.sortKey_of_equal hkept' hequal
  rw [hv, Affinity.comparing_kept hown] at hkey
  have hmeet := Schema.collides_one_iff.mpr ⟨hnull, hother', hkey.symm⟩
  rw [hnew other hother] at hmeet
  cases hmeet

end Table

namespace Entity

variable {e : Entity} {moment : Moment} {input found : Record} {store : Store}
  {session after : Session} {t noted : Table} {row : Row} {p : Nat}

/-- A store with the table of an entity as writes leave it: its rows are in order, the column of the
key is unique, and where it holds the key of the rows it is one of integers without a default; keys
are counted from nothing. -/
structure Ready (e : Entity) (store : Store) (t : Table) (p : Nat) : Prop extends
    e.Tabled store t p where
  ordered : t.Ordered
  unique : ∃ unique ∈ t.schema.uniques, unique.columns.mapM t.schema.index? = some [p]
  integer : p = t.schema.keyIndex → ∀ column ∈ t.schema.cells[p]?,
    column.affinity = .integer ∧ column.absent = .null
  absent : ∀ column ∈ t.schema.cells[p]?, column.absent.Fits
  begun : 0 ≤ t.lastKey
  key_timeless : ∀ time ∈ [createdAt, updatedAt], Text.sameName e.primaryKey time = false

theorem Tabled.names_key (h : e.Tabled store t p) : t.Names [e.primaryKey] := by
  intro name hmem
  rw [List.mem_singleton.mp hmem, h.key.index?_eq]
  exact ⟨h.plain_key, rfl⟩

namespace Ready

section

variable (h : e.Ready store t p)
  (hkeyed : t.keyed (e.newRow t.schema moment input) = .ok (noted, row))

include h

theorem counted_of_keyIndex (hindex : p = t.schema.keyIndex) :
    t.schema.counted.isSome = true := by
  have hlt := h.key.lt
  cases hcounted : t.schema.counted with
  | some name => rfl
  | none =>
    have hlength : t.schema.keyIndex = t.schema.columns.length := by
      simp [Schema.keyIndex, hcounted]
    omega

/-- The cell of the key of a new row is what its column makes of a value or of the default. -/
theorem cell_newRow (moment : Moment) (input : Record) : ∃ d : Datum, d.Fits ∧
    (e.newRow t.schema moment input).cell p = t.schema.storedAt p d := by
  have hlt := h.key.lt_cells
  cases hsource : t.schema.source? (e.completed moment input).keys p with
  | some name =>
    exact ⟨_, Record.value_fits _ name, Schema.cell_rowOf hsource hlt _⟩
  | none =>
    have hcolumn := List.getElem?_eq_getElem hlt
    refine ⟨_, h.absent _ hcolumn, ?_⟩
    rw [newRow, Schema.cell_rowOf_absent hsource hcolumn, Schema.storedAt, hcolumn]

include hkeyed

theorem completes : t.schema.Completes (e.newRow t.schema moment input) row := by
  obtain ⟨_, hint, hkept⟩ := keyed_newRow h.ordered hkeyed
  exact ⟨hint, hkept⟩

theorem takes : t.schema.Takes (e.completed moment input).keys (e.completed moment input) row :=
  Schema.takes_of_completes h.ordered.schema.lt (h.completes hkeyed)

/-- The key that a row gets where it brings none. -/
theorem key_of_null (hindex : p = t.schema.keyIndex)
    (hnull : (e.newRow t.schema moment input).cell p = .null) :
    ∃ n, row.cell p = .int n ∧ t.lastKey < n ∧ n ≤ maxInt64 ∧
      ∀ other ∈ t.rows, ∃ m, other.cell p = .int m ∧ m < n := by
  subst hindex
  have hlength := length_newRow e t.schema moment input
  obtain ⟨n, hn, hcell⟩ :=
    Table.keyed_of_null hkeyed hnull (hlength ▸ h.ordered.schema.lt)
  obtain ⟨hgreatest, hlast, hmost⟩ := Table.of_nextKey hn
  refine ⟨n, hcell, hlast (h.counted_of_keyIndex rfl), hmost, fun other hother => ?_⟩
  obtain ⟨m, hm, hle⟩ := h.ordered.le_greatestKey hother
  exact ⟨m, hm, by omega⟩

/-- The key of a new row is as its column keeps it. -/
theorem key_kept : t.schema.storedAt p (row.cell p) = row.cell p ∧ (row.cell p).Fits := by
  have hlt := h.key.lt_cells
  have hcolumn := List.getElem?_eq_getElem hlt
  obtain ⟨d, hd, hcell⟩ := h.cell_newRow moment input
  obtain ⟨hint, hkept⟩ := h.completes hkeyed
  -- the key is counted for the row, or it is what its column keeps of a value
  by_cases hnull : p = t.schema.keyIndex ∧ (e.newRow t.schema moment input).cell p = .null
  · obtain ⟨n, hn, hlast, hmost, _⟩ := h.key_of_null hkeyed hnull.1 hnull.2
    have hbegun := h.begun
    rw [hn, Schema.storedAt, hcolumn]
    dsimp only
    rw [(h.integer hnull.1 _ hcolumn).1]
    refine ⟨rfl, fun m hm => ?_⟩
    cases hm
    have hleast : minInt64 ≤ 0 := by decide
    apply isInt64_iff.mpr
    omega
  · have hsame : row.cell p = t.schema.storedAt p d := by
      rw [← hcell]
      refine hkept p ?_
      by_cases hindex : p = t.schema.keyIndex
      · exact .inr fun hcell => hnull ⟨hindex, hcell⟩
      · exact .inl hindex
    rw [hsame]
    refine ⟨t.schema.storedAt_storedAt p hd, ?_⟩
    rw [Schema.storedAt, hcolumn]
    exact (t.schema.cells[p]).affinity.store_fits hd

end

end Ready

/-- What a created row is and where it stands: the table has gained it and nothing else has changed,
it comes back as it is stored and is found by its key, it has the values of the input, a key of its
own and its times. Of several names for one column one counts. -/
structure Created (e : Entity) (moment : Moment) (input : Record) (t : Table) (p : Nat)
    (before : Store) (after : Session) (found : Record) (row : Row) : Prop where
  record : found = t.recordOf row
  gained : ∃ t', after.store.table e.table = .ok t' ∧ t'.schema = t.schema ∧
    t'.rows.Perm (row :: t.rows)
  others : ∀ name, Text.sameName e.table name = false →
    after.store.table? name = before.table? name
  rest : after.store.watches = before.watches ∧ after.store.clock = before.clock
  again : (∀ bytes, row.cell p ≠ .blob bytes) → ∃ events,
    (e.find (found.value e.primaryKey)).exec after =
      (.ok (some found), { after with events := events })
  values : ∀ column ∈ input.keys, e.Passes input column → ∃ i,
    t.schema.writtenColumn column = .ok i ∧
      (t.schema.source? (e.completed moment input).keys i = some column →
        if i = t.schema.keyIndex ∧ input.value column = .null then ∃ n, row.cell i = .int n
        else row.cell i = t.schema.storedAt i (.ofValue (input.value column)))
  key : row.cell p ≠ .null ∧ ∀ other ∈ t.rows, Schema.collides [p] row other = false
  counted : e.keyKind = .counted → p = t.schema.keyIndex →
    (∀ column ∈ input.keys, t.schema.writtenColumn column = .ok p → input.value column = .null) →
      ∃ n, row.cell p = .int n ∧ t.lastKey < n ∧
        ∀ other ∈ t.rows, ∃ m, other.cell p = .int m ∧ m < n
  fresh : e.keyKind = .fresh → (input.value e.primaryKey).isNull = true →
    t.schema.source? (e.completed moment input).keys p = some e.primaryKey →
      row.cell p = t.schema.storedAt p (.text moment.freshKey)
  times : e.timestamps = true → ∀ time ∈ [createdAt, updatedAt], ∃ i,
    t.schema.writtenColumn time = .ok i ∧
      (t.schema.source? (e.completed moment input).keys i = some time →
        row.cell i ≠ .null ∧ row.cell i = t.schema.storedAt i (.ofValue
          (if (input.value time).isNull then .text moment.now else input.value time)))

theorem Ready.ne_time (h : e.Ready store t p) : e.primaryKey ∉ [createdAt, updatedAt] := by
  obtain ⟨hcreated, hupdated⟩ := ne_times h.key_timeless
  simp [hcreated, hupdated]

section

variable (h : e.Ready store t p)
  (hkeyed : t.keyed (e.newRow t.schema moment input) = .ok (noted, row))
  (hwritten : ∀ column ∈ (e.completed moment input).keys, ∃ i,
    t.schema.writtenColumn column = .ok i)

include h hkeyed

theorem Ready.counted_key (hkind : e.keyKind = .counted) (hindex : p = t.schema.keyIndex)
    (hnone : ∀ column ∈ input.keys, t.schema.writtenColumn column = .ok p →
      input.value column = .null) :
    ∃ n, row.cell p = .int n ∧ t.lastKey < n ∧
      ∀ other ∈ t.rows, ∃ m, other.cell p = .int m ∧ m < n := by
  have hlt := h.key.lt_cells
  have hcolumn := List.getElem?_eq_getElem hlt
  have hnull : (e.newRow t.schema moment input).cell p = .null := by
    cases hsource : t.schema.source? (e.completed moment input).keys p with
    | none =>
      rw [newRow, Schema.cell_rowOf_absent hsource hcolumn, (h.integer hindex _ hcolumn).2,
        Affinity.store_null]
    | some other =>
      obtain ⟨hmem, hother⟩ := Schema.mem_of_source? hsource
      have hapart : other ∉ [createdAt, updatedAt] := fun htime =>
        writtenColumn_time h.key h.key_timeless htime hother
      have hvalue : (e.completed moment input).value other = .null := by
        obtain ⟨hcreated, hupdated⟩ := ne_times h.key_timeless
        have hinput : other ∈ input.keys → input.value other = .null := fun hmem =>
          hnone other hmem hother
        by_cases hname : other = e.primaryKey
        · have hnull : (input.value other).isNull = true := by
            by_contra hgiven
            rw [Bool.not_eq_true] at hgiven
            rw [hinput (Record.mem_keys_of_value hgiven)] at hgiven
            cases hgiven
          -- a null key is left out
          rw [hname, OrderedMap.mem_keys_iff,
            key_completed_counted hkind hcreated hupdated (hname ▸ hnull)] at hmem
          cases hmem
        · have hget : (e.completed moment input).get? other = input.get? other :=
            get?_completed (fun h => hapart (by simp [h])) (fun h => hapart (by simp [h]))
              fun h => absurd h hname
          rw [OrderedMap.mem_keys_iff, hget, ← OrderedMap.mem_keys_iff] at hmem
          rw [Record.value_congr hget, hinput hmem]
      rw [newRow, Schema.cell_rowOf hsource hlt, hvalue, Datum.ofValue, Schema.storedAt, hcolumn]
      exact Affinity.store_null _
  obtain ⟨n, hn, hlast, _, hless⟩ := h.key_of_null hkeyed hindex hnull
  exact ⟨n, hn, hlast, hless⟩

theorem Ready.fresh_key (hkind : e.keyKind = .fresh)
    (hnull : (input.value e.primaryKey).isNull = true)
    (hsource : t.schema.source? (e.completed moment input).keys p = some e.primaryKey) :
    row.cell p = t.schema.storedAt p (.text moment.freshKey) := by
  obtain ⟨hmem, hown⟩ := Schema.mem_of_source? hsource
  obtain ⟨hcreated, hupdated⟩ := ne_times h.key_timeless
  have hvalue : (e.completed moment input).value e.primaryKey = .text moment.freshKey :=
    value_completed_fresh hkind hcreated hupdated hnull
  have htakes := h.takes hkeyed e.primaryKey hmem p hown hsource
  rw [hvalue, if_neg fun hnull => by cases hnull.2] at htakes
  exact htakes

include hwritten

theorem Ready.created_values {column : String} (hcolumn : column ∈ input.keys)
    (hpasses : e.Passes input column) : ∃ i,
    t.schema.writtenColumn column = .ok i ∧
      (t.schema.source? (e.completed moment input).keys i = some column →
        if i = t.schema.keyIndex ∧ input.value column = .null then ∃ n, row.cell i = .int n
        else row.cell i = t.schema.storedAt i (.ofValue (input.value column))) := by
  have hget : (e.completed moment input).get? column = input.get? column :=
    hpasses.get?_completed
  have hmem : column ∈ (e.completed moment input).keys := by
    rwa [OrderedMap.mem_keys_iff, hget, ← OrderedMap.mem_keys_iff]
  obtain ⟨i, hi⟩ := hwritten column hmem
  refine ⟨i, hi, fun hsource => ?_⟩
  have htakes := h.takes hkeyed column hmem i hi hsource
  rwa [Record.value_congr hget] at htakes

theorem Ready.created_time (htimestamps : e.timestamps = true) {time : String}
    (htime : time ∈ [createdAt, updatedAt]) : ∃ i,
    t.schema.writtenColumn time = .ok i ∧
      (t.schema.source? (e.completed moment input).keys i = some time →
        row.cell i ≠ .null ∧ row.cell i = t.schema.storedAt i (.ofValue
          (if (input.value time).isNull then .text moment.now else input.value time))) := by
  have hvalue : (e.completed moment input).value time =
      if (input.value time).isNull then .text moment.now else input.value time :=
    value_completed_time htimestamps htime fun hname => h.ne_time (hname ▸ htime)
  have hgiven : (e.completed moment input).value time ≠ .null := by
    rw [hvalue]
    split
    next => simp
    next hgiven => exact Value.isNull_eq_false.mp (by simpa using hgiven)
  obtain ⟨i, hi⟩ := hwritten time (Record.mem_keys_of_value (Value.isNull_eq_false.mpr hgiven))
  refine ⟨i, hi, fun hsource => ?_⟩
  have htakes := h.takes hkeyed time (Schema.mem_of_source? hsource).1 i hi hsource
  rw [if_neg fun hnull => hgiven hnull.2] at htakes
  rw [htakes, ← hvalue]
  exact ⟨Schema.storedAt_ne_null (Datum.ofValue_ne_null hgiven), rfl⟩

end

/-- The row that a table has gained is found by its key. -/
theorem Ready.find_created (hready : e.Ready session.store t p)
    (hkeyed : t.keyed (e.newRow t.schema moment input) = .ok (noted, row))
    (hnew : ∀ other ∈ t.rows, Schema.collides [p] row other = false)
    (hkey : ((t.cellOf e.primaryKey row).value).isNull = false)
    (hbytes : ∀ bytes, row.cell p ≠ .blob bytes) {next : Table}
    (hread : next.readRow row = .ok found) (hkept : e.Kept after.store next)
    (hschema : next.schema = t.schema)
    (hrows : next.rows = t.place t.rows row) :
    ∃ events, (e.find (t.cellOf e.primaryKey row).value).exec after =
      (.ok (some found), { after with events := events }) := by
  obtain ⟨hown, hfits⟩ := hready.key_kept hkeyed
  have hcell : (t.cellOf e.primaryKey row).value = Value.ofJson (row.cell p).toJson := by
    rw [Table.cellOf_declared hready.key]
    rfl
  have hvalue : Datum.ofValue (t.cellOf e.primaryKey row).value = row.cell p := by
    rw [hcell] at hkey ⊢
    exact Datum.ofValue_ofJson hfits hbytes hkey
  have hnull : row.cell p ≠ .null := by
    intro hnull
    rw [hcell, hnull] at hkey
    cases hkey
  obtain ⟨hself, hothers⟩ :=
    Table.equals_alone hready.key hready.kept hown hnull hnew hvalue
  have hnames : next.Names [e.primaryKey] := by
    intro name hmem
    rw [hschema]
    exact hready.names_key name hmem
  obtain ⟨events, hfind⟩ := exec_find hkept hnames (t.cellOf e.primaryKey row).value
  refine ⟨events, hfind.trans ?_⟩
  have halone : (t.place t.rows row).filter
      (t.Equals e.primaryKey (t.cellOf e.primaryKey row).value) = [row] :=
    filter_insertSorted_alone hself
      (List.filter_eq_nil_iff.mpr fun other hmem => by simp [hothers other hmem])
  rw [Table.equals_congr hschema, hrows, halone, List.head?_cons, Option.mapM_some, hread]
  rfl

/-- A row that is created with a key comes back as it is stored, and so it is found by its key. -/
theorem create_effect (hready : e.Ready session.store t p)
    (hrun : (e.create moment input).exec session = (.ok found, after))
    (hkey : (found.value e.primaryKey).isNull = false) :
    ∃ row, e.Created moment input t p session.store after found row := by
  obtain ⟨columns, next, row, hcolumns, hadd, hread, schemas, hafter⟩ :=
    of_createRow hready.own (Run.of_logged hrun)
  obtain rfl := (Table.readRow_eq_ok_iff.mp hread).2
  obtain ⟨noted, added, hkeyed, hrequired, hunique, hnext, hrow⟩ := Table.of_addRow_none hadd
  cases hrow
  have hordered := hready.ordered.added hkeyed hunique
  rw [← hnext] at hordered
  have hschema : next.schema = t.schema := Table.schema_of_addRow hadd
  have hrows : next.rows = t.place t.rows row := by
    rw [hnext]
  rw [Schema.newRow_of_zip hcolumns] at hkeyed
  have hwritten : ∀ column ∈ (e.completed moment input).keys, ∃ i,
      t.schema.writtenColumn column = .ok i := fun column hmem => by
    obtain ⟨i, _, hi⟩ := (Except.of_mapM_ok hcolumns).1 column hmem
    exact ⟨i, hi⟩
  have hset := hready.named.sameSchemas_setTable hready.own hschema
  have htables := Store.table?_setTable_of (Store.table_eq_ok.mp hready.own) hschema
  have htable : after.store.table e.table = .ok next := by
    rw [hafter]
    exact Store.table_setTable hready.own hschema
  have hkept : e.Kept after.store next := by
    refine ⟨hready.plain, htable, ?_, hschema ▸ hready.narrow, fun _ => hordered.wide⟩
    refine hready.named.readable?_eq ?_ hready.read htable hschema
    rw [hafter]
    exact hset.trans (.noteWritten _ schemas)
  have hvalue : (next.recordOf row).value e.primaryKey = (t.cellOf e.primaryKey row).value := by
    rw [Table.value_recordOf (hschema ▸ hready.key)
      (hordered.wide (hrows ▸ Table.mem_place.mpr (.inl rfl))), Table.cellOf_congr hschema]
  rw [hvalue] at hkey
  obtain ⟨unique, hmem, hindex⟩ := hready.unique
  have hnew := Schema.of_checkUniques hunique hmem hindex
  have hnull : row.cell p ≠ .null := by
    intro hnull
    rw [Table.cellOf_declared hready.key, Cell.value, hnull] at hkey
    cases hkey
  exact ⟨row,
    { record := Table.recordOf_congr hschema row
      gained := ⟨next, htable, hschema, hrows ▸ perm_insertSorted row t.rows⟩
      others := fun name hname => by
        rw [hafter]
        exact (htables name).trans (by rw [hname, if_neg Bool.false_ne_true])
      rest := by
        rw [hafter]
        exact ⟨rfl, rfl⟩
      again := fun hbytes => by
        rw [hvalue]
        exact hready.find_created hkeyed hnew hkey hbytes hread hkept hschema hrows
      values := fun column => hready.created_values hkeyed hwritten
      key := ⟨hnull, hnew⟩
      counted := hready.counted_key hkeyed
      fresh := hready.fresh_key hkeyed
      times := fun htimestamps time => hready.created_time hkeyed hwritten htimestamps }⟩

end Entity

namespace Shop

theorem ready_oneCustomer : customers.Ready oneCustomer customerTable 0 where
  toTabled := by decide +kernel
  ordered := by decide +kernel
  unique := by decide +kernel
  integer := fun _ => by decide +kernel
  absent := by
    intro column hcolumn n hn
    cases hcolumn
    cases hn
  begun := by decide
  key_timeless := by decide +kernel

/-- A customer with a key of null and one of the times. -/
def laterCustomer : Record :=
  .ofList [("created_at", .text "then"), ("id", .null), ("name", .text "y")]

theorem create_later_customer :
    ∃ found after, ∃ row : Row, (customers.create ⟨"now", ""⟩ laterCustomer).exec
        { store := oneCustomer } = (.ok found, after) ∧
      (∃ events, (customers.find (found.value "id")).exec after =
        (.ok (some found), { after with events := events })) ∧
      (∃ n, row.cell 0 = .int n ∧ 1 < n) ∧ row.cell 1 = .text "y" ∧
      row.cell 7 = .text "then" ∧ row.cell 8 = .text "now" := by
  have hcreated : ((customers.create ⟨"now", ""⟩ laterCustomer).exec
      { store := oneCustomer }).1.toOption.any (fun found => !(found.value "id").isNull) =
        true := by
    decide +kernel
  obtain ⟨found, after, hrun, hkey⟩ := Run.exists_of_any hcreated
  rw [Bool.not_eq_true'] at hkey
  obtain ⟨row, hrow⟩ := Entity.create_effect ready_oneCustomer hrun hkey
  have hcolumns : customerTable.schema.Declares "name" 1 ∧
      customerTable.schema.Declares "created_at" 7 ∧
      customerTable.schema.Declares "updated_at" 8 := by
    decide +kernel
  have hunkeyed : ∀ column ∈ laterCustomer.keys,
      (customerSchema.writtenColumn column).toOption = some 0 →
        laterCustomer.value column = .null := by
    decide +kernel
  obtain ⟨n, hn, _, hless⟩ := hrow.counted rfl (by decide +kernel) fun column hmem hcolumn =>
    hunkeyed column hmem (congrArg Except.toOption hcolumn)
  obtain ⟨m, hm, hlt⟩ := hless _ List.mem_cons_self
  cases hm
  refine ⟨found, after, row, hrun, hrow.again (by simp [hn]), ⟨n, hn, hlt⟩, ?_, ?_, ?_⟩
  · obtain ⟨i, hi, hcell⟩ := hrow.values "name" (by decide +kernel) (by decide +kernel)
    obtain rfl := hcolumns.1.eq_of_writtenColumn hi
    have hname := hcell (by decide +kernel)
    rw [if_neg (by decide +kernel)] at hname
    rw [hname]
    decide +kernel
  · obtain ⟨i, hi, hcell⟩ := hrow.times rfl "created_at" (by decide +kernel)
    obtain rfl := hcolumns.2.1.eq_of_writtenColumn hi
    rw [(hcell (by decide +kernel)).2]
    decide +kernel
  · obtain ⟨i, hi, hcell⟩ := hrow.times rfl "updated_at" (by decide +kernel)
    obtain rfl := hcolumns.2.2.eq_of_writtenColumn hi
    rw [(hcell (by decide +kernel)).2]
    decide +kernel

def capitalTime : Record :=
  .ofList [("name", .text "a"), ("CREATED_AT", .null)]

def firstTeam : Record :=
  .ofList [("name", .text "a")]

/-- The key of a team that is created after the first team has got the key 2 and is deleted. -/
def keyAfterDelete : Run Value := do
  let first ← teams.create ⟨"now", ""⟩ firstTeam
  let moved ← teams.update ⟨"now", ""⟩ first (.ofList [("id", .int 2)])
  let _ ← teams.delete [moved.value "id"]
  let next ← teams.create ⟨"now", ""⟩ firstTeam
  pure (next.value "id")

/-- Assets that are told by their data. -/
def assetsByData : Entity where
  table := "assets"
  primaryKey := "data"
  keyKind := .given

/-- Whether the key of a created asset is null, and whether there is an asset with it. -/
def foundByData : Run (Bool × Bool) := do
  let made ← assetsByData.create ⟨"now", ""⟩ firstTeam
  let found ← assetsByData.find (made.value "data")
  pure ((made.value "data").isNull, found.isSome)

/-- Customers that are told by the time of their creation, which is not unique. -/
def customersByTime : Entity where
  table := "customers"
  primaryKey := "created_at"
  timestamps := true

/-- The second of two customers of one time, and the customer that is found by its time. -/
def foundByTime : Run (Value × Option Value) := do
  let _ ← customersByTime.create ⟨"now", ""⟩ firstTeam
  let second ← customersByTime.create ⟨"now", ""⟩ firstTeam
  let found ← customersByTime.find (second.value "created_at")
  pure (second.value "id", found.map fun row => row.value "id")

/-- A time that is named in capitals stays null, a key that an update has given is given again,
bytes are not found again, the first of two rows is found by a key that is not unique, and the keys
that are given are counted in a table. -/
theorem created_without_time :
    ((customers.create ⟨"now", ""⟩ capitalTime).exec { store := emptyStore }).1.toOption.map
      (fun found => (found.value "id", found.value "created_at", found.value "updated_at")) =
        some (.int 1, .null, .text "now") ∧
    (keyAfterDelete.exec { store := emptyStore }).1.toOption = some (.int 2) ∧
    (foundByData.exec { store := emptyStore }).1.toOption = some (false, false) ∧
    (foundByTime.exec { store := emptyStore }).1.toOption = some (.int 2, some (.int 1)) ∧
    ((teams.create ⟨"now", ""⟩ firstTeam).exec { store := emptyStore }).2.store.keyTable.rows ≠
      emptyStore.keyTable.rows := by
  decide +kernel

end Shop

end TableQuery
