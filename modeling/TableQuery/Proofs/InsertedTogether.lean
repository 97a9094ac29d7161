import Mathlib.Data.List.Nodup
import TableQuery.Proofs.AddedRows
import TableQuery.Proofs.InsertedBatch
import TableQuery.Proofs.KeptReferences
import TableQuery.Proofs.ReadBack
import TableQuery.Proofs.SameSchemas
import TableQuery.Shop

namespace TableQuery

namespace Schema

/-- No two of the names stand for one column. -/
def NamedOnce (s : Schema) (names : List String) : Prop :=
  ∀ a ∈ names, ∀ b ∈ names, ∀ i, s.writtenColumn a = .ok i → s.writtenColumn b = .ok i → a = b

/-- A stored row has the values of a record in the columns that it names. Of several names for one
column only one counts, and a null that is to be the key gives way to an integer. -/
def Takes (s : Schema) (names : List String) (record : Record) (stored : Row) : Prop :=
  ∀ column ∈ names, ∀ i, s.writtenColumn column = .ok i → s.source? names i = some column →
    if i = s.keyIndex ∧ record.value column = .null then ∃ n, stored.cell i = .int n
    else stored.cell i = s.storedAt i (.ofValue (record.value column))

/-- A stored row has the value of a record in every column that it names. -/
def HasAll (s : Schema) (names : List String) (record : Record) (stored : Row) : Prop :=
  ∀ column ∈ names, ∀ i, s.writtenColumn column = .ok i →
    stored.cell i = s.storedAt i (.ofValue (record.value column))

variable {s : Schema} {names other : List String} {record : Record} {stored : Row}

theorem takes_of_completes (hkey : s.keyIndex < s.cells.length)
    (h : s.Completes (s.rowOf names record) stored) : s.Takes names record stored := by
  intro column _ i hcolumn hsource
  obtain ⟨name, hname⟩ := index?_of_writtenColumn hcolumn
  have hcell := cell_rowOf hsource (index?_lt hkey hname) record
  split
  next hnull =>
    rw [hnull.1]
    exact h.key
  next hgiven =>
    rw [← hcell]
    refine h.kept i ?_
    by_cases hindex : i = s.keyIndex
    · right
      rw [hcell]
      exact storedAt_ne_null (Datum.ofValue_ne_null fun hnull => hgiven ⟨hindex, hnull⟩)
    · exact .inl hindex

theorem NamedOnce.source?_eq_some_iff (h : s.NamedOnce names) {i : Nat} {column : String} :
    s.source? names i = some column ↔ column ∈ names ∧ s.writtenColumn column = .ok i := by
  refine ⟨mem_of_source?, fun ⟨hmem, hcolumn⟩ => ?_⟩
  exact source?_eq (fun name hname hwritten => h name hname column hmem i hwritten hcolumn) hmem
    hcolumn

theorem namedOnce_of_nodup (h : (names.map fun name => (s.writtenColumn name).toOption).Nodup) :
    s.NamedOnce names := by
  intro a ha b hb i hi hj
  refine List.inj_on_of_nodup_map h ha hb ?_
  rw [hi, hj]

/-- Names that stand for a column each may come in any order. -/
theorem NamedOnce.source?_congr (h : s.NamedOnce names)
    (hsame : ∀ name, name ∈ other ↔ name ∈ names) : s.source? other = s.source? names := by
  have hother : s.NamedOnce other := fun a ha b hb => h a ((hsame a).mp ha) b ((hsame b).mp hb)
  funext i
  refine Option.ext fun column => ?_
  rw [hother.source?_eq_some_iff, h.source?_eq_some_iff, hsame]

theorem rowOf_congr (h : s.source? other = s.source? names) (record : Record) :
    s.rowOf other record = s.rowOf names record := by
  rw [rowOf, rowOf, rowBy, rowBy, h]

end Schema

/-- The insert of a record by itself adds what is given for it. -/
structure Record.Adds (s : Schema) (row : Record) (given : List (Nat × Datum)) : Prop where
  insertable : row.Insertable []
  columns : ∀ column ∈ row.keys, ∃ i, s.writtenColumn column = .ok i
  fits : row.keys.length ≤ Store.limits.values
  row : s.newRow given = s.rowOf row.keys row

/-- A row of an insert adds alone what it adds there, where its names count as those of the first
do. -/
theorem Record.Insertable.adds {s : Schema} {first row : Record} {rest : List Record}
    {columns : List Nat} (h : first.Insertable rest)
    (hcolumns : first.keys.mapM s.writtenColumn = .ok columns)
    (hlimit : first.keys.length ≤ Store.limits.values) (hrow : row ∈ first :: rest)
    (hsource : s.source? row.keys = s.source? first.keys) :
    row.Adds s (columns.zip ((first.keys.map row.value).map Datum.ofValue)) where
  insertable := h.alone hrow
  columns column hmem := by
    obtain ⟨i, _, hi⟩ :=
      (Except.of_mapM_ok hcolumns).1 column ((h.sameColumns hrow column).mp hmem)
    exact ⟨i, hi⟩
  fits := (h.sameColumns hrow).perm.length_eq ▸ hlimit
  row := (Schema.newRow_of_zip hcolumns row).trans (Schema.rowOf_congr hsource row).symm

namespace Entity

variable {e : Entity} {session after : Session} {t next last : Table} {row first : Record}
  {rows rest : List Record} {count : Nat}

def insertEach (e : Entity) : List Record → Run Nat
  | [] => pure 0
  | row :: rows => do
    let count ← e.insert [row]
    let others ← e.insertEach rows
    pure (count + others)

/-- A record that can be added is inserted alone where no row is then without one that it refers
to. -/
theorem exec_insert_alone {given : List (Nat × Datum)} {written : Table.Written}
    (ht : session.store.table e.table = .ok t) (h : row.Adds t.schema given)
    (hadd : t.addRow given none = .ok (next, written))
    (hreferences : session.store.checkReferences (session.store.setTable next) = .ok ()) :
    ∃ after, (e.insert [row]).exec session = (.ok 1, after) ∧
      after.store = (session.store.setTable next).noteWritten [t.schema] := by
  obtain ⟨columns, hcolumns⟩ := Except.mapM_ok h.columns
  rw [Table.addRow_congr (h.row.trans (Schema.newRow_of_zip hcolumns row).symm)] at hadd
  obtain ⟨result, hinsert, hcount⟩ :=
    Store.insert_alone ht hcolumns (by simpa using h.fits) hadd hreferences false
  have hexec := exec_insertRows (e := e) h.insertable none session
  rw [show session.store.insert (e.batchInsert row [] none) = _ from hinsert] at hexec
  dsimp only at hexec
  rw [hcount] at hexec
  refine ⟨⟨(session.store.setTable next).noteWritten [t.schema], session.events ++
    [.statement (e.batchInsert row [] none).text]⟩, ?_, rfl⟩
  rw [insert, Run.exec_logged, hexec]

theorem of_exec_insert_alone {given : List (Nat × Datum)}
    (ht : session.store.table e.table = .ok t) (h : row.Adds t.schema given)
    (hexec : (e.insert [row]).exec session = (.ok count, after)) :
    ∃ next written, t.addRow given none = .ok (next, written) ∧ count = 1 ∧
      after.store = (session.store.setTable next).noteWritten [t.schema] := by
  obtain ⟨_, result, hinsert, hcount⟩ := of_insertRows (Run.of_logged hexec)
  obtain ⟨columns, next, hcolumns, _, hadds, _, hafter, hrows⟩ :=
    Store.of_insert_batch ht (by simp) hinsert
  obtain ⟨next', written, hadd, hlast⟩ := Table.of_addRows_cons hadds
  cases hlast
  rw [Table.addRow_congr ((Schema.newRow_of_zip hcolumns row).trans h.row.symm)] at hadd
  exact ⟨next, written, hadd, hcount.trans hrows, hafter⟩

theorem exec_insertEach_cons {between : Session}
    (hone : (e.insert [row]).exec session = (.ok 1, between))
    (hrest : (e.insertEach rows).exec between = (.ok rows.length, after)) :
    (e.insertEach (row :: rows)).exec session = (.ok (row :: rows).length, after) := by
  unfold insertEach
  rw [Run.exec_bind, hone]
  dsimp only
  rw [Run.exec_bind, hrest, List.length_cons, Nat.add_comm]
  rfl

theorem of_exec_insertEach_cons
    (h : (e.insertEach (row :: rows)).exec session = (.ok count, after)) :
    ∃ one others between, (e.insert [row]).exec session = (.ok one, between) ∧
      (e.insertEach rows).exec between = (.ok others, after) ∧ count = one + others := by
  obtain ⟨one, between, hone, hrest⟩ := Run.of_bind_ok h
  obtain ⟨others, after', hothers, hcount⟩ := Run.of_bind_ok hrest
  cases hcount
  exact ⟨one, others, between, hone, hothers, rfl⟩

/-- Records that are added together are inserted one by one where each of them could be. -/
theorem exec_insertEach {store : Store} {base : Table} {given : Record → List (Nat × Datum)}
    (hbase : store.table e.table = .ok base) (hkeeps : store.KeepsBetween base last)
    (hschema : t.schema = base.schema)
    (hrows : ∀ row ∈ base.rows, row ∈ t.rows)
    (hstore : session.store = (store.setTable t).noteWritten [base.schema])
    (hadds : t.addRows (rows.map given) none = .ok last)
    (h : ∀ row ∈ rows, row.Adds base.schema (given row)) :
    ∃ after, (e.insertEach rows).exec session = (.ok rows.length, after) ∧
      after.store = (store.setTable last).noteWritten [base.schema] := by
  induction rows generalizing session t with
  | nil =>
    cases hadds
    exact ⟨session, rfl, hstore⟩
  | cons row rows ih =>
    obtain ⟨next, written, hadd, hrest⟩ := Table.of_addRows_cons hadds
    have hnext := Table.schema_of_addRow hadd
    have ht : session.store.table e.table = .ok t := by
      rw [hstore]
      exact Store.table_setTable hbase hschema
    have hmore := (Table.of_addRow hadd).2
    have hbetween : session.store.checkReferences (session.store.setTable next) = .ok () := by
      rw [hstore]
      change (store.setTable t).checkReferences ((store.setTable t).setTable next) = _
      rw [Store.setTable_setTable hnext]
      exact hkeeps t next hschema (hnext.trans hschema) hrows hmore fun _ =>
        Table.mem_of_addRows hrest
    obtain ⟨between, hone, hbetween⟩ :=
      exec_insert_alone ht (hschema ▸ h row List.mem_cons_self) hadd hbetween
    -- the table was written by the insert before, and this write takes the place of that
    rw [hstore, hschema, Store.setTable_noteWritten_again hnext] at hbetween
    obtain ⟨after, hexec, hafter⟩ := ih (hnext.trans hschema)
      (fun row hrow => hmore row (hrows row hrow)) hbetween hrest
      fun row' hrow => h row' (List.mem_cons_of_mem row hrow)
    exact ⟨after, exec_insertEach_cons hone hexec, hafter⟩

/-- Records that are inserted one by one are added as they are added together. -/
theorem of_exec_insertEach {store : Store} {base : Table} {given : Record → List (Nat × Datum)}
    (hbase : store.table e.table = .ok base) (hschema : t.schema = base.schema)
    (hstore : session.store = (store.setTable t).noteWritten [base.schema])
    (hadds : t.addRows (rows.map given) none = .ok last)
    (h : ∀ row ∈ rows, row.Adds base.schema (given row))
    (hexec : (e.insertEach rows).exec session = (.ok count, after)) :
    count = rows.length ∧ after.store = (store.setTable last).noteWritten [base.schema] := by
  induction rows generalizing session t count with
  | nil =>
    cases hadds
    cases hexec
    exact ⟨rfl, hstore⟩
  | cons row rows ih =>
    obtain ⟨next, written, hadd, hrest⟩ := Table.of_addRows_cons hadds
    have hnext := Table.schema_of_addRow hadd
    have ht : session.store.table e.table = .ok t := by
      rw [hstore]
      exact Store.table_setTable hbase hschema
    obtain ⟨one, others, between, hone, hothers, rfl⟩ := of_exec_insertEach_cons hexec
    obtain ⟨next', written', hadd', rfl, hbetween⟩ :=
      of_exec_insert_alone ht (hschema ▸ h row List.mem_cons_self) hone
    cases hadd.symm.trans hadd'
    rw [hstore, hschema, Store.setTable_noteWritten_again hnext] at hbetween
    obtain ⟨rfl, hafter⟩ := ih (hnext.trans hschema) hbetween hrest
      (fun row' hrow => h row' (List.mem_cons_of_mem row hrow)) hothers
    exact ⟨Nat.add_comm .., hafter⟩

/-- Records one by one leave what they leave together, and can be inserted so where no row of their
table refers to another. -/
theorem insertEach_of_addRows {given : Record → List (Nat × Datum)}
    (ht : session.store.table e.table = .ok t)
    (hadds : t.addRows ((first :: rest).map given) none = .ok last)
    (hreferences : session.store.checkReferences (session.store.setTable last) = .ok ())
    (h : ∀ row ∈ first :: rest, row.Adds t.schema (given row)) :
    (∀ others each, (e.insertEach (first :: rest)).exec session = (.ok others, each) →
      others = (first :: rest).length ∧
        each.store = (session.store.setTable last).noteWritten [t.schema]) ∧
    (session.store.Named →
      (∀ r ∈ t.schema.references, Text.sameName r.table t.schema.name = false) →
      ∃ each, (e.insertEach (first :: rest)).exec session = (.ok (first :: rest).length, each) ∧
        each.store = (session.store.setTable last).noteWritten [t.schema]) := by
  obtain ⟨next, written, hadd, hrest⟩ := Table.of_addRows_cons hadds
  have hnext := Table.schema_of_addRow hadd
  have hfirst := h first List.mem_cons_self
  have hothers := fun row hrow => h row (List.mem_cons_of_mem first hrow)
  constructor
  · intro others each heach
    obtain ⟨_, _, between, hone, hlater, rfl⟩ := of_exec_insertEach_cons heach
    obtain ⟨next', written', hadd', rfl, hbetween⟩ := of_exec_insert_alone ht hfirst hone
    cases hadd.symm.trans hadd'
    obtain ⟨rfl, hstore⟩ := of_exec_insertEach ht hnext hbetween hrest hothers hlater
    exact ⟨Nat.add_comm .., hstore⟩
  · intro hnamed hself
    have halone : ∀ u ∈ session.store.tables,
        Text.sameName u.schema.name t.schema.name = true → u = t := fun _ => hnamed.alone ht
    have hkeeps := Store.keepsBetween_of_check ht (Table.schema_of_addRows hadds) hself halone
      hreferences
    have hmore := (Table.of_addRow hadd).2
    have hfirstKept := hkeeps t next rfl hnext (fun _ hrow => hrow) hmore fun _ =>
      Table.mem_of_addRows hrest
    rw [Store.setTable_self halone] at hfirstKept
    obtain ⟨between, hone, hbetween⟩ := exec_insert_alone ht hfirst hadd hfirstKept
    obtain ⟨each, heach, hstore⟩ :=
      exec_insertEach ht hkeeps hnext hmore hbetween hrest hothers
    exact ⟨each, exec_insertEach_cons hone heach, hstore⟩

/-- What an insert of records under some columns leaves: the table of the entity has one row more
for each, which has its values, and all other tables are as they were. -/
structure Gains (e : Entity) (names : List String) (records : List Record) (t : Table)
    (before after : Store) : Prop where
  own : ∃ t' stored, after.table e.table = .ok t' ∧ t'.schema = t.schema ∧
    List.Forall₂ (t.schema.Takes names) records stored ∧ t'.rows.Perm (stored ++ t.rows)
  others : ∀ name, Text.sameName e.table name = false → after.table? name = before.table? name

theorem gains_of_addRows {columns : List Nat} {records : List Record}
    {names : List String} {before : Store} (ht : before.table e.table = .ok t)
    (hkey : t.schema.keyIndex < t.schema.cells.length)
    (hcolumns : names.mapM t.schema.writtenColumn = .ok columns)
    (h : t.addRows (records.map fun row => columns.zip ((names.map row.value).map Datum.ofValue))
      none = .ok last) :
    e.Gains names records t before ((before.setTable last).noteWritten [t.schema]) := by
  obtain ⟨stored, hstored, hperm⟩ := Table.completes_of_addRows hkey h
  have hschema := Table.schema_of_addRows h
  refine ⟨⟨last, stored, Store.table_setTable ht hschema, hschema, ?_, hperm⟩, fun name hname => ?_⟩
  · rw [List.forall₂_map_left_iff] at hstored
    refine hstored.imp fun record row hrow => Schema.takes_of_completes hkey ?_
    rwa [Schema.newRow_of_zip hcolumns] at hrow
  · have hset := Store.table?_setTable_of (Store.table_eq_ok.mp ht) hschema name
    rw [hname, if_neg Bool.false_ne_true] at hset
    exact hset

/-- An insert is refused where a row has other columns than the first. If it succeeds, the table has
gained one row for each, with its values. Where each column has one name or all rows name the
columns in the same order, inserting the rows one by one leaves the same store if it succeeds, and
it does so long as no row of the table refers to another. -/
theorem insert_keeps_values_with_columns (e : Entity) (first : Record) (rest : List Record)
    (session : Session) :
    ((∃ row ∈ rest, ¬ row.SameColumns first) → ∃ cause, (e.insert (first :: rest)).exec session =
      (.error (.invalid cause), { session with events := session.events ++ [.failed .insert] })) ∧
    ∀ t count after, session.store.table e.table = .ok t →
      t.schema.keyIndex < t.schema.cells.length →
      (e.insert (first :: rest)).exec session = (.ok count, after) →
      (∀ row ∈ rest, row.SameColumns first) ∧ count = (first :: rest).length ∧
      e.Gains first.keys (first :: rest) t session.store after.store ∧
      ((t.schema.NamedOnce first.keys ∨ ∀ row ∈ rest, row.keys = first.keys) →
        (∀ others each, (e.insertEach (first :: rest)).exec session = (.ok others, each) →
          others = count ∧ each.store = after.store) ∧
        (session.store.Named →
          (∀ r ∈ t.schema.references, Text.sameName r.table t.schema.name = false) →
          ∃ each, (e.insertEach (first :: rest)).exec session = (.ok count, each) ∧
            each.store = after.store)) := by
  refine ⟨fun ⟨row, hrow, hapart⟩ => ?_, fun t count after ht hkey hrun => ?_⟩
  · have hnot : ¬ first.Insertable rest := fun h => hapart (h.same row hrow)
    exact (insertRows_refuses_unless hnot none).logged .insert session
  · obtain ⟨hinsertable, result, hinsert, hcount⟩ := of_insertRows (Run.of_logged hrun)
    obtain ⟨columns, last, hcolumns, hlimit, hadds, hreferences, hafter, hrows⟩ :=
      Store.of_insert_batch ht (by simp) hinsert
    rw [List.map_map] at hadds
    rw [hrows, List.length_map] at hcount
    refine ⟨hinsertable.same, hcount, hafter ▸ gains_of_addRows ht hkey hcolumns hadds, ?_⟩
    intro hnames
    have hsource : ∀ row ∈ first :: rest,
        t.schema.source? row.keys = t.schema.source? first.keys := by
      intro row hrow
      rcases hnames with honce | hkeys
      · exact honce.source?_congr (hinsertable.sameColumns hrow)
      · rcases List.mem_cons.mp hrow with rfl | hrow
        · rfl
        · rw [hkeys row hrow]
    have hfits : first.keys.length ≤ Store.limits.values := by
      rw [List.map_cons, List.flatten_cons, List.length_append, List.length_map] at hlimit
      omega
    rw [hcount, hafter]
    exact insertEach_of_addRows ht hadds hreferences fun row hrow =>
      hinsertable.adds hcolumns hfits hrow (hsource row hrow)

end Entity

namespace Shop

def fifthTeam : Record :=
  .ofList [("name", .text "a"), ("id", .int 5)]

/-- The columns of the fifth team in another order. -/
def sixthTeam : Record :=
  .ofList [("id", .int 6), ("name", .text "b")]

def unkeyedTeam : Record :=
  .ofList [("name", .text "c")]

theorem insert_adds_two_teams :
    (∃ after each, (teams.insert [fifthTeam, sixthTeam]).exec { store := emptyStore } =
        (.ok 2, after) ∧
      teams.Gains fifthTeam.keys [fifthTeam, sixthTeam] ⟨teamSchema, [], 0⟩ emptyStore
        after.store ∧
      (teams.insertEach [fifthTeam, sixthTeam]).exec { store := emptyStore } = (.ok 2, each) ∧
      each.store = after.store) ∧
    ∃ cause, (teams.insert [fifthTeam, unkeyedTeam]).exec { store := emptyStore } =
      (.error (.invalid cause), { store := emptyStore, events := [.failed .insert] }) := by
  have hinserted : ((teams.insert [fifthTeam, sixthTeam]).exec
      { store := emptyStore }).1.toOption = some 2 := by
    decide +kernel
  rcases hrun : (teams.insert [fifthTeam, sixthTeam]).exec { store := emptyStore } with
    ⟨result, after⟩
  rw [hrun] at hinserted
  obtain rfl := Except.of_toOption hinserted
  have honce : teamSchema.NamedOnce fifthTeam.keys :=
    Schema.namedOnce_of_nodup (by decide +kernel)
  obtain ⟨_, _, hgains, hone⟩ :=
    (Entity.insert_keeps_values_with_columns teams fifthTeam [sixthTeam] { store := emptyStore }).2
      ⟨teamSchema, [], 0⟩ 2 after (Except.of_toOption (by decide +kernel)) (by decide) hrun
  obtain ⟨each, heach, hsame⟩ := (hone (.inl honce)).2 (by decide +kernel) (by decide)
  refine ⟨⟨after, each, rfl, hgains, heach, hsame⟩, ?_⟩
  have hapart : ¬ unkeyedTeam.SameColumns fifthTeam := by
    intro hsame
    exact absurd ((hsame "id").mpr (by decide +kernel)) (by decide +kernel)
  exact (Entity.insert_keeps_values_with_columns teams fifthTeam [unkeyedTeam]
    { store := emptyStore }).1 ⟨unkeyedTeam, by simp, hapart⟩

def nullKeyedTeam : Record :=
  .ofList [("id", .null), ("name", .text "a")]

def twiceNamedTeam : Record :=
  .ofList [("name", .text "a"), ("NAME", .text "b")]

/-- The insert of one team leaves a row that lacks one of its values. -/
def LosesValue (record : Record) : Prop :=
  ∃ row, ((teams.insert [record]).exec { store := emptyStore }).1 = .ok 1 ∧
    (((teams.insert [record]).exec { store := emptyStore }).2.store.table? "teams").map Table.rows =
      some [row] ∧
    ¬ teamSchema.HasAll record.keys record row

theorem insert_loses_listed_values : LosesValue nullKeyedTeam ∧ LosesValue twiceNamedTeam := by
  constructor
  · refine ⟨[.int 1, .text "a"], Except.of_toOption (by decide +kernel), by decide +kernel, ?_⟩
    intro hall
    have hkey := hall "id" (by decide +kernel) 0 (Except.of_toOption (by decide +kernel))
    exact absurd hkey (by decide +kernel)
  · refine ⟨[.int 1, .text "a"], Except.of_toOption (by decide +kernel), by decide +kernel, ?_⟩
    intro hall
    have hname := hall "NAME" (by decide +kernel) 1 (Except.of_toOption (by decide +kernel))
    exact absurd hname (by decide +kernel)

end Shop

end TableQuery
