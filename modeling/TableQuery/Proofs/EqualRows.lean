import TableQuery.Proofs.DeletedRows
import TableQuery.Proofs.FirstMatch
import TableQuery.Proofs.KeptReferences
import TableQuery.Proofs.TerminalRows
import TableQuery.Repository.Write

namespace TableQuery

open Sql

/-- A store loses the rows of a table that meet a test, and nothing else changes. -/
structure Store.Loses (store store' : Store) (name : String) (t : Table) (test : Row → Bool) :
    Prop where
  own : store'.table? name = some (t.without test)
  others : ∀ other, Text.sameName name other = false → store'.table? other = store.table? other
  rest : store'.watches = store.watches ∧ store'.written = store.written ∧
    store'.clock = store.clock

/-- A deletion gives the number of the rows that meet a test and takes them and nothing else. Where
it would leave a row without those that it refers to, it is refused, and nothing changes. -/
structure Run.Deletes (run : Run Nat) (session : Session) (name : String) (t : Table)
    (test : Row → Bool) : Prop where
  done : ¬ session.store.Strands t test → ∃ store events, run.exec session =
    (.ok (t.rows.filter test).length, ⟨store, events⟩) ∧ session.store.Loses store name t test
  refused : session.store.Strands t test → ∃ events, run.exec session =
    (.error (.storage .foreignKey), { session with events := events })

/-- A store has the table of an entity, which is read by the name that it is written by. -/
structure Entity.Kept (e : Entity) (store : Store) (t : Table) : Prop where
  plain : IsPlain e.table
  own : store.table e.table = .ok t
  read : store.readable? none e.table = some t
  narrow : t.schema.columns.length ≤ Store.limits.columns
  wide : ∀ row ∈ t.rows, t.schema.columns.length ≤ row.length

instance (e : Entity) (store : Store) (t : Table) : Decidable (e.Kept store t) :=
  decidable_of_iff (_ ∧ store.table? e.table = some t ∧ _ ∧ _ ∧ _)
    ⟨fun h => ⟨h.1, Store.table_eq_ok.mpr h.2.1, h.2.2.1, h.2.2.2.1, h.2.2.2.2⟩,
      fun h => ⟨h.plain, Store.table_eq_ok.mp h.own, h.read, h.narrow, h.wide⟩⟩

theorem Table.without_of_none {t : Table} {test : Row → Bool}
    (h : ∀ row ∈ t.rows, test row = false) : t.without test = t := by
  have hrows : t.rows.filter (fun row => !test row) = t.rows :=
    List.filter_eq_self.mpr fun row hmem => by simp [h row hmem]
  simp [Table.without, hrows]

theorem Store.loses_setTable {store : Store} {name : String} {t : Table}
    (ht : store.table name = .ok t) (test : Row → Bool) :
    store.Loses (store.setTable (t.without test)) name t test := by
  have hschema : (t.without test).schema = t.schema := rfl
  have htable := table?_setTable_of (table_eq_ok.mp ht) hschema
  refine ⟨?_, fun other hother => ?_, rfl, rfl, rfl⟩
  · rw [htable name, if_pos (Text.sameName_refl name)]
  · rw [htable other, hother]
    rfl

theorem Store.loses_none {store : Store} {name : String} {t : Table} (ht : store.table name = .ok t)
    {test : Row → Bool} (h : ∀ row ∈ t.rows, test row = false) :
    store.Loses store name t test :=
  ⟨by rw [Table.without_of_none h, table_eq_ok.mp ht], fun _ _ => rfl, rfl, rfl, rfl⟩

/-- Rows are asked for by what is said, however often it is said. -/
theorem Table.agrees_congr {t : Table} {pairs pairs' : List (String × Value)}
    (h : ∀ pair, pair ∈ pairs ↔ pair ∈ pairs') : t.Agrees pairs = t.Agrees pairs' := by
  funext row
  rw [Bool.eq_iff_iff, Agrees, Agrees, List.all_eq_true, List.all_eq_true]
  exact forall_congr' fun pair => imp_congr_left (h pair)

theorem Table.among_congr {t : Table} {name : String} {ids ids' : List Value}
    (h : ∀ id, id ∈ ids ↔ id ∈ ids') : t.Among name ids = t.Among name ids' := by
  funext row
  rw [Bool.eq_iff_iff, Among, Among, List.any_eq_true, List.any_eq_true]
  exact exists_congr fun id => and_congr_left fun _ => h id

/-- The first of some rows is read without the others. -/
theorem Table.head?_readRow (t : Table) (rows : List Row) :
    ((Store.window (some 1) none rows).mapM t.readRow).map List.head? =
      rows.head?.mapM t.readRow := by
  cases rows with
  | nil => rfl
  | cons row rows =>
    change (List.mapM t.readRow [row]).map List.head? = (t.readRow row).map some
    rw [List.mapM_cons, List.mapM_nil]
    cases t.readRow row <;> rfl

namespace Entity

variable {e : Entity} {session : Session} {t : Table} {test : Row → Bool}

section

variable {pairs : List (String × Value)}

theorem valid_of_names (hnames : t.Names (pairs.map Prod.fst)) :
    ∀ pair ∈ pairs, Identifier.valid pair.1 = true := fun _ hmem =>
  IsPlainColumn.valid (.inl (hnames _ (List.mem_map_of_mem hmem)).1)

/-- The rows with some values are read in the order of the table. -/
theorem select_equalClauses (hkept : e.Kept session.store t)
    (hnames : t.Names (pairs.map Prod.fst)) (limit : Option Int) :
    session.store.select
        (Query.toSelect { entity := e, criteria := equalClauses pairs, limit := limit }) =
      if pairs.length < Expr.greatestHeight then
        (Store.window limit none (t.rows.filter (t.Agrees pairs))).mapM t.readRow
      else .error .statement := by
  have hselect := Store.select_rows hkept.plain hkept.read hkept.narrow hkept.wide
    (equalClauses pairs) limit none
  rw [Store.rowTest_equalClauses _ hnames] at hselect
  refine Eq.trans hselect ?_
  split <;> rfl

theorem exec_findBy (session : Session) (hkept : e.Kept session.store t)
    (hnames : t.Names (pairs.map Prod.fst)) :
    ∃ events, (e.findBy pairs []).exec session =
      ((if pairs.length < Expr.greatestHeight then (t.rows.filter (t.Agrees pairs)).mapM t.readRow
        else .error .statement).mapError .storage, { session with events := events }) := by
  obtain ⟨events, hfetch⟩ :=
    Query.exec_fetchAll { entity := e, criteria := equalClauses pairs } session
  refine ⟨events, ?_⟩
  unfold findBy
  rw [Run.exec_bind, exec_equalTo (valid_of_names hnames)]
  dsimp only
  rw [hfetch, Query.rows_of_no_loads rfl, select_equalClauses hkept hnames none]
  rfl

theorem exec_findOneBy_head (hkept : e.Kept session.store t)
    (hnames : t.Names (pairs.map Prod.fst)) :
    ∃ events, (e.findOneBy pairs []).exec session =
      ((if pairs.length < Expr.greatestHeight then
          (t.rows.filter (t.Agrees pairs)).head?.mapM t.readRow
        else .error .statement).mapError .storage, { session with events := events }) := by
  obtain ⟨events, hfind⟩ := exec_findOneBy (e := e) (valid_of_names hnames) session
  have hselect : session.store.select (e.firstBy pairs) = _ :=
    select_equalClauses hkept hnames (some 1)
  refine ⟨events, ?_⟩
  rw [hfind, hselect]
  split
  next => rw [t.head?_readRow]
  next => rfl

end

section

variable {column : String} {value : Value}

theorem names_pair (hname : t.Names [column]) (value : Value) :
    t.Names ([(column, value)].map Prod.fst) :=
  hname

theorem exec_hasRow (hkept : e.Kept session.store t) (hname : t.Names [column]) :
    ∃ events, (e.hasRow column value).exec session =
      (.ok !(t.rows.filter (t.Agrees [(column, value)])).isEmpty,
        { session with events := events }) := by
  obtain ⟨hplain, hown⟩ := hname column List.mem_cons_self
  obtain ⟨expr, hsimple, hheight, htest⟩ := Store.prepareTest_equal session.store
    (Table.Leads.of_name hplain hown) value
  have hgreatest : Expr.greatestHeight = 1000 := rfl
  have hfits : Store.sourceFits false (some expr) [] = true := by
    rw [Store.sourceFits_alone hsimple.inner, decide_eq_true_iff]
    omega
  have hany := Store.anyRow_rows hkept.plain hkept.read hkept.narrow htest hfits
  rw [if_pos (Store.sourceFits_nested hsimple.inner (by omega))] at hany
  have hagrees : ∀ row, (some expr).all (fun expr => session.store.holds
      ⟨[(t.schema.name, t.schema)], []⟩ expr [row]) = t.Agrees [(column, value)] row :=
    Store.all_holds_equalClauses (names_pair hname value) htest
  have hempty : (t.rows.any fun row => (some expr).all fun expr => session.store.holds
      ⟨[(t.schema.name, t.schema)], []⟩ expr [row]) =
        !(t.rows.filter (t.Agrees [(column, value)])).isEmpty := by
    simp only [hagrees]
    rw [Bool.eq_iff_iff]
    simp
  obtain ⟨events, hexec⟩ := Query.exec_anyRow
    { entity := e, criteria := equalClauses [(column, value)] } session
  refine ⟨events, ?_⟩
  unfold hasRow
  rw [Run.exec_bind, exec_equalTo (valid_of_names (names_pair hname value))]
  dsimp only
  have hsource : session.store.anyRow
      (Query.source { entity := e, criteria := equalClauses [(column, value)] }) = _ := hany
  rw [hexec, hsource, hempty]
  rfl

theorem exec_delete_rows (hkept : e.Kept session.store t) {criteria : Criteria}
    {test : Row → Bool} (htest : session.store.rowTest t criteria = .ok test) :
    (Run.logged .delete (Query.delete { entity := e, criteria := criteria })).Deletes session
      e.table t test := by
  let q : Query := { entity := e, criteria := criteria }
  obtain ⟨events, hexec⟩ := q.exec_delete rfl session
  rw [Store.delete_rows hkept.own, htest, Except.bind] at hexec
  have hiff := Store.checkReferences_without_iff hkept.own test
  constructor
  · intro hkeeps
    rw [hiff.mpr hkeeps] at hexec
    refine ⟨_, events, ?_, Store.loses_setTable hkept.own test⟩
    rw [Run.exec_logged, hexec]
    rfl
  · intro hstrands
    rw [Store.checkReferences_eq_error fun hnone => hiff.mp hnone hstrands] at hexec
    refine ⟨events ++ [.failed .delete], ?_⟩
    rw [Run.exec_logged, hexec]
    rfl

theorem exec_deleteByColumn (hkept : e.Kept session.store t) (hname : t.Names [column]) :
    (e.deleteByColumn column value).Deletes session e.table t (t.Agrees [(column, value)]) := by
  have hone : 1 < Expr.greatestHeight := by decide
  have htest := Store.rowTest_equalClauses session.store (names_pair hname value)
  rw [List.length_singleton, if_pos hone] at htest
  have hexec : (e.deleteByColumn column value).exec session = (Run.logged .delete
      (Query.delete { entity := e, criteria := equalClauses [(column, value)] })).exec session := by
    unfold deleteByColumn
    rw [Run.exec_bind, exec_equalTo (valid_of_names (names_pair hname value))]
  obtain ⟨hdone, hrefused⟩ := exec_delete_rows hkept htest
  exact ⟨hexec ▸ hdone, hexec ▸ hrefused⟩

end

/-- The key of an entity is looked for behind the name of its table. -/
theorem leads_qualifiedKey (hkept : e.Kept session.store t) (hkey : t.Names [e.primaryKey]) :
    t.Leads e.qualifiedKey e.primaryKey := by
  obtain ⟨hplain, hown⟩ := hkey e.primaryKey List.mem_cons_self
  have hcalled : t.schema.isCalled e.table = true := by
    have hfound := List.find?_some hkept.read
    exact (Bool.and_eq_true_iff.mp hfound).1
  exact ⟨hplain, hown, .inr ⟨e.table, hkept.plain, hcalled, rfl⟩⟩

/-- What is found by its key is the first row with it. -/
theorem exec_find (hkept : e.Kept session.store t) (hkey : t.Names [e.primaryKey]) (id : Value) :
    ∃ events, (e.find id).exec session =
      (((t.rows.filter (t.Equals e.primaryKey id)).head?.mapM t.readRow).mapError .storage,
        { session with events := events }) := by
  let q : Query := { entity := e, criteria := [(.and, .compare e.qualifiedKey .eq id)] }
  have hrows : Query.rows { q with limit := some 1 } session.store =
      (Store.window (some 1) none (t.rows.filter (t.Equals e.primaryKey id))).mapM t.readRow := by
    have hselect := Store.select_rows hkept.plain hkept.read hkept.narrow hkept.wide q.criteria
      (some 1) none
    rw [Store.rowTest_equal _ (leads_qualifiedKey hkept hkey)] at hselect
    exact (Query.rows_of_no_loads rfl session.store).trans hselect
  obtain ⟨events, hexec⟩ := q.exec_first session
  rw [hrows, t.head?_readRow] at hexec
  exact ⟨events, hexec⟩

theorem strands_nothing {store : Store} (h : ∀ row ∈ t.rows, test row = false) :
    ¬ store.Strands t test := by
  rintro ⟨_, _, _, _, _, _, _, _, ⟨parent, hparent, hvalues⟩, hgone⟩
  have hnone := h parent hparent
  rw [hgone parent hparent hvalues] at hnone
  cases hnone

theorem exec_delete (hkept : e.Kept session.store t) (hkey : t.Names [e.primaryKey])
    {ids : List Value} (hfew : ids.length ≤ Store.limits.values) :
    (e.delete ids).Deletes session e.table t (t.Among e.primaryKey ids) := by
  by_cases hne : ids = []
  · subst hne
    have hnone : ∀ row ∈ t.rows, t.Among e.primaryKey [] row = false := fun _ _ => rfl
    refine ⟨fun _ => ⟨session.store, session.events, ?_, Store.loses_none hkept.own hnone⟩,
      fun hstrands => absurd hstrands (strands_nothing hnone)⟩
    rw [List.filter_eq_nil_iff.mpr fun row hmem => by simp [hnone row hmem]]
    rfl
  · have htest := Store.rowTest_member session.store (leads_qualifiedKey hkept hkey) hne
    rw [if_pos hfew] at htest
    have hnonempty : ids.isEmpty = false := by simpa using hne
    unfold delete
    rw [hnonempty]
    exact exec_delete_rows hkept htest

theorem exec_delete_many (session : Session) (hkept : e.Kept session.store t)
    (hkey : t.Names [e.primaryKey]) {ids : List Value} (hmany : Store.limits.values < ids.length) :
    ∃ events, (e.delete ids).exec session =
      (.error (.storage .statement), { session with events := events }) := by
  have hne : ids ≠ [] := by
    rintro rfl
    cases hmany
  have htest := Store.rowTest_member session.store (leads_qualifiedKey hkept hkey) hne
  rw [if_neg (Nat.not_le.mpr hmany)] at htest
  let q : Query := { entity := e, criteria := [(.and, .member e.qualifiedKey ids false)] }
  obtain ⟨events, hexec⟩ := q.exec_delete rfl session
  rw [Store.delete_rows hkept.own, htest] at hexec
  refine ⟨events ++ [.failed .delete], ?_⟩
  have hnonempty : ids.isEmpty = false := by simpa using hne
  unfold delete
  rw [hnonempty]
  change (Run.logged .delete q.delete).exec session = _
  rw [Run.exec_logged, hexec]
  rfl

/-- What asks for equal values finds the same rows: those that have all the values, null asking for
no value. They are listed in the order of the table, the first of them is found alone, there is one
if any, and their deletion takes them and nothing else; a deletion by keys takes the rows with one
of the keys, null being none. A conjunction that is too high is refused, and so is a deletion with
more keys than a statement may have, or of rows that others refer to; then nothing changes. -/
theorem equal_rows (session : Session) (hkept : e.Kept session.store t)
    (hkey : t.Names [e.primaryKey]) :
    (∀ pairs : List (String × Value), t.Names (pairs.map Prod.fst) →
      (∃ events, (e.findBy pairs []).exec session =
        ((if pairs.length < Expr.greatestHeight then (t.rows.filter (t.Agrees pairs)).mapM t.readRow
          else .error .statement).mapError .storage, { session with events := events })) ∧
      ∃ events, (e.findOneBy pairs []).exec session =
        ((if pairs.length < Expr.greatestHeight then
            (t.rows.filter (t.Agrees pairs)).head?.mapM t.readRow
          else .error .statement).mapError .storage, { session with events := events })) ∧
    (∀ (column : String) (value : Value), t.Names [column] →
      (∃ events, (e.hasRow column value).exec session =
        (.ok !(t.rows.filter (t.Agrees [(column, value)])).isEmpty,
          { session with events := events })) ∧
      (e.deleteByColumn column value).Deletes session e.table t (t.Agrees [(column, value)])) ∧
    ∀ ids : List Value,
      (ids.length ≤ Store.limits.values →
        (e.delete ids).Deletes session e.table t (t.Among e.primaryKey ids)) ∧
      (Store.limits.values < ids.length →
        ∃ events, (e.delete ids).exec session =
          (.error (.storage .statement), { session with events := events })) :=
  ⟨fun _ hnames => ⟨exec_findBy session hkept hnames, exec_findOneBy_head hkept hnames⟩,
    fun _ _ hname => ⟨exec_hasRow hkept hname, exec_deleteByColumn hkept hname⟩,
    fun _ => ⟨exec_delete hkept hkey, exec_delete_many session hkept hkey⟩⟩

end Entity

namespace Shop

theorem kept_teams : teams.Kept twoTeams teamsOfTwo ∧ teamsOfTwo.Names ["id", "name"] := by
  decide +kernel

theorem key_of_teams : teamsOfTwo.Names [teams.primaryKey] := fun name hmem =>
  kept_teams.2 name (List.mem_cons.mpr (.inl (List.mem_singleton.mp hmem)))

/-- The two teams, the first of which has a customer. -/
def teamedStore : Store where
  tables :=
    [teamsOfTwo,
     { schema := teamedSchema
       rows := [[.int 1, .text "x", .null, .int 1, .int 1, .null, .null, .null, .null]] }]

/-- The first team has its name however often it is said; a thousand times is too often to find it
by, as more keys than a statement may have are too many to delete it by. Nor is it deleted where it
has a customer. -/
theorem name_said_too_often :
    teamsOfTwo.rows.filter (teamsOfTwo.Agrees (List.replicate 1000 ("name", .text "a"))) =
      [[.int 1, .text "a"]] ∧
    ((teams.findBy (List.replicate 1000 ("name", .text "a")) []).exec { store := twoTeams }).1 =
      .error (.storage .statement) ∧
    teamsOfTwo.rows.filter (teamsOfTwo.Among "id" (List.replicate 32767 (.int 1))) =
      [[.int 1, .text "a"]] ∧
    ((teams.delete (List.replicate 32767 (.int 1))).exec { store := twoTeams }).1 =
      .error (.storage .statement) ∧
    ((teams.delete [.int 1]).exec { store := teamedStore }).1 = .error (.storage .foreignKey) ∧
    ((teams.deleteByColumn "name" (.text "a")).exec { store := teamedStore }).1 =
      .error (.storage .foreignKey) := by
  have hname : teamsOfTwo.Names ((List.replicate 1000 ("name", Value.text "a")).map Prod.fst) := by
    intro name hmem
    rw [List.map_replicate] at hmem
    obtain rfl := List.eq_of_mem_replicate hmem
    exact kept_teams.2 "name" (List.mem_cons_of_mem _ List.mem_cons_self)
  have hmany : Store.limits.values < (List.replicate 32767 (Value.int 1)).length := by
    rw [List.length_replicate]
    decide
  obtain ⟨_, hfind⟩ := Entity.exec_findBy { store := twoTeams } kept_teams.1 hname
  obtain ⟨_, hdelete⟩ :=
    Entity.exec_delete_many { store := twoTeams } kept_teams.1 key_of_teams hmany
  have hagrees : teamsOfTwo.Agrees (List.replicate 1000 ("name", .text "a")) =
      teamsOfTwo.Agrees [("name", .text "a")] :=
    Table.agrees_congr fun pair => by
      rw [List.mem_replicate, List.mem_singleton]
      exact and_iff_right (by decide)
  have hamong : teamsOfTwo.Among "id" (List.replicate 32767 (.int 1)) =
      teamsOfTwo.Among "id" [.int 1] :=
    Table.among_congr fun id => by
      rw [List.mem_replicate, List.mem_singleton]
      exact and_iff_right (by decide)
  refine ⟨?_, ?_, ?_, by rw [hdelete], by decide +kernel, by decide +kernel⟩
  · rw [hagrees]
    decide +kernel
  · rw [hfind, List.length_replicate]
    rfl
  · rw [hamong]
    decide +kernel

theorem kept_teamed : teams.Kept teamedStore teamsOfTwo := by
  decide +kernel

/-- The second team is found by its values and deleted by its key, said twice beside the key of
no team and null; the first, with its customer, is not. -/
theorem second_team_found_and_deleted :
    (∃ events, (teams.findBy [("NAME", .text "b"), ("id", .int 2)] []).exec
        { store := teamedStore } =
      (.ok [teamsOfTwo.recordOf [.int 2, .text "b"]], ⟨teamedStore, events⟩)) ∧
    (∃ store events, (teams.delete [.int 2, .null, .int 7, .int 2]).exec { store := teamedStore } =
        (.ok 1, ⟨store, events⟩) ∧
      store.table? "teams" = some { schema := teamSchema, rows := [[.int 1, .text "a"]] }) ∧
    ∃ events, (teams.delete [.int 1]).exec { store := teamedStore } =
      (.error (.storage .foreignKey), ⟨teamedStore, events⟩) := by
  have hnamed : teamsOfTwo.Names ["NAME", "id"] := by
    decide +kernel
  have hrows :
      teamsOfTwo.rows.filter (teamsOfTwo.Agrees [("NAME", .text "b"), ("id", .int 2)]) =
        [[.int 2, .text "b"]] ∧
      (teamsOfTwo.rows.filter (teamsOfTwo.Among "id" [.int 2, .null, .int 7, .int 2])).length = 1 ∧
      teamsOfTwo.without (teamsOfTwo.Among "id" [.int 2, .null, .int 7, .int 2]) =
        { schema := teamSchema, rows := [[.int 1, .text "a"]] } := by
    decide +kernel
  obtain ⟨hfound, hnumber, hleft⟩ := hrows
  have hname : teams.primaryKey = "id" := rfl
  obtain ⟨hread, _, hdelete⟩ :=
    Entity.equal_rows { store := teamedStore } kept_teamed key_of_teams
  obtain ⟨⟨events, hfind⟩, _⟩ := hread [("NAME", .text "b"), ("id", .int 2)] hnamed
  obtain ⟨store, later, hgone, hloses⟩ :=
    ((hdelete [.int 2, .null, .int 7, .int 2]).1 (by decide)).done (by decide +kernel)
  have hrefused := ((hdelete [.int 1]).1 (by decide)).refused (by decide +kernel)
  refine ⟨⟨events, ?_⟩, ⟨store, later, ?_, ?_⟩, hrefused⟩
  · rw [hfind, hfound]
    rfl
  · rw [hgone, hname, hnumber]
  · have hown := hloses.own
    rwa [hname, hleft] at hown

end Shop

end TableQuery
