import TableQuery.Proofs.InsertedRows
import TableQuery.Proofs.QueryRun
import TableQuery.Repository.Write
import TableQuery.Shop

namespace TableQuery

namespace Store

variable {store store' : Store}

/-- Rows that are given back fail to be read in one way only. -/
def ReadsBack (rows : List (Except StoreFault Record)) : Prop :=
  ∀ fault, .error fault ∈ rows → fault = .unreadable

theorem ReadsBack.append {rows : List (Except StoreFault Record)} (h : ReadsBack rows) (t : Table)
    (row : Row) : ReadsBack (rows ++ [t.readRow row]) := by
  intro fault hmem
  rcases List.mem_append.mp hmem with hmem | hmem
  · exact h fault hmem
  · have hread := List.mem_singleton.mp hmem
    unfold Table.readRow at hread
    split at hread
    next => cases hread
    next => exact Except.error.inj hread

theorem readsBack_insertRow {table : String} {columns : List Nat} {meeting : Option Table.Meeting}
    {values : List Value} {result result' : WriteResult} (hrows : ReadsBack result.rows)
    (h : insertRow table columns meeting (store, result) values = .ok (store', result')) :
    ReadsBack result'.rows := by
  obtain ⟨t, _, h⟩ := Except.of_bind_ok h
  obtain ⟨⟨t', written⟩, _, h⟩ := Except.of_bind_ok h
  cases written with
  | added row =>
    cases h
    exact hrows.append t' row
  | changed row =>
    obtain ⟨_, _, h⟩ := Except.of_bind_ok h
    cases h
    exact hrows.append t' row
  | dropped =>
    cases h
    exact hrows

theorem readsBack_insert {i : Insert} {result : WriteResult}
    (h : store.insert i = .ok (store', result)) : ReadsBack result.rows := by
  obtain ⟨t, ht, _⟩ := Except.of_bind_ok h
  obtain ⟨columns, meeting, between, _, _, hrows, _⟩ := of_insert h ht
  exact Except.of_foldlM_ok (P := fun state : Store × WriteResult => ReadsBack state.2.rows)
    (fun _ _ _ _ hstate hstep => readsBack_insertRow hstate hstep) (by simp [ReadsBack]) hrows

theorem readsBack_update {u : Update} {result : WriteResult}
    (h : store.update u = .ok (store', result)) : ReadsBack result.rows := by
  obtain ⟨t, _, h⟩ := Except.of_bind_ok h
  obtain ⟨changes, _, h⟩ := Except.of_bind_ok h
  obtain ⟨test, _, h⟩ := Except.of_bind_ok h
  obtain ⟨⟨changed, result'⟩, hrows, h⟩ := Except.of_bind_ok h
  obtain ⟨_, _, h⟩ := Except.of_bind_ok h
  cases h
  refine Except.of_foldlM_ok (P := fun state : Store × WriteResult => ReadsBack state.2.rows)
    (fun row _ state state' hstate hstep => ?_) (by simp [ReadsBack]) hrows
  obtain ⟨t, _, hstep⟩ := Except.of_bind_ok hstep
  obtain ⟨⟨t', changed⟩, _, hstep⟩ := Except.of_bind_ok hstep
  obtain ⟨_, _, hstep⟩ := Except.of_bind_ok hstep
  cases hstep
  exact hstate.append t' changed

/-- An insert of one row that cannot collide brings that row back. -/
theorem rows_of_insert {table : String} {columns : List String} {values : List Value}
    {returning : Bool} {result : WriteResult}
    (h : store.insert ⟨table, columns, [values], none, returning⟩ = .ok (store', result)) :
    result.rows ≠ [] := by
  obtain ⟨t, ht, _⟩ := Except.of_bind_ok h
  obtain ⟨_, next, row, _, _, hrows, _⟩ := of_insert_one ht h
  simp [hrows]

theorem rows_of_updateRow {table : String} {changes : List (Nat × Datum)} {row : Row}
    {result result' : WriteResult}
    (h : updateRow table changes (store, result) row = .ok (store', result')) :
    result'.rows ≠ [] := by
  obtain ⟨t, _, h⟩ := Except.of_bind_ok h
  obtain ⟨⟨t', changed⟩, _, h⟩ := Except.of_bind_ok h
  obtain ⟨logged, _, h⟩ := Except.of_bind_ok h
  cases h
  simp

/-- An update that brings no row back has found none to change. -/
theorem of_update_nothing {u : Update} {result : WriteResult}
    (h : store.update u = .ok (store', result)) (hnone : result.rows = []) :
    ∃ t, store.table u.table = .ok t ∧ store' = store.noteWritten (store.logsOf t.schema.name) := by
  obtain ⟨t, ht, h⟩ := Except.of_bind_ok h
  obtain ⟨changes, _, h⟩ := Except.of_bind_ok h
  obtain ⟨test, _, h⟩ := Except.of_bind_ok h
  obtain ⟨⟨changed, result'⟩, hrows, h⟩ := Except.of_bind_ok h
  obtain ⟨_, _, h⟩ := Except.of_bind_ok h
  cases h
  refine ⟨t, ht, ?_⟩
  cases hfound : t.rows.filter test with
  | nil =>
    rw [hfound] at hrows
    cases hrows
    rfl
  | cons row rest =>
    rw [hfound, List.foldlM_cons] at hrows
    obtain ⟨⟨first, firstResult⟩, hfirst, hrest⟩ := Except.of_bind_ok hrows
    -- the first row changed comes back, and those behind it take nothing away
    have hrows' : result.rows ≠ [] := by
      refine Except.of_foldlM_ok (P := fun state : Store × WriteResult => state.2.rows ≠ [])
        (fun row _ state state' _ hstep => ?_) (rows_of_updateRow hfirst) hrest
      exact rows_of_updateRow hstep
    exact absurd hnone hrows'

end Store

namespace Run

variable {α β : Type} {left : Store → QueryError → Store → Prop}

/-- Where an operation fails, the stores before and after it are as wanted. -/
def FailsWith (left : Store → QueryError → Store → Prop) (run : Run α) : Prop :=
  ∀ session error after, run.exec session = (.error error, after) →
    left session.store error after.store

theorem Reads.failsWith (hsame : ∀ store error, left store error store) {run : Run α}
    (h : run.Reads) : run.FailsWith left := by
  intro session error after hfailed
  have hstore := h session
  rw [hfailed] at hstore
  rw [hstore]
  exact hsame _ _

theorem Reads.bind_failsWith (hsame : ∀ store error, left store error store) {x : Run α}
    {f : α → Run β} (hx : x.Reads) (hf : ∀ a, (f a).FailsWith left) :
    (x >>= f).FailsWith left := by
  intro session error after hfailed
  have hstore := hx session
  rw [exec_bind] at hfailed
  rcases hrun : x.exec session with ⟨cause | a, between⟩
  · rw [hrun] at hfailed hstore
    cases hfailed
    rw [hstore]
    exact hsame _ _
  · rw [hrun] at hfailed hstore
    rw [← hstore]
    exact hf a between error after hfailed

/-- A change that succeeds decides with what follows it; one that fails has not happened. -/
theorem failsWith_write_bind (hsame : ∀ store error, left store error store)
    {change : Store → Except StoreFault (Store × α)} {f : α → Run β}
    (hf : ∀ store store' a error after events, change store = .ok (store', a) →
      (f a).exec ⟨store', events⟩ = (.error error, after) → left store error after.store) :
    (write change >>= f).FailsWith left := by
  intro session error after hfailed
  rw [exec_bind, exec_write] at hfailed
  cases hchange : change session.store with
  | error fault =>
    rw [hchange] at hfailed
    cases hfailed
    exact hsame _ _
  | ok changed =>
    obtain ⟨store, a⟩ := changed
    rw [hchange] at hfailed
    exact hf _ _ a _ _ _ hchange hfailed

theorem FailsWith.logged {run : Run α} (h : run.FailsWith left) (operation : Operation) :
    (logged operation run).FailsWith left := by
  intro session error after hfailed
  rw [exec_logged] at hfailed
  split at hfailed
  next => cases hfailed
  next cause between hrun =>
    cases hfailed
    exact h session _ between hrun

theorem FailsWith.bind_pure {run : Run α} (h : run.FailsWith left) (f : α → β) :
    (run >>= fun a => pure (f a)).FailsWith left := by
  intro session error after hfailed
  rw [exec_bind] at hfailed
  split at hfailed
  next => cases hfailed
  next cause between hrun =>
    cases hfailed
    exact h session _ _ hrun

theorem reads_ofInvalid (result : Except InvalidInput α) : (ofInvalid result).Reads := by
  intro session
  rw [exec_ofInvalid]

theorem reads_throw (error : QueryError) : (throw error : Run α).Reads :=
  fun _ => rfl

end Run

namespace Query

theorem reads_runCall (q : Query) (call : QueryStep) : (q.runCall call).Reads := by
  obtain ⟨report, hreport, hshape⟩ := runCall_eq q call
  rw [hshape]
  exact hreport.bind fun _ => Run.reads_ofInvalid _

theorem reads_runCalls (calls : List QueryStep) (q : Query) : (q.runCalls calls).Reads := by
  induction calls generalizing q with
  | nil => exact Run.reads_pure q
  | cons call calls ih => exact (reads_runCall q call).bind ih

theorem reads_fetchAll (q : Query) : q.fetchAll.Reads := by
  intro session
  obtain ⟨events, hexec⟩ := exec_fetchAll q session
  rw [hexec]

end Query

theorem Entity.reads_findOneBy (e : Entity) (pairs : List (String × Value))
    (columns : List String) : (e.findOneBy pairs columns).Reads :=
  (Query.reads_runCalls _ _).bind fun _ =>
    (Query.reads_fetchAll _).bind fun _ => Run.reads_pure _

/-- A call that writes rows of an entity. -/
inductive WriteCall
  | create (input : Record)
  | insert (rows : List Record)
  | update (record input : Record)
  | updateOrCreate (attributes values : Record)
  | upsert (rows : List Record) (unique update : List String)
  | delete (ids : List Value)
  | deleteAll
  | deleteByColumn (column : String) (value : Value)

namespace WriteCall

def run (e : Entity) (moment : Moment) : WriteCall → Run Unit
  | create input => e.create moment input >>= fun _ => pure ()
  | insert rows => e.insert rows >>= fun _ => pure ()
  | update record input => e.update moment record input >>= fun _ => pure ()
  | updateOrCreate attributes values =>
    e.updateOrCreate moment attributes values >>= fun _ => pure ()
  | upsert rows unique overwritten =>
    e.upsert moment rows unique overwritten >>= fun _ => pure ()
  | delete ids => e.delete ids >>= fun _ => pure ()
  | deleteAll => e.deleteAll >>= fun _ => pure ()
  | deleteByColumn column value => e.deleteByColumn column value >>= fun _ => pure ()

/-- The call may look for a row to change. -/
def changes : WriteCall → Bool
  | update _ _ => true
  | updateOrCreate _ _ => true
  | _ => false

/-- The call gives back the row that it has written. -/
def readsBack : WriteCall → Bool
  | create _ => true
  | update _ _ => true
  | updateOrCreate _ _ => true
  | _ => false

end WriteCall

/-- One statement on the table of an entity has taken effect, and the row that it gives back cannot
be read. -/
def Entity.WroteUnread (e : Entity) (before after : Store) : Prop :=
  ∃ result rest, result.rows = .error .unreadable :: rest ∧
    ((∃ i : Insert, i.table = e.table ∧ before.insert i = .ok (after, result)) ∨
      ∃ u : Update, u.table = e.table ∧ before.update u = .ok (after, result))

/-- What a failed write leaves behind: the store as it was; where the row to change is not found,
the store in which the logs of its table count as written; where the row that was written cannot be
read, the store with all that the statement has done. -/
def Entity.Leaves (e : Entity) (call : WriteCall) (before : Store) (error : QueryError)
    (after : Store) : Prop :=
  after = before ∨
    (call.changes = true ∧ ∃ key t, error = .notFound e.table key ∧ before.table e.table = .ok t ∧
      after = before.noteWritten (before.logsOf t.schema.name)) ∨
    (call.readsBack = true ∧ error = .storage .unreadable ∧ e.WroteUnread before after)

namespace Entity

variable (e : Entity) (moment : Moment) {call : WriteCall}

theorem leaves_same (store : Store) (error : QueryError) : e.Leaves call store error store :=
  .inl rfl

/-- After a row is written, only its reading can fail. -/
theorem createRow_failsWith (hback : call.readsBack = true) (input : Record) :
    (e.createRow moment input).FailsWith (e.Leaves call) := by
  refine (Run.reads_ofInvalid _).bind_failsWith e.leaves_same fun columns => ?_
  refine (Run.reads_emit _).bind_failsWith e.leaves_same fun _ => ?_
  refine Run.failsWith_write_bind e.leaves_same
    fun store store' result error after events hinsert hfailed => ?_
  have hrows := Store.rows_of_insert hinsert
  unfold firstRow at hfailed
  split at hfailed
  next => cases hfailed
  next fault rest hread =>
    cases hfailed
    obtain rfl := Store.readsBack_insert hinsert fault (by simp [hread])
    exact .inr (.inr ⟨hback, rfl, result, rest, hread, .inl ⟨_, rfl, hinsert⟩⟩)
  next hnone => exact absurd hnone hrows

theorem insertRows_failsWith (rows : List Record) (conflict : Option Conflict) :
    (e.insertRows rows conflict).FailsWith (e.Leaves call) := by
  unfold insertRows
  split
  next => exact (Run.reads_pure 0).failsWith e.leaves_same
  next =>
    refine (Run.reads_ofInvalid _).bind_failsWith e.leaves_same fun columns => ?_
    have hwritten : ∀ rows : List (List Value), Run.FailsWith (e.Leaves call)
        (Run.emit (.statement (Insert.text ⟨e.table, columns, rows, conflict, false⟩)) >>= fun _ =>
          Run.write (fun store => store.insert ⟨e.table, columns, rows, conflict, false⟩) >>=
            fun result => pure result.count) := by
      intro rows
      refine (Run.reads_emit _).bind_failsWith e.leaves_same fun _ => ?_
      refine Run.failsWith_write_bind e.leaves_same fun _ _ _ _ _ _ _ hfailed => ?_
      cases hfailed
    dsimp only
    split
    next => exact (Run.reads_throw _).failsWith e.leaves_same
    next => exact (Run.reads_ofInvalid _).bind_failsWith e.leaves_same hwritten

/-- After an update fails for a row that is not there, its table's logs count as written; after a
row is changed, only its reading can fail. -/
theorem updateRow_failsWith (hchanges : call.changes = true) (hback : call.readsBack = true)
    (record input : Record) :
    (e.updateRow moment record input).FailsWith (e.Leaves call) := by
  unfold updateRow
  dsimp only
  split
  next => exact (Run.reads_throw _).failsWith e.leaves_same
  next =>
    refine (Run.reads_ofInvalid _).bind_failsWith e.leaves_same fun changes => ?_
    split
    next =>
      exact ((Run.reads_emit _).bind fun _ => Run.reads_pure record).failsWith e.leaves_same
    next =>
      refine (Run.reads_emit _).bind_failsWith e.leaves_same fun _ => ?_
      refine Run.failsWith_write_bind e.leaves_same
        fun store store' result error after events hupdate hfailed => ?_
      unfold firstRow at hfailed
      split at hfailed
      next => cases hfailed
      next fault rest hread =>
        cases hfailed
        obtain rfl := Store.readsBack_update hupdate fault (by simp [hread])
        exact .inr (.inr ⟨hback, rfl, result, rest, hread, .inr ⟨_, rfl, hupdate⟩⟩)
      next hnone =>
        cases hfailed
        obtain ⟨t, ht, hstore⟩ := Store.of_update_nothing hupdate hnone
        exact .inr (.inl ⟨hchanges, _, t, rfl, ht, hstore⟩)

theorem delete_failsWith (q : Query) : q.delete.FailsWith (e.Leaves call) := by
  refine (Run.reads_ofInvalid _).bind_failsWith e.leaves_same fun statement => ?_
  refine (Run.reads_emit _).bind_failsWith e.leaves_same fun _ => ?_
  refine Run.failsWith_write_bind e.leaves_same fun _ _ _ _ _ _ _ hfailed => ?_
  cases hfailed

theorem upsertRows_failsWith (rows : List Record) (unique overwritten : List String) :
    (e.upsertRows moment rows unique overwritten).FailsWith (e.Leaves call) := by
  unfold upsertRows
  split
  next => exact (Run.reads_throw _).failsWith e.leaves_same
  next =>
    refine (Run.reads_ofInvalid _).bind_failsWith e.leaves_same fun _ => ?_
    refine (Run.reads_ofInvalid _).bind_failsWith e.leaves_same fun _ => ?_
    exact e.insertRows_failsWith _ _

/-- Every write runs one statement that changes anything, behind all that it checks. -/
theorem run_failsWith (call : WriteCall) :
    (call.run e moment).FailsWith (e.Leaves call) := by
  cases call with
  | create input => exact ((e.createRow_failsWith moment rfl input).logged .create).bind_pure _
  | insert rows => exact ((e.insertRows_failsWith rows none).logged .insert).bind_pure _
  | update record input =>
    exact ((e.updateRow_failsWith moment rfl rfl record input).logged .update).bind_pure _
  | updateOrCreate attributes values =>
    -- the row is only read first, so the write behind it is the one that decides
    refine (Run.FailsWith.logged ?_ .updateOrCreate).bind_pure _
    refine (e.reads_findOneBy _ _).bind_failsWith e.leaves_same fun found => ?_
    cases found with
    | some record => exact e.updateRow_failsWith moment rfl rfl record values
    | none => exact e.createRow_failsWith moment rfl (attributes.merge values)
  | upsert rows unique overwritten =>
    exact ((e.upsertRows_failsWith moment rows unique overwritten).logged .upsert).bind_pure _
  | delete ids =>
    refine Run.FailsWith.bind_pure ?_ _
    unfold Entity.delete
    split
    next => exact (Run.reads_pure 0).failsWith e.leaves_same
    next => exact (e.delete_failsWith _).logged .delete
  | deleteAll => exact ((e.delete_failsWith e.query).logged .delete).bind_pure _
  | deleteByColumn column value =>
    refine Run.FailsWith.bind_pure ?_ _
    refine (Query.reads_runCalls _ _).bind_failsWith e.leaves_same fun q => ?_
    exact (e.delete_failsWith q).logged .delete

end Entity

namespace Store

theorem keyTable_of_tables {store store' : Store} (h : store'.tables = store.tables)
    {names : List String} (hnames : store'.written = store.written ++ names) :
    store.keyTable.rows <+: store'.keyTable.rows := by
  have htable : ∀ name, store'.table? name = store.table? name := fun name => by
    rw [table?, table?, h]
  simp only [keyTable, hnames, htable, List.mapIdx_append]
  exact List.prefix_append _ _

/-- But for the table of the largest keys, the tables that statements read are those of a store. -/
theorem readable?_of_tables {store store' : Store} (h : store'.tables = store.tables)
    {database : Option String} {name : String} {t : Table}
    (hread : store.readable? database name = some t) :
    t = store.keyTable ∨ store'.readable? database name = some t := by
  have hschema : store'.keyTable.schema = store.keyTable.schema := rfl
  unfold readable? at hread ⊢
  rw [List.find?_cons] at hread
  split at hread
  next => exact .inl (Option.some.inj hread).symm
  next hother =>
    right
    rw [List.find?_cons, hschema, hother, h]
    exact hread

end Store

/-- A write that fails has changed no table. The one table that may show a failure is that of the
largest keys: when the row to change is not found, the logs of its table appear there. A row that
is written and cannot be read back is the exception: its statement has taken effect. -/
theorem Entity.failed_write_keeps_tables (e : Entity) (moment : Moment) (call : WriteCall)
    {session after : Session} {error : QueryError}
    (h : (call.run e moment).exec session = (.error error, after)) :
    e.Leaves call session.store error after.store ∧
    (error ≠ .storage .unreadable ∨ call.readsBack = false →
      after.store.tables = session.store.tables ∧
      (∀ database name t, session.store.readable? database name = some t →
        t = session.store.keyTable ∨ after.store.readable? database name = some t) ∧
      session.store.keyTable.rows <+: after.store.keyTable.rows) := by
  have hleft := e.run_failsWith moment call session error after h
  refine ⟨hleft, fun hread => ?_⟩
  obtain ⟨htables, names, hnames⟩ : after.store.tables = session.store.tables ∧
      ∃ names, after.store.written = session.store.written ++ names := by
    rcases hleft with hsame | ⟨_, _, t, _, _, hstore⟩ | ⟨hback, herror, _⟩
    · rw [hsame]
      exact ⟨rfl, [], (List.append_nil _).symm⟩
    · rw [hstore, Store.noteWritten]
      exact ⟨rfl, _, rfl⟩
    · rcases hread with hother | hnone
      · exact absurd herror hother
      · rw [hback] at hnone
        cases hnone
  exact ⟨htables, fun _ _ _ => Store.readable?_of_tables htables,
    Store.keyTable_of_tables htables hnames⟩

namespace Shop

/-- The change of a customer who is not there. -/
def lostChange : WriteCall :=
  .update (.ofList [("id", .int 99)]) (.ofList [("name", .text "x")])

/-- Teams whose motto is no UTF-8 unless one is given. -/
def teamsWithMotto : Store where
  tables :=
    [{ schema := countedSchema "teams"
        [requiredText "name", ⟨"motto", .text, false, .garbled ⟨[0xFF], by decide⟩⟩] }]

def namedTeam : WriteCall :=
  .create (.ofList [("name", .text "a")])

/-- The audit of customers appears among the largest keys although no row was changed; and a team
that cannot be read back is there. -/
theorem failed_writes_show :
    (((lostChange.run customers ⟨"now", ""⟩).exec { store := emptyStore }).1 =
        .error (.notFound "customers" "99") ∧
      (emptyStore.readable? none "sqlite_sequence").map Table.rows = some [] ∧
      (((lostChange.run customers ⟨"now", ""⟩).exec
        { store := emptyStore }).2.store.readable? none "sqlite_sequence").map Table.rows =
          some [[.text "customer_audit", .int 0, .int 1]]) ∧
    (((namedTeam.run teams ⟨"now", ""⟩).exec { store := teamsWithMotto }).1 =
        .error (.storage .unreadable) ∧
      (teamsWithMotto.table? "teams").map (·.rows.length) = some 0 ∧
      (((namedTeam.run teams ⟨"now", ""⟩).exec { store := teamsWithMotto }).2.store.table?
        "teams").map (·.rows.length) = some 1) := by
  decide +kernel

/-- The second row of an insert has no name, and the first one is not kept either. -/
theorem failed_insert_keeps_teams :
    ∃ error after,
      ((WriteCall.insert [.ofList [("name", .text "a")], .ofList [("name", .null)]]).run teams
        ⟨"now", ""⟩).exec { store := emptyStore } = (.error error, after) ∧
      error = .storage .notNull ∧ after.store.tables = emptyStore.tables := by
  have hfailed : (((WriteCall.insert
      [.ofList [("name", .text "a")], .ofList [("name", .null)]]).run teams
        ⟨"now", ""⟩).exec { store := emptyStore }).1 = .error (.storage .notNull) := by
    decide +kernel
  rcases hrun : ((WriteCall.insert
    [.ofList [("name", .text "a")], .ofList [("name", .null)]]).run teams
      ⟨"now", ""⟩).exec { store := emptyStore } with ⟨error | _, after⟩
  · rw [hrun] at hfailed
    have hkept := (Entity.failed_write_keeps_tables _ _ _ hrun).2 (.inr rfl)
    exact ⟨error, after, rfl, Except.error.inj hfailed, hkept.1⟩
  · rw [hrun] at hfailed
    cases hfailed

end Shop

end TableQuery
