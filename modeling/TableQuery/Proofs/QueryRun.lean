import TableQuery.Proofs.Preparation

namespace TableQuery

namespace EagerLoad

/-- The related rows that a load finds for parents. -/
def related (load : EagerLoad) (store : Store) (parents : List Record) :
    Except StoreFault (List Record) :=
  if (load.keys parents).isEmpty then .ok [] else store.select (load.toSelect (load.keys parents))

/-- The parents with what several loads find for them, one after the other. -/
def attachAll (store : Store) : List EagerLoad → List Record → Except StoreFault (List Record)
  | [], parents => .ok parents
  | load :: loads, parents => do
    let related ← load.related store parents
    attachAll store loads (parents.map (load.attach related))

/-- A load gives each parent its related rows, and nothing but the store can make it fail. -/
theorem exec_run (load : EagerLoad) (parents : List Record) (session : Session) :
    ∃ events, (load.run parents).exec session =
      (((load.related session.store parents).map fun related =>
        parents.map (load.attach related)).mapError .storage,
        { session with events := events }) := by
  have hload : ∀ session : Session, ∃ events, Run.exec (if (load.keys parents).isEmpty then
        pure [] >>= fun related => pure (parents.map (load.attach related))
      else Run.select (load.toSelect (load.keys parents)) >>= fun related =>
        pure (parents.map (load.attach related))) session =
      (((load.related session.store parents).map fun related =>
        parents.map (load.attach related)).mapError .storage,
        { session with events := events }) := by
    intro session
    unfold related
    split
    next => exact ⟨session.events, rfl⟩
    next =>
      rw [Run.exec_bind, Run.exec_select]
      cases session.store.select (load.toSelect (load.keys parents)) <;> exact ⟨_, rfl⟩
  unfold run
  dsimp only
  split
  next =>
    rw [Run.exec_bind, Run.exec_emit]
    obtain ⟨events, hevents⟩ := hload _
    exact ⟨events, hevents⟩
  next => exact hload session

theorem attachAll_nil (store : Store) (loads : List EagerLoad) :
    attachAll store loads [] = .ok [] := by
  induction loads with
  | nil => rfl
  | cons load loads ih =>
    have hkeys : load.keys [] = [] := rfl
    have hrelated : load.related store [] = .ok [] := by
      simp [related, hkeys]
    rw [attachAll, hrelated]
    exact ih

theorem exec_runAll (loads : List EagerLoad) (parents : List Record) (session : Session) :
    ∃ events, (runAll loads parents).exec session =
      ((attachAll session.store loads parents).mapError .storage,
        { session with events := events }) := by
  have hfold : ∀ (parents : List Record) (session : Session), ∃ events,
      Run.exec (loads.foldlM (fun parents load => load.run parents) parents) session =
        ((attachAll session.store loads parents).mapError .storage,
          { session with events := events }) := by
    induction loads with
    | nil => exact fun parents session => ⟨session.events, rfl⟩
    | cons load loads ih =>
      intro parents session
      obtain ⟨events, hrun⟩ := exec_run load parents session
      rw [List.foldlM_cons, Run.exec_bind, hrun, attachAll]
      cases load.related session.store parents with
      | error fault => exact ⟨events, rfl⟩
      | ok related => exact ih (parents.map (load.attach related)) _
  unfold runAll
  -- without parents no load is run at all, and `attachAll` changes nothing either
  by_cases hempty : parents = []
  · subst hempty
    rw [attachAll_nil]
    exact ⟨session.events, rfl⟩
  · have hfalse : parents.isEmpty = false := by simpa using hempty
    rw [hfalse]
    exact hfold parents session

theorem length_attachAll {store : Store} {loads : List EagerLoad} {parents rows : List Record}
    (h : attachAll store loads parents = .ok rows) : rows.length = parents.length := by
  induction loads generalizing parents with
  | nil =>
    cases h
    rfl
  | cons load loads ih =>
    obtain ⟨related, _, hrest⟩ := Except.of_bind_ok h
    simpa using ih hrest

end EagerLoad

namespace Query

/-- The rows that a query brings back from a store. -/
def rows (q : Query) (store : Store) : Except StoreFault (List Record) := do
  let found ← store.select q.toSelect
  EagerLoad.attachAll store q.loads found

theorem rows_of_no_loads {q : Query} (h : q.loads = []) (store : Store) :
    q.rows store = store.select q.toSelect := by
  unfold rows
  rw [h]
  cases store.select q.toSelect <;> rfl

theorem exec_fetchAll (q : Query) (session : Session) :
    ∃ events, q.fetchAll.exec session =
      ((q.rows session.store).mapError .storage, { session with events := events }) := by
  unfold fetchAll rows
  rw [Run.exec_bind, Run.exec_select]
  cases session.store.select q.toSelect with
  | error fault => exact ⟨_, rfl⟩
  | ok found => exact EagerLoad.exec_runAll q.loads found _

theorem rows_of_fetchAll {q : Query} {session after : Session} {rs : List Record}
    (h : q.fetchAll.exec session = (.ok rs, after)) : q.rows session.store = .ok rs := by
  obtain ⟨events, hexec⟩ := q.exec_fetchAll session
  rw [h] at hexec
  cases hrows : q.rows session.store with
  | error fault =>
    rw [hrows] at hexec
    cases hexec
  | ok found =>
    rw [hrows] at hexec
    cases hexec
    rfl

theorem exec_fetchAll_of_rows {q : Query} {session : Session} {rs : List Record}
    (h : q.rows session.store = .ok rs) :
    ∃ events, q.fetchAll.exec session = (.ok rs, { session with events := events }) := by
  obtain ⟨events, hexec⟩ := q.exec_fetchAll session
  exact ⟨events, by rw [hexec, h]; rfl⟩

theorem runCall_eq (q : Query) (call : QueryStep) :
    ∃ report : Run Unit, report.Reads ∧
      q.runCall call = report >>= fun _ => Run.ofInvalid (q.applyCall call) := by
  have hskipped : ∀ columns : List String,
      (columns.forM fun c => Run.emit (.skipped c) : Run Unit).Reads := by
    intro columns
    induction columns with
    | nil => exact Run.reads_pure ()
    | cons c columns ih => exact (Run.reads_emit _).bind fun _ => ih
  cases call with
  | filterBy condition => exact ⟨_, hskipped (condition.compile q.entity).skipped, rfl⟩
  | _ => exact ⟨pure (), Run.reads_pure (), rfl⟩

theorem of_runCall {q made : Query} {call : QueryStep} {session after : Session}
    (h : (q.runCall call).exec session = (.ok made, after)) :
    q.applyCall call = .ok made ∧ after.store = session.store := by
  obtain ⟨report, hreads, hshape⟩ := runCall_eq q call
  rw [hshape] at h
  obtain ⟨_, between, hreport, hmade⟩ := Run.of_bind_ok h
  have hbetween : between.store = session.store := by
    have hstore := hreads session
    rwa [hreport] at hstore
  obtain ⟨hcall, rfl⟩ := Run.of_ofInvalid hmade
  exact ⟨hcall, hbetween⟩

theorem of_runCalls {q made : Query} {calls : List QueryStep} {session after : Session}
    (h : (q.runCalls calls).exec session = (.ok made, after)) :
    calls.foldlM applyCall q = .ok made ∧ after.store = session.store := by
  induction calls generalizing q session with
  | nil =>
    cases h
    exact ⟨rfl, rfl⟩
  | cons call calls ih =>
    obtain ⟨next, between, hcall, hrest⟩ := Run.of_bind_ok h
    obtain ⟨happlied, hstore⟩ := of_runCall hcall
    obtain ⟨hmade, hafter⟩ := ih hrest
    refine ⟨?_, hafter.trans hstore⟩
    rw [List.foldlM_cons, happlied]
    exact hmade

/-! What the calls make of a query. -/

section

variable {q made : Query}

theorem of_select {columns : List String} (h : q.select columns = .ok made) :
    made = { q with columns := columns } ∧ ∀ column ∈ columns, Identifier.valid column = true := by
  obtain ⟨checked, hchecked, h⟩ := Except.of_bind_ok h
  cases h
  obtain ⟨rfl, hvalid⟩ := of_checkedNames hchecked
  exact ⟨rfl, hvalid⟩

theorem of_join {join : Join} {forced : Option JoinKind} (h : q.join join forced = .ok made) :
    made = { q with joins := q.joins ++ [{ join with kind := forced.getD join.kind }] } ∧
      Identifier.valid join.table = true ∧ Identifier.valid join.foreignKey = true ∧
      Identifier.valid join.primaryKey = true := by
  obtain ⟨table, htable, h⟩ := Except.of_bind_ok h
  obtain ⟨foreignKey, hforeign, h⟩ := Except.of_bind_ok h
  obtain ⟨primaryKey, hprimary, h⟩ := Except.of_bind_ok h
  cases h
  obtain ⟨rfl, htablevalid⟩ := of_checkedName htable
  obtain ⟨rfl, hforeignvalid⟩ := of_checkedName hforeign
  obtain ⟨rfl, hprimaryvalid⟩ := of_checkedName hprimary
  exact ⟨rfl, htablevalid, hforeignvalid, hprimaryvalid⟩

theorem of_orderBy {key : SortKey} (h : q.orderBy key = .ok made) :
    made = { q with order := q.order ++ [key] } ∧ Identifier.valid key.column = true := by
  obtain ⟨column, hcolumn, h⟩ := Except.of_bind_ok h
  cases h
  obtain ⟨rfl, hvalid⟩ := of_checkedName hcolumn
  exact ⟨rfl, hvalid⟩

theorem of_load {request : RelationRequest} (h : q.load request = .ok made) :
    ∃ relation, q.entity.relation request.name = .ok relation ∧
      made = { q with loads := q.loads ++ [⟨relation, request.columns⟩] } := by
  obtain ⟨relation, hrelation, h⟩ := Except.of_bind_ok h
  obtain ⟨columns, hcolumns, h⟩ := Except.of_bind_ok h
  cases h
  obtain ⟨rfl, _⟩ := of_checkedNames hcolumns
  exact ⟨relation, hrelation, rfl⟩

theorem loads_of_relate {requests : List RelationRequest} (h : q.relate requests = .ok made) :
    ∃ loads, made = { q with loads := loads } := by
  have hstep : ∀ request ∈ requests, ∀ before after : Query,
      (∃ loads, before = { q with loads := loads }) → before.load request = .ok after →
        ∃ loads, after = { q with loads := loads } := by
    rintro request _ before after ⟨loads, rfl⟩ hload
    obtain ⟨relation, _, rfl⟩ := of_load hload
    exact ⟨_, rfl⟩
  exact Except.of_foldlM_ok hstep ⟨q.loads, rfl⟩ h

/-- What each single addition to a query keeps, the options keep: a step is a fold of additions,
and the options are a fold of steps. -/
theorem of_applyOptions {P : Query → Prop}
    (hsort : ∀ {q made : Query}, P q → ∀ {key : SortKey}, q.orderBy key = .ok made → P made)
    (hload : ∀ {q made : Query}, P q → ∀ {request : RelationRequest},
      q.load request = .ok made → P made)
    (hjoin : ∀ {q made : Query}, P q → ∀ {join : Join} {forced : Option JoinKind},
      q.join join forced = .ok made → P made)
    (hfilter : ∀ {q : Query} {payload : OrderedMap Json} {criteria : Criteria},
      P q → q.entity.filterCriteria payload = .ok criteria → P (q.addCriteria criteria))
    {options : ListOptions} (hq : P q) (h : q.applyOptions options = .ok made) : P made := by
  refine Except.of_foldlM_ok (fun step _ q made hq h => ?_) hq h
  cases step with
  | sort keys => exact Except.of_foldlM_ok (fun _ _ _ _ hq h => hsort hq h) hq h
  | relate requests => exact Except.of_foldlM_ok (fun _ _ _ _ hq h => hload hq h) hq h
  | join joins forced => exact Except.of_foldlM_ok (fun _ _ _ _ hq h => hjoin hq h) hq h
  | filter payload =>
    obtain ⟨criteria, hcriteria, rfl⟩ := Except.of_map_ok h
    exact hfilter hq hcriteria

end

end Query

/-- The query of a list is what the options make of the clauses of the condition and the columns,
which are names. -/
theorem Entity.applyOptions_of_listQuery {e : Entity} {columns : List String}
    {condition : Condition} {o : ListOptions} {q : Query} {session after : Session}
    (h : (e.listQuery columns condition o).exec session = (.ok q, after)) :
    after.store = session.store ∧ ∃ criteria, condition.criteria e = .ok criteria ∧
      (∀ column ∈ columns, Identifier.valid column = true) ∧
        Query.applyOptions { entity := e, columns := columns, criteria := criteria } o = .ok q := by
  obtain ⟨hcalls, hstore⟩ := Query.of_runCalls h
  refine ⟨hstore, ?_⟩
  simp only [List.foldlM_cons, List.foldlM_nil] at hcalls
  obtain ⟨filtered, hfiltered, hcalls⟩ := Except.of_bind_ok hcalls
  obtain ⟨selected, hselected, hcalls⟩ := Except.of_bind_ok hcalls
  obtain ⟨made, hmade, hcalls⟩ := Except.of_bind_ok hcalls
  cases hcalls
  obtain ⟨criteria, hcriteria, rfl⟩ := Except.of_map_ok hfiltered
  obtain ⟨rfl, hvalid⟩ := Query.of_select hselected
  exact ⟨criteria, hcriteria, hvalid, hmade⟩

/-- The query for a row holds the clauses of the condition and nothing else that chooses rows. -/
theorem Entity.of_detailQuery {e : Entity} {condition : Condition} {columns : List String}
    {relations : List RelationRequest} {q : Query} {session after : Session}
    (h : (e.detailQuery condition columns relations).exec session = (.ok q, after)) :
    after.store = session.store ∧ ∃ criteria shown loads,
      condition.criteria e = .ok criteria ∧
        q = { entity := e, columns := shown, criteria := criteria, loads := loads } := by
  obtain ⟨hcalls, hstore⟩ := Query.of_runCalls h
  refine ⟨hstore, ?_⟩
  simp only [List.foldlM_cons, List.foldlM_nil] at hcalls
  obtain ⟨filtered, hfiltered, hcalls⟩ := Except.of_bind_ok hcalls
  obtain ⟨selected, hselected, hcalls⟩ := Except.of_bind_ok hcalls
  obtain ⟨related, hrelated, hcalls⟩ := Except.of_bind_ok hcalls
  cases hcalls
  obtain ⟨criteria, hcriteria, rfl⟩ := Except.of_map_ok hfiltered
  obtain ⟨rfl, _⟩ := Query.of_select hselected
  obtain ⟨loads, rfl⟩ := Query.loads_of_relate hrelated
  exact ⟨criteria, columns, loads, hcriteria, rfl⟩

end TableQuery
