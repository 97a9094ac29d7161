import TableQuery.Proofs.AttachedRows
import TableQuery.Proofs.KeptRows
import TableQuery.Proofs.KeyedFind
import TableQuery.Proofs.PagedRows

namespace TableQuery

open Sql

/-- The payloads of the filter steps, in their order. -/
def ListOptions.payloads (o : ListOptions) : List (OrderedMap Json) :=
  o.steps.filterMap fun step =>
    match step with
    | .filter payload => some payload
    | _ => none

/-- The clause that asks for at least a number in a column. -/
def Clause.atLeast (column : String) (n : Int) : Clause :=
  (.and, .compare column .ge (.int n))

/-- The column has a value that is not less than the number. -/
def Env.AtLeast (env : Env) (column : String) (n : Int) : Prop :=
  Cell.compare .ge (env.columnCell column) (.ofValue (.int n)) = some true

/-- What clauses with bounds behind them let through: the bounds bind the clauses behind the last
OR alone. -/
def Criteria.Admits (criteria : Criteria) (store : Store) (column : String) (bounds : List Int)
    (env : Env) : Prop :=
  criteria.EarlierHolds store env ∨
    (criteria.lastPiece.Holds store env ∧ ∀ n ∈ bounds, env.AtLeast column n)

namespace Query

/-- Filter steps add the clauses of their payloads in order, and other steps add none. -/
theorem criteria_of_applySteps {steps : List ListStep} {q made : Query}
    (h : steps.foldlM applyStep q = .ok made) :
    ∃ added, (ListOptions.payloads { steps := steps }).mapM q.entity.filterCriteria = .ok added ∧
      made.criteria = q.criteria ++ added.flatten := by
  induction steps generalizing q with
  | nil =>
    cases h
    exact ⟨[], rfl, by simp⟩
  | cons step steps ih =>
    rw [List.foldlM_cons] at h
    obtain ⟨next, hnext, h⟩ := Except.of_bind_ok h
    obtain ⟨added, hadded, hmade⟩ := ih h
    have hentity : next.entity = q.entity := (adds_applyStep step).entity hnext
    rw [hentity] at hadded
    have hother : step.kind ≠ .filter → next.criteria = q.criteria := by
      intro hkind
      obtain ⟨part, honly, rfl, _⟩ := of_applyStep hnext
      have hnone : part.criteria = [] := honly.1.resolve_left hkind
      simp [plus, hnone]
    cases step with
    | filter payload =>
      obtain ⟨criteria, hcriteria, rfl⟩ := Except.of_map_ok hnext
      refine ⟨criteria :: added, ?_, ?_⟩
      · have hpayloads : ListOptions.payloads { steps := .filter payload :: steps } =
            payload :: ListOptions.payloads { steps := steps } := rfl
        rw [hpayloads, List.mapM_cons, hcriteria, hadded]
        rfl
      · rw [hmade, List.flatten_cons, ← List.append_assoc]
        rfl
    | sort keys => exact ⟨added, hadded, by rw [hmade, hother (by simp [ListStep.kind])]⟩
    | relate requests => exact ⟨added, hadded, by rw [hmade, hother (by simp [ListStep.kind])]⟩
    | join joins forced => exact ⟨added, hadded, by rw [hmade, hother (by simp [ListStep.kind])]⟩

/-- The rows of a query are its tuples as they are shown, each with its relations. -/
theorem of_rows {q : Query} {store : Store} {rs : List Record} (h : q.rows store = .ok rs) :
    ∃ p tuples shown, store.prepare false q.source q.projection = .ok p ∧
      store.selected q.toSelect p = .ok tuples ∧ rs = tuples.map shown ∧
      ∀ name, (∀ load ∈ q.loads, load.relation.name ≠ name) → ∀ tuple,
        (shown tuple).get? name = (Store.record p.scope p.columns tuple).get? name := by
  obtain ⟨found, hfound, hattached⟩ := Except.of_bind_ok h
  obtain ⟨p, tuples, hp, htuples, rfl⟩ := Store.of_select hfound
  obtain ⟨change, rfl, hchange⟩ := EagerLoad.map_of_attachAll hattached
  exact ⟨p, tuples, fun tuple => change (Store.record p.scope p.columns tuple), hp, htuples,
    List.map_map, fun name hname tuple => hchange name hname _⟩

end Query

theorem Entity.criteria_of_listQuery {e : Entity} {columns : List String} {condition : Condition}
    {o : ListOptions} {q : Query} {session after : Session}
    (h : (e.listQuery columns condition o).exec session = (.ok q, after)) :
    ∃ criteria added, condition.criteria e = .ok criteria ∧
      o.payloads.mapM e.filterCriteria = .ok added ∧ q.criteria = criteria ++ added.flatten := by
  obtain ⟨_, criteria, hcriteria, _, hmade⟩ := Entity.applyOptions_of_listQuery h
  obtain ⟨added, hadded, hq⟩ := Query.criteria_of_applySteps hmade
  exact ⟨criteria, added, hcriteria, hadded, hq⟩

/-- A list, whole or one page of it, brings back rows of its query. -/
theorem Entity.of_list_records {e : Entity} {columns : List String} {condition : Condition}
    {o : ListOptions} {session after : Session} {found : ListResult}
    (h : (e.list columns condition o).exec session = (.ok found, after)) :
    ∃ q between, (e.listQuery columns condition o).exec session = (.ok q, between) ∧
      Query.rows { q with limit := o.page.map Page.size, offset := o.page.map Page.offset }
        session.store = .ok found.records := by
  obtain ⟨q, between, hq, hrun⟩ := Run.of_bind_ok h
  obtain ⟨hlists, hstore⟩ := Entity.of_listQuery hq
  refine ⟨q, between, hq, ?_⟩
  cases hpage : o.page with
  | none =>
    rw [hpage] at hrun
    obtain ⟨rs, _, _, hrows⟩ := Run.of_bind_ok hrun
    cases hrows
    have hwhole : { q with limit := none, offset := none } = q := by
      obtain ⟨_, hlimit, hoffset, _⟩ := hlists
      cases q
      cases hlimit
      cases hoffset
      rfl
    rw [Option.map_none, Option.map_none, hwhole]
    exact Entity.of_list_rows hq h
  | some page =>
    rw [hpage] at hrun
    obtain ⟨paged, _, hpaged, hrows⟩ := Run.of_bind_ok hrun
    cases hrows
    obtain ⟨_, _, hitems, _⟩ := Query.of_paginate hpaged
    rw [← hstore]
    exact hitems

namespace Store

/-- Order, limit and offset bring no tuple in, and without limit and offset none is left out. -/
theorem mem_of_selected {store : Store} {s : Select} {p : Prepared} {tuples : List Tuple}
    (h : store.selected s p = .ok tuples) :
    (∀ tuple ∈ tuples, tuple ∈ p.tuples store) ∧
      (s.limit = none → s.offset = none → ∀ tuple ∈ p.tuples store, tuple ∈ tuples) := by
  obtain ⟨all, hperm, rfl⟩ := window_of_selected h
  refine ⟨fun tuple hmem => hperm.mem_iff.mp (mem_of_mem_window hmem), fun hlimit hoffset => ?_⟩
  rw [hlimit, hoffset, window_none]
  exact fun tuple hmem => hperm.mem_iff.mpr hmem

/-- The tuples of the tables as they are joined, before the clauses are tested. -/
def Prepared.joinedTuples (store : Store) (p : Prepared) : List Tuple :=
  Prepared.tuples store { p with test := none }

theorem Prepared.mem_tuples {store : Store} {p : Prepared} {tuple : Tuple} :
    tuple ∈ p.tuples store ↔ tuple ∈ p.joinedTuples store ∧
      (p.test.all fun test => store.holds p.scope test tuple) = true := by
  unfold joinedTuples tuples
  cases p.test with
  | none => simp
  | some test => simp [and_assoc]

end Store

namespace Criteria

variable {store : Store} {scope : Scope} {criteria : Criteria} {column : String}
  {bounds : List Int} {test : Option Expr}

theorem checked_bounded (hcolumn : IsPlainColumn column) (hchecked : Checked criteria)
    (bounds : List Int) : Checked (criteria ++ bounds.map (Clause.atLeast column)) := by
  refine checked_iff.mpr fun clause hmem => ?_
  rcases List.mem_append.mp hmem with hmem | hmem
  · exact checked_iff.mp hchecked clause hmem
  · obtain ⟨n, _, rfl⟩ := List.mem_map.mp hmem
    exact IsPlainColumn.valid hcolumn

theorem readable_of_prepareTest (hchecked : Checked criteria)
    (htest : store.prepareTest scope criteria = .ok test) : Readable criteria := by
  by_cases hempty : criteria = []
  · subst hempty
    simp [Readable]
  · obtain ⟨e, _, he⟩ := Store.test_of_prepareTest hempty hchecked htest
    exact readable_of_expr? he

theorem clauseTruth_atLeast (hcolumn : IsPlainColumn column) (store : Store) (env : Env) (n : Int) :
    clauseTruth store env (.compare column .ge (.int n)) =
      Cell.compare .ge (env.columnCell column) (.ofValue (.int n)) := by
  obtain ⟨e, he, htruth⟩ := Test.expr?_meaning (t := .compare column .ge (.int n)) hcolumn
  rw [clauseTruth, he, Option.bind_some, htruth store env trivial, Test.meaning]
  rfl

theorem Admits.holds {env : Env} (h : criteria.Admits store column bounds env)
    (hchecked : Checked criteria) (hread : Readable criteria) : criteria.Holds store env :=
  (holds_iff hchecked hread).mpr (h.imp_right And.left)

/-- The tuples that meet the clauses with bounds behind them are those that the clauses and the
bounds let through. -/
theorem all_holds_iff_admits (hcolumn : IsPlainColumn column) (hchecked : Checked criteria)
    (htest : store.prepareTest scope (criteria ++ bounds.map (Clause.atLeast column)) = .ok test)
    (tuple : Tuple) :
    (test.all fun test => store.holds scope test tuple) = true ↔
      criteria.Admits store column bounds [⟨scope, tuple⟩] := by
  by_cases hempty : criteria ++ bounds.map (Clause.atLeast column) = []
  · obtain ⟨rfl, hbounds⟩ := List.append_eq_nil_iff.mp hempty
    obtain rfl := List.map_eq_nil_iff.mp hbounds
    cases htest
    simp [Admits, Holds, truth, lastPiece, text?]
  · have hall := checked_bounded hcolumn hchecked bounds
    obtain ⟨e, rfl, he⟩ := Store.test_of_prepareTest hempty hall htest
    have hreads := readable_of_expr? he
    have hread : Readable criteria := fun clause hmem =>
      hreads clause (List.mem_append_left _ hmem)
    have htests : bounds.map (Clause.atLeast column) =
        (bounds.map fun n => Test.compare column .ge (.int n)).map (Prod.mk .and) := by
      rw [List.map_map]
      rfl
    have hbounds : truthAll ((bounds.map fun n => Test.compare column .ge (.int n)).map
        (clauseTruth store [⟨scope, tuple⟩])) = some true ↔
          ∀ n ∈ bounds, Env.AtLeast [⟨scope, tuple⟩] column n := by
      simp [truthAll_eq_true, Env.AtLeast, clauseTruth_atLeast hcolumn]
    rw [Option.all_some, holds_of_expr? hempty hall he, Holds, truth_eq hall hreads, htests,
      truthOfClauses_append_all, truthOr_eq_true, truthAnd_eq_true, hbounds,
      ← earlierHolds_iff hchecked hread, ← holds_lastPiece_iff hchecked hread]
    exact Iff.rfl

end Criteria

/-- Each row of a list meets the condition on its own, and has at least the numbers that the filter
option asks for unless it meets the clauses before the last OR; a row that meets those is let in
whatever the column holds. -/
theorem Entity.list_keeps_bounds_unless_earlier {e : Entity} (he : e.Plain) {column : String}
    (hcolumn : IsPlainColumn column) {columns : List String} {condition : Condition}
    {o : ListOptions} {bounds : List Int} {session after : Session} {found : ListResult}
    (hbounds : o.payloads.mapM e.filterCriteria =
      .ok (bounds.map fun n => [Clause.atLeast column n]))
    (h : (e.list columns condition o).exec session = (.ok found, after)) :
    ∃ (q : Query) (between : Session) (criteria : Criteria) (p : Store.Prepared)
      (tuples : List Tuple) (shown : Tuple → Record),
      (e.listQuery columns condition o).exec session = (.ok q, between) ∧
      condition.criteria e = .ok criteria ∧
      session.store.prepare false q.source q.projection = .ok p ∧
      found.records = tuples.map shown ∧
      (∀ name, (∀ load ∈ q.loads, load.relation.name ≠ name) → ∀ tuple,
        (shown tuple).get? name = (Store.record p.scope p.columns tuple).get? name) ∧
      (∀ tuple ∈ tuples, tuple ∈ p.joinedTuples session.store ∧
        criteria.Holds session.store [⟨p.scope, tuple⟩] ∧
        criteria.Admits session.store column bounds [⟨p.scope, tuple⟩]) ∧
      (o.page = none → ∀ tuple ∈ p.joinedTuples session.store,
        criteria.Admits session.store column bounds [⟨p.scope, tuple⟩] → tuple ∈ tuples) ∧
      ((∀ tuple ∈ tuples, criteria.EarlierHolds session.store [⟨p.scope, tuple⟩] →
          ∀ n ∈ bounds, Env.AtLeast [⟨p.scope, tuple⟩] column n) →
        ∀ tuple ∈ tuples, ∀ n ∈ bounds, Env.AtLeast [⟨p.scope, tuple⟩] column n) ∧
      ((∀ clause ∈ criteria.tail, clause.1 = .and) →
        ∀ tuple, ¬criteria.EarlierHolds session.store [⟨p.scope, tuple⟩]) := by
  obtain ⟨q, between, hq, hrows⟩ := Entity.of_list_records h
  obtain ⟨criteria, added, hcriteria, hadded, hwhole⟩ := Entity.criteria_of_listQuery hq
  obtain ⟨p, tuples, shown, hp, htuples, hrecords, hshown⟩ := Query.of_rows hrows
  obtain rfl := Except.ok.inj (hadded.symm.trans hbounds)
  obtain ⟨parts⟩ := Store.preparedBy_of_prepare hp
  have hchecked := Condition.checked_criteria he hcriteria
  have hclauses : q.criteria = criteria ++ bounds.map (Clause.atLeast column) := by
    rw [hwhole, ← List.flatMap_def, ← List.map_eq_flatMap]
  have htest : session.store.prepareTest p.scope
      (criteria ++ bounds.map (Clause.atLeast column)) = .ok p.test := by
    rw [← hclauses]
    exact parts.test_eq
  have hadmits := Criteria.all_holds_iff_admits hcolumn hchecked htest
  obtain ⟨hfrom, hinto⟩ := Store.mem_of_selected htuples
  have hadmitted : ∀ tuple ∈ tuples, tuple ∈ p.joinedTuples session.store ∧
      criteria.Admits session.store column bounds [⟨p.scope, tuple⟩] := by
    intro tuple hmem
    obtain ⟨hjoined, htested⟩ := Store.Prepared.mem_tuples.mp (hfrom tuple hmem)
    exact ⟨hjoined, (hadmits tuple).mp htested⟩
  have hread : Criteria.Readable criteria := by
    refine fun clause hmem => Criteria.readable_of_prepareTest ?_ htest clause
      (List.mem_append_left _ hmem)
    exact Criteria.checked_bounded hcolumn hchecked bounds
  refine ⟨q, between, criteria, p, tuples, shown, hq, hcriteria, hp, hrecords, hshown,
    fun tuple hmem => ?_, fun hpage tuple hjoined hadmitted => ?_, fun hearlier tuple hmem => ?_,
    fun hands tuple hearlier => hearlier.1 (Criteria.earlier_nil hands)⟩
  · obtain ⟨hjoined, hadmitted⟩ := hadmitted tuple hmem
    exact ⟨hjoined, hadmitted.holds hchecked hread, hadmitted⟩
  · refine hinto ?_ ?_ tuple (Store.Prepared.mem_tuples.mpr ⟨hjoined, (hadmits tuple).mpr hadmitted⟩)
    · simp [Query.toSelect, hpage]
    · simp [Query.toSelect, hpage]
  · rcases (hadmitted tuple hmem).2 with hmeets | ⟨_, hbound⟩
    · exact hearlier tuple hmem hmeets
    · exact hbound

namespace Shop

/-- The first customer has a status below that of the second. -/
def twoStatuses : Store where
  tables :=
    [{ schema := customerSchema
       rows :=
        [[.int 1, .text "a", .null, .int 1, .null, .null, .null, .null, .null],
         [.int 2, .text "b", .null, .int 3, .null, .null, .null, .null, .null]] }]

def withStatusFrom (n : Int) : ListOptions where
  steps := [.filter (.ofList [("min_status", .int n)])]

/-- A customer that meets the clauses before the last OR comes back with a status below the least
one that is asked for. -/
theorem list_lets_in_lower_status :
    (((customers.list ["status"] [("name", some (.compare .eq (.text "a"))),
        ("name", some (.orEq (.text "b")))] (withStatusFrom 2)).exec
          { store := twoStatuses }).1.toOption.map fun found =>
            found.records.map fun row => row.value "status") = some [.int 1, .int 3] := by
  decide +kernel

theorem plain_customers : customers.Plain where
  table := by decide +kernel
  key := by decide +kernel
  relations := by decide +kernel

/-- Without OR in the condition no customer of a lower status comes back. -/
theorem list_keeps_least_status :
    ∃ (found : ListResult) (after : Session) (p : Store.Prepared) (tuples : List Tuple)
      (shown : Tuple → Record),
      (customers.list ["name"] [("name", some (.member [.text "a", .text "b"]))]
        (withStatusFrom 2)).exec { store := twoStatuses } = (.ok found, after) ∧
      found.records = tuples.map shown ∧ found.records.length = 1 ∧
      ∀ tuple ∈ tuples, Env.AtLeast [⟨p.scope, tuple⟩] "customers.status" 2 := by
  have hread : ((customers.list ["name"] [("name", some (.member [.text "a", .text "b"]))]
      (withStatusFrom 2)).exec { store := twoStatuses }).1.toOption.any (fun found =>
        found.records.length = 1) = true := by
    decide +kernel
  rcases hlist : (customers.list ["name"] [("name", some (.member [.text "a", .text "b"]))]
    (withStatusFrom 2)).exec { store := twoStatuses } with ⟨cause | found, after⟩
  · rw [hlist] at hread
    cases hread
  · rw [hlist] at hread
    have hcolumn : IsPlainColumn "customers.status" :=
      .inr ⟨"customers", "status", by decide +kernel⟩
    have hbounds : (withStatusFrom 2).payloads.mapM customers.filterCriteria =
        .ok ([2].map fun n => [Clause.atLeast "customers.status" n]) := rfl
    obtain ⟨q, between, criteria, p, tuples, shown, _, hcriteria, _, hrecords, _, _, _, hunless,
      hnone⟩ := Entity.list_keeps_bounds_unless_earlier plain_customers hcolumn hbounds hlist
    have hclauses : Condition.criteria customers [("name", some (.member [.text "a", .text "b"]))] =
        .ok [(.and, .member "name" [.text "a", .text "b"] false)] := rfl
    obtain rfl := Except.ok.inj (hcriteria.symm.trans hclauses)
    have hearlier := hnone (by simp)
    exact ⟨found, after, p, tuples, shown, rfl, hrecords, of_decide_eq_true hread,
      fun tuple hmem => hunless (fun tuple _ hmeets => absurd hmeets (hearlier tuple)) tuple hmem 2
        (by simp)⟩

end Shop

end TableQuery
