import TableQuery.Proofs.FilteredList

namespace TableQuery

open Sql

namespace Criteria

variable {store : Store} {scope : Scope} {tests : List Test} {test : Option Expr}

/-- Tests that are joined with AND hold together where each of them is true. -/
theorem all_holds_iff_forall (hchecked : Checked (tests.map (Prod.mk Connector.and)))
    (htest : store.prepareTest scope (tests.map (Prod.mk Connector.and)) = .ok test)
    (tuple : Tuple) :
    (test.all fun test => store.holds scope test tuple) = true ↔
      ∀ t ∈ tests, clauseTruth store [⟨scope, tuple⟩] t = some true := by
  by_cases hempty : tests = []
  · subst hempty
    cases htest
    simp
  · have hne : tests.map (Prod.mk Connector.and) ≠ [] := by
      simpa using hempty
    obtain ⟨e, rfl, he⟩ := Store.test_of_prepareTest hne hchecked htest
    have hands := truthOfClauses_append_all (clauseTruth store [⟨scope, tuple⟩]) [] tests
    have hnone : ∀ t : Option Bool, truthOr (some false) (truthAnd (some true) t) = t := by
      intro t
      rcases t with _ | _ | _ <;> rfl
    have hall : truthOfClauses (values (clauseTruth store [⟨scope, tuple⟩])
        (tests.map (Prod.mk Connector.and))) =
          truthAll (tests.map (clauseTruth store [⟨scope, tuple⟩])) :=
      hands.trans (hnone _)
    rw [Option.all_some, holds_of_expr? hne hchecked he, Holds,
      truth_eq hchecked (readable_of_expr? he), hall, truthAll_eq_true]
    simp

end Criteria

namespace Condition

def ofEntries (entries : List (String × Predicate)) : Condition :=
  entries.map fun entry => (entry.1, some entry.2)

/-- Predicates that are joined with AND become one test each, so all of them admit what all tests
are true of. -/
theorem tests_of_criteria {α : Type} {e : Entity} {items : List α}
    {entry : α → String × Predicate} {criteria : Criteria} {store : Store}
    {admits : α → Env → Bool}
    (hitems : ∀ item ∈ items, ∀ clause,
      (entry item).2.clause e (entry item).1 = .ok clause → clause.1 = .and ∧
        ∀ env, Criteria.clauseTruth store env clause.2 = some true ↔ admits item env = true)
    (h : (ofEntries (items.map entry)).criteria e = .ok criteria) :
    ∃ tests : List Test, criteria = tests.map (Prod.mk Connector.and) ∧
      ∀ env, (∀ t ∈ tests, Criteria.clauseTruth store env t = some true) ↔
        (items.all fun item => admits item env) = true := by
  induction items generalizing criteria with
  | nil =>
    cases h
    exact ⟨[], rfl, by simp⟩
  | cons item items ih =>
    have hcons : ofEntries ((item :: items).map entry) =
        ((entry item).1, some (entry item).2) :: ofEntries (items.map entry) := rfl
    rw [hcons, criteria_cons_some] at h
    obtain ⟨column, hcolumn, h⟩ := Except.of_bind_ok h
    obtain ⟨clause, hclause, h⟩ := Except.of_bind_ok h
    obtain ⟨rest, hrest, h⟩ := Except.of_bind_ok h
    cases h
    obtain ⟨tests, rfl, htests⟩ := ih (fun item hmem => hitems item (by simp [hmem])) hrest
    obtain rfl : (entry item).1 = column := by
      unfold checkedName at hcolumn
      split at hcolumn
      next => exact Except.ok.inj hcolumn
      next => cases hcolumn
    obtain ⟨hand, htruth⟩ := hitems item (by simp) clause hclause
    refine ⟨clause.2 :: tests, by rw [List.map_cons, ← hand], fun env => ?_⟩
    rw [List.forall_mem_cons, htruth, htests, List.all_cons, Bool.and_eq_true]

end Condition

namespace Store

theorem Prepared.tuples_eq_filter (store : Store) (p : Prepared) :
    p.tuples store = (p.joinedTuples store).filter fun tuple =>
      p.test.all fun test => store.holds p.scope test tuple := by
  unfold joinedTuples tuples
  rw [List.filter_filter]
  refine List.filter_congr fun tuple _ => ?_
  cases p.test with
  | none => simp
  | some test => simp [Bool.and_comm]

theorem Prepared.joinedTuples_of_rows {p : Prepared} (h : p.joined = []) (store : Store) :
    p.joinedTuples store = p.first.rows.map fun row => [row] := by
  have htuples := tuples_of_rows (p := { p with test := none }) h store
  rw [joinedTuples, htuples]
  simp

end Store

namespace Query

/-- The records are what a page, if there is one, leaves of the joined tuples that a test admits,
each with its relations. Without joins the tuples are the rows of the table of the entity. -/
def Brings (q : Query) (store : Store) (page : Option Page) (admits : Env → Bool)
    (rs : List Record) : Prop :=
  ∃ (p : Store.Prepared) (all : List Tuple) (shown : Tuple → Record),
    store.prepare false q.source q.projection = .ok p ∧
    all.Perm ((p.joinedTuples store).filter fun tuple => admits [⟨p.scope, tuple⟩]) ∧
    rs = (Store.window (page.map Page.size) (page.map Page.offset) all).map shown ∧
    (∀ name, (∀ load ∈ q.loads, load.relation.name ≠ name) → ∀ tuple,
      (shown tuple).get? name = (Store.record p.scope p.columns tuple).get? name) ∧
    (q.joins = [] → ∃ name, store.namedTable q.entity.table = .ok (name, p.first) ∧
      p.joinedTuples store = p.first.rows.map fun row => [row])

theorem brings_of_tests {q : Query} {store : Store} {page : Option Page} {rs : List Record}
    {tests : List Test} {admits : Env → Bool}
    (hcriteria : q.criteria = tests.map (Prod.mk Connector.and))
    (hchecked : Criteria.Checked q.criteria)
    (hadmits : ∀ env, (∀ t ∈ tests, Criteria.clauseTruth store env t = some true) ↔
      admits env = true)
    (h : Query.rows { q with limit := page.map Page.size, offset := page.map Page.offset } store =
      .ok rs) :
    q.Brings store page admits rs := by
  obtain ⟨p, tuples, shown, hp, htuples, rfl, hshown⟩ := of_rows h
  obtain ⟨parts⟩ := Store.preparedBy_of_prepare hp
  rw [hcriteria] at hchecked
  have htest : store.prepareTest p.scope (tests.map (Prod.mk Connector.and)) = .ok p.test := by
    rw [← hcriteria]
    exact parts.test_eq
  have hfiltered : p.tuples store =
      (p.joinedTuples store).filter fun tuple => admits [⟨p.scope, tuple⟩] := by
    rw [Store.Prepared.tuples_eq_filter]
    refine List.filter_congr fun tuple _ => Bool.eq_iff_iff.mpr ?_
    rw [Criteria.all_holds_iff_forall hchecked htest, hadmits]
  obtain ⟨all, hall, rfl⟩ := Store.window_of_selected htuples
  refine ⟨p, all, shown, hp, hfiltered ▸ hall, rfl, hshown, fun hjoins => ?_⟩
  exact ⟨parts.first.1, by rw [parts.first_eq]; exact parts.named_first,
    Store.Prepared.joinedTuples_of_rows (Store.joined_nil parts hjoins) store⟩

end Query

/-- A list without filter options brings the tuples that every predicate of its condition admits,
where all of them are joined with AND. -/
theorem Entity.list_brings {α : Type} {e : Entity} (he : e.Plain) {items : List α}
    {entry : α → String × Predicate} {columns : List String} {o : ListOptions}
    {session after : Session} {found : ListResult} {admits : α → Env → Bool}
    (hfilter : o.payloads = [])
    (hitems : ∀ item ∈ items, ∀ clause,
      (entry item).2.clause e (entry item).1 = .ok clause → clause.1 = .and ∧ ∀ env,
        Criteria.clauseTruth session.store env clause.2 = some true ↔ admits item env = true)
    (h : (e.list columns (.ofEntries (items.map entry)) o).exec session = (.ok found, after)) :
    ∃ q between,
      (e.listQuery columns (.ofEntries (items.map entry)) o).exec session = (.ok q, between) ∧
      q.Brings session.store o.page (fun env => items.all fun item => admits item env)
        found.records := by
  obtain ⟨q, between, hq, hrows⟩ := Entity.of_list_records h
  obtain ⟨criteria, added, hcriteria, hadded, hwhole⟩ := Entity.criteria_of_listQuery hq
  have hnone : added = [] := by
    rw [hfilter] at hadded
    exact (Except.ok.inj hadded).symm
  rw [hnone, List.flatten_nil, List.append_nil] at hwhole
  obtain ⟨tests, htests, htruth⟩ := Condition.tests_of_criteria hitems hcriteria
  exact ⟨q, between, hq, Query.brings_of_tests (hwhole.trans htests)
    (hwhole ▸ Condition.checked_criteria he hcriteria) htruth hrows⟩

end TableQuery
