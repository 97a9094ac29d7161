import TableQuery.Proofs.ConditionMeaning
import TableQuery.Proofs.RunSteps

namespace TableQuery

section Lists

variable {α : Type} {le : α → α → Bool}

theorem perm_insertSorted (a : α) (as : List α) : (insertSorted le a as).Perm (a :: as) := by
  induction as with
  | nil => exact .refl _
  | cons b as ih =>
    unfold insertSorted
    split
    next => exact .refl _
    next => exact (ih.cons b).trans (.swap a b as)

theorem perm_sortedBy (as : List α) : (sortedBy le as).Perm as := by
  induction as with
  | nil => exact .refl _
  | cons a as ih => exact (perm_insertSorted a (sortedBy le as)).trans (ih.cons a)

end Lists

namespace Store

/-- Where the parts of a prepared source come from. -/
structure PreparedBy (store : Store) (source : Source) (columns : List String) (p : Prepared) where
  first : String × Table
  others : List (String × Table)
  shown : List (List ResultColumn)
  joined : List Joined
  named_first : store.namedTable source.table = .ok first
  named_others : (source.joins.mapM fun join => store.namedTable join.table) = .ok others
  shown_eq : columns.mapM (resultColumns store.clock
    ⟨(first :: others).map fun named => (named.1, named.2.schema), []⟩) = .ok shown
  columns_eq : p.columns = shown.flatten
  scope_eq : p.scope =
    ⟨(first :: others).map fun named => (named.1, named.2.schema), givenNames shown.flatten⟩
  first_eq : p.first = first.2
  joins_eq : prepareJoins store p.scope 1 others source.joins = .ok joined
  test_eq : store.prepareTest p.scope source.criteria = .ok p.test
  joined_eq : p.joined = reduced p.scope p.test joined

/-- What is prepared stays within the limits. -/
def Prepared.Within (nested : Bool) (p : Prepared) : Prop :=
  checkReach p.joined = .ok () ∧
    ¬(limits.tables < p.scope.tables.length ∨ limits.columns < p.columns.length ∨
      (!sourceFits nested p.test p.joined) = true)

theorem of_prepare {store : Store} {nested : Bool} {source : Source} {columns : List String}
    {p : Prepared} (h : store.prepare nested source columns = .ok p) :
    Nonempty (PreparedBy store source columns p) ∧ p.Within nested := by
  unfold prepare at h
  obtain ⟨first, hfirst, h⟩ := Except.of_bind_ok h
  obtain ⟨others, hothers, h⟩ := Except.of_bind_ok h
  obtain ⟨shown, hshown, h⟩ := Except.of_bind_ok h
  obtain ⟨joined, hjoined, h⟩ := Except.of_bind_ok h
  obtain ⟨test, htest, h⟩ := Except.of_bind_ok h
  obtain ⟨_, hreach, h⟩ := Except.of_bind_ok h
  split at h
  next => cases h
  next hlimits =>
    cases h
    refine ⟨⟨first, others, shown, joined, hfirst, hothers, hshown, rfl, rfl, rfl, hjoined, htest,
      rfl⟩, hreach, hlimits⟩

theorem preparedBy_of_prepare {store : Store} {nested : Bool} {source : Source}
    {columns : List String} {p : Prepared} (h : store.prepare nested source columns = .ok p) :
    Nonempty (PreparedBy store source columns p) :=
  (of_prepare h).1

/-- Where the parts of a source are, the limits alone decide whether it is prepared. -/
theorem prepare_eq {store : Store} {nested : Bool} {source : Source} {columns : List String}
    {p : Prepared} (parts : PreparedBy store source columns p) (hreach : checkReach p.joined = .ok ()) :
    store.prepare nested source columns =
      if limits.tables < p.scope.tables.length ∨ limits.columns < p.columns.length ∨
        !sourceFits nested p.test p.joined then .error .statement
      else .ok p := by
  obtain ⟨first, others, shown, joined, hfirst, hothers, hshown, hcolumns, hscope, hrows, hjoins,
    htest, hjoined⟩ := parts
  obtain ⟨scope, columns', rows, reducedJoined, test⟩ := p
  dsimp only at *
  subst hcolumns hscope hrows hjoined
  unfold prepare
  simp only [hfirst, hothers, hshown, hjoins, htest, hreach, bind, Except.bind]
  rfl

/-- A source is prepared where its parts are and stay within the limits. -/
theorem prepare_of_parts {store : Store} {nested : Bool} {source : Source} {columns : List String}
    {p : Prepared} (parts : PreparedBy store source columns p) (hwithin : p.Within nested) :
    store.prepare nested source columns = .ok p := by
  rw [prepare_eq parts hwithin.1]
  exact if_neg hwithin.2

/-- What is prepared alone is prepared inside another expression where it is not too high there. -/
theorem prepare_nested {store : Store} {source : Source} {columns : List String} {p : Prepared}
    (h : store.prepare false source columns = .ok p) :
    store.prepare true source columns =
      if sourceFits true p.test p.joined then .ok p else .error .statement := by
  obtain ⟨⟨parts⟩, hreach, hlimits⟩ := of_prepare h
  rw [prepare_eq parts hreach]
  cases hfits : sourceFits true p.test p.joined with
  | false => exact if_pos (.inr (.inr rfl))
  | true =>
    refine if_neg ?_
    rintro (htables | hcolumns | hheight)
    · exact hlimits (.inl htables)
    · exact hlimits (.inr (.inl hcolumns))
    · cases hheight

/-- The test of a source with clauses is what its clauses are read as. -/
theorem test_of_prepareTest {store : Store} {scope : Scope} {criteria : Criteria}
    {test : Option Sql.Expr} (hne : criteria ≠ []) (hchecked : Criteria.Checked criteria)
    (h : store.prepareTest scope criteria = .ok test) :
    ∃ e, test = some e ∧ Criteria.expr? criteria = some e := by
  have htext : Criteria.text? criteria = some (Criteria.text criteria) := by
    simp [Criteria.text?, hne]
  unfold prepareTest at h
  rw [htext] at h
  simp only [Criteria.readTest?_text hne hchecked] at h
  cases hexpr : Criteria.expr? criteria with
  | none =>
    rw [hexpr] at h
    cases h
  | some e =>
    rw [hexpr] at h
    dsimp only at h
    split at h
    next => cases h
    next =>
      cases hcheck : e.check store [⟨scope, []⟩] with
      | error fault =>
        rw [hcheck] at h
        cases h
      | ok _ =>
        rw [hcheck] at h
        cases h
        exact ⟨e, rfl, rfl⟩

theorem holds_of_clause {store : Store} {scope : Scope} {test : Option Sql.Expr} (clause : Clause)
    (hplain : clause.2.Plain) (hapart : clause.2.Apart store)
    (h : store.prepareTest scope [clause] = .ok test) (tuple : Tuple) :
    (test.all fun e => store.holds scope e tuple) =
      decide (clause.2.meaning store [⟨scope, tuple⟩] = some true) := by
  obtain ⟨connector, t⟩ := clause
  have hchecked : Criteria.Checked [(connector, t)] := ⟨hplain.checked, trivial⟩
  obtain ⟨e, rfl, he⟩ := test_of_prepareTest (by simp) hchecked h
  have hne : [(connector, t)] ≠ [] := by
    simp
  obtain ⟨e', he', htruth⟩ := Criteria.expr?_meaning hne fun clause hmem => by
    rw [List.mem_singleton.mp hmem]
    exact Test.expr?_meaning hplain
  rw [he] at he'
  cases he'
  have hmeaning := htruth store [⟨scope, tuple⟩] ⟨hapart, trivial⟩
  rw [Criteria.meaning, Criteria.meanings, Criteria.meanings, truthOfClauses_single] at hmeaning
  have hholds : store.holds scope e tuple = decide (e.truth store [⟨scope, tuple⟩] = some true) :=
    rfl
  rw [Option.all_some, hholds, hmeaning]

theorem sortedBy_all {α : Type} {le : α → α → Bool} (h : ∀ a b, le a b = true) (as : List α) :
    sortedBy le as = as := by
  induction as with
  | nil => rfl
  | cons a as ih =>
    have hcons : sortedBy le (a :: as) = insertSorted le a (sortedBy le as) := rfl
    rw [hcons, ih]
    cases as with
    | nil => rfl
    | cons b as => simp [insertSorted, h]

theorem prepareJoins_nil (store : Store) (scope : Scope) (position : Nat)
    (others : List (String × Table)) : prepareJoins store scope position others [] = .ok [] := by
  cases others <;> rfl

/-- No join is there to be turned into an inner one, whatever the tests. -/
theorem reduced_nil (scope : Scope) (test : Option Sql.Expr) : reduced scope test [] = [] := by
  have hfold : ∀ positions : List Nat, positions.foldl (reduceAt scope test) [] = [] := by
    intro positions
    induction positions with
    | nil => rfl
    | cons n positions ih =>
      have hstep : reduceAt scope test [] n = [] := by
        unfold reduceAt
        dsimp only
        split <;> rfl
      rw [List.foldl_cons, hstep, ih]
  exact hfold _

theorem PreparedBy.joined_eq_nil {store : Store} {source : Source} {columns : List String}
    {p : Prepared} (parts : PreparedBy store source columns p) (hjoins : source.joins = []) :
    parts.joined = [] := by
  have h := parts.joins_eq
  rw [hjoins, prepareJoins_nil] at h
  exact (Except.ok.inj h).symm

theorem joined_nil {store : Store} {source : Source} {columns : List String} {p : Prepared}
    (parts : PreparedBy store source columns p) (hjoins : source.joins = []) : p.joined = [] := by
  rw [parts.joined_eq, parts.joined_eq_nil hjoins, reduced_nil]

theorem tuples_of_rows {p : Prepared} (h : p.joined = []) (store : Store) :
    p.tuples store = (p.first.rows.filter fun row =>
      p.test.all fun test => store.holds p.scope test [row]).map fun row => [row] := by
  have htests : ∀ tuple : Tuple, (p.test.toList.all fun test => store.holds p.scope test tuple) =
      p.test.all fun test => store.holds p.scope test tuple := by
    intro tuple
    cases p.test <;> simp
  simp only [Prepared.tuples, h, List.foldl_nil, List.filter_nil, List.map_nil, List.nil_append,
    List.filter_map, htests]
  rfl

/-- The tuples that a prepared statement brings back, in their order. -/
def selected (store : Store) (s : Select) (p : Prepared) : Except StoreFault (List Tuple) := do
  let keys ← s.order.mapM fun key => do
    let cell ← orderCell store p.scope p.columns key
    pure (key.direction, cell)
  if limits.columns < keys.length then .error .statement
  pure (window s.limit s.offset (sortedBy (tupleLe keys) (p.tuples store)))

/-- What a statement selects is its window of its tuples in some order. -/
theorem window_of_selected {store : Store} {s : Select} {p : Prepared} {tuples : List Tuple}
    (h : store.selected s p = .ok tuples) :
    ∃ all, all.Perm (p.tuples store) ∧ tuples = window s.limit s.offset all := by
  unfold selected at h
  obtain ⟨keys, _, h⟩ := Except.of_bind_ok h
  dsimp only at h
  split at h
  next => cases h
  next =>
    cases h
    exact ⟨_, perm_sortedBy _, rfl⟩

theorem selected_unordered {s : Select} (horder : s.order = []) (store : Store) (p : Prepared) :
    store.selected s p = .ok (window s.limit s.offset (p.tuples store)) := by
  have hsorted : sortedBy (tupleLe []) (p.tuples store) = p.tuples store :=
    sortedBy_all (fun _ _ => rfl) _
  unfold selected
  rw [horder]
  change Except.ok (window s.limit s.offset (sortedBy (tupleLe []) (p.tuples store))) = _
  rw [hsorted]

theorem Prepared.records_eq (p : Prepared) (tuples : List Tuple) :
    p.records tuples = if tuples.all (legible p.scope p.columns) then
      .ok (tuples.map (record p.scope p.columns)) else .error .unreadable :=
  Except.mapM_ite ..

theorem Prepared.records_eq_ok_iff {p : Prepared} {tuples : List Tuple} {found : List Record} :
    p.records tuples = .ok found ↔
      (∀ tuple ∈ tuples, legible p.scope p.columns tuple = true) ∧
        found = tuples.map (record p.scope p.columns) := by
  rw [records_eq, Except.ite_eq_ok_iff, List.all_eq_true]

theorem select_eq {store : Store} {s : Select} {p : Prepared}
    (hp : store.prepare false s.source s.columns = .ok p) :
    store.select s = store.selected s p >>= p.records := by
  unfold select selected
  rw [hp]
  simp only [bind, Except.bind]
  split
  next => rfl
  next keys _ => by_cases hkeys : limits.columns < keys.length <;> simp [hkeys, pure, Except.pure]

theorem of_select {store : Store} {s : Select} {records : List Record}
    (h : store.select s = .ok records) :
    ∃ p tuples, store.prepare false s.source s.columns = .ok p ∧
      store.selected s p = .ok tuples ∧ records = tuples.map (record p.scope p.columns) := by
  cases hp : store.prepare false s.source s.columns with
  | error fault =>
    unfold select at h
    rw [hp] at h
    cases h
  | ok p =>
    rw [select_eq hp] at h
    obtain ⟨tuples, htuples, hrecords⟩ := Except.of_bind_ok h
    exact ⟨p, tuples, rfl, htuples, (Prepared.records_eq_ok_iff.mp hrecords).2⟩

/-- All that a statement brings back can be read. -/
theorem legible_of_select {store : Store} {s : Select} {p : Prepared} {tuples : List Tuple}
    {records : List Record} (hp : store.prepare false s.source s.columns = .ok p)
    (htuples : store.selected s p = .ok tuples) (h : store.select s = .ok records) :
    ∀ tuple ∈ tuples, legible p.scope p.columns tuple = true := by
  rw [select_eq hp, htuples] at h
  exact (Prepared.records_eq_ok_iff.mp h).1

/-- The rows of a statement without joins and order that asks for one row. -/
theorem select_one {store : Store} {s : Select} {p : Prepared}
    (hp : store.prepare false s.source s.columns = .ok p) (hjoins : s.source.joins = [])
    (horder : s.order = []) (hlimit : s.limit = some 1) (hoffset : s.offset = none) :
    store.select s = p.records ((p.first.rows.find? fun row =>
      p.test.all fun test => store.holds p.scope test [row]).toList.map fun row => [row]) := by
  obtain ⟨parts⟩ := preparedBy_of_prepare hp
  have htuples := tuples_of_rows (joined_nil parts hjoins) store
  have hwindow : ∀ tuples : List Tuple, window (some 1) none tuples = tuples.take 1 := fun _ => rfl
  rw [select_eq hp, selected_unordered horder, hlimit, hoffset, hwindow, htuples,
    ← List.map_take, List.take_one, List.head?_filter]
  rfl

end Store

end TableQuery
