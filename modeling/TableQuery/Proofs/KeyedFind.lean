import TableQuery.Proofs.LastPiece
import TableQuery.Proofs.QueryRun
import TableQuery.Shop

namespace TableQuery

open Sql

/-- The table, the key and the relations of an entity have plain names. -/
structure Entity.Plain (e : Entity) : Prop where
  table : IsPlain e.table
  key : IsPlain e.primaryKey
  relations : ∀ r ∈ e.relations, r.Plain

namespace Entity

theorem plain_of_relation {e : Entity} (he : e.Plain) {name : String} {found : Relation}
    (h : e.relation name = .ok found) : found.Plain :=
  he.relations found (List.mem_of_find?_eq_some (Predicate.find?_of_relation h))

/-- The key of the row of the first level equals a value; null asks for no key. -/
def keyTruth (e : Entity) (env : Env) (id : Value) : Option Bool :=
  Test.compareMeaning .eq id (env.cell (some e.table) e.primaryKey)

theorem plain_qualifiedKey {e : Entity} (he : e.Plain) : IsPlainColumn e.qualifiedKey :=
  .inr ⟨e.table, e.primaryKey, rfl, he.table, he.key⟩

theorem expr?_key {e : Entity} (he : e.Plain) (id : Value) :
    ∃ key, (Test.compare e.qualifiedKey .eq id).expr? = some key ∧
      ∀ store env, key.truth store env = e.keyTruth env id := by
  obtain ⟨key, hkey, htruth⟩ := Test.expr?_meaning (t := .compare e.qualifiedKey .eq id)
    (plain_qualifiedKey he)
  refine ⟨key, hkey, fun store env => ?_⟩
  rw [htruth store env trivial, Test.meaning, keyTruth]
  simp only [Env.columnCell, qualifiedKey, Identifier.read?_qualified he.table.1 he.key.1]

end Entity

theorem Condition.checked_criteria {e : Entity} (he : e.Plain) {condition : Condition}
    {criteria : Criteria} (h : condition.criteria e = .ok criteria) :
    Criteria.Checked criteria := by
  refine criteria_induction (P := fun _ criteria => Criteria.Checked criteria) trivial ?_ ?_ h
  · intro column condition criteria ih
    exact ih
  · intro column p condition clause criteria hvalid hclause ih
    refine ⟨?_, ih⟩
    have hrelated : ∀ {name : String} (test : Test), test.Checked →
        (e.relation name >>= fun found =>
          Except.ok (Connector.and, Test.has e.table found [(.and, test)])) = .ok clause →
        clause.2.Checked := by
      intro name test htest h
      obtain ⟨found, hfound, rfl⟩ := Predicate.clause_related h
      exact ⟨he.table, Entity.plain_of_relation he hfound, htest, trivial⟩
    cases p with
    | has relation value => exact hrelated (.compare column .eq value) hvalid hclause
    | hasLike relation text => exact hrelated (.contains column text) hvalid hclause
    | hasBetween relation low high =>
      exact hrelated (.between column low high false) hvalid hclause
    | activeOn day =>
      cases hclause
      exact he.table
    | memberOrNull values =>
      cases hclause
      exact ⟨by simp, hvalid, hvalid, trivial⟩
    | orMemberNotNull values =>
      cases hclause
      exact ⟨by simp, hvalid, hvalid, trivial⟩
    | _ =>
      cases hclause
      exact hvalid

namespace Criteria

/-- What clauses say when their text is read on its own. -/
def truth (store : Store) (env : Env) (criteria : Criteria) : Option Bool :=
  match Criteria.text? criteria with
  | none => some true
  | some text =>
    (readTest? text (Criteria.bindings criteria)).bind fun test => test.truth store env

/-- Every clause can be read. -/
def Readable (criteria : Criteria) : Prop :=
  ∀ clause ∈ criteria, ∃ e, clause.2.expr? = some e

def clauseTruth (store : Store) (env : Env) (t : Test) : Option Bool :=
  t.expr?.bind fun e => e.truth store env

theorem exprs_eq_map (criteria : Criteria) :
    exprs criteria = criteria.map fun clause => (clause.1, clause.2.expr?) := by
  induction criteria with
  | nil => rfl
  | cons clause rest ih => rw [exprs, ih, List.map_cons]

theorem readable_of_expr? {criteria : Criteria} {e : Expr} (h : expr? criteria = some e) :
    Readable criteria := by
  intro clause hmem
  cases hclause : clause.2.expr? with
  | some e => exact ⟨e, rfl⟩
  | none =>
    cases criteria with
    | nil => simp at hmem
    | cons first rest =>
      have hchain : expr? (first :: rest) =
          first.2.expr?.bind fun e => chainFrom? none e (exprs rest) := rfl
      rw [hchain] at h
      rcases List.mem_cons.mp hmem with rfl | hmem
      · rw [hclause] at h
        cases h
      · obtain ⟨own, _, hrest⟩ := Option.bind_eq_some_iff.mp h
        have hnone : ∃ item ∈ exprs rest, item.2 = none := by
          rw [exprs_eq_map]
          exact ⟨_, List.mem_map_of_mem hmem, hclause⟩
        rw [chainFrom?_none hnone] at hrest
        cases hrest

theorem truth_eq {criteria : Criteria} (hchecked : Checked criteria) (hread : Readable criteria)
    (store : Store) (env : Env) :
    truth store env criteria = truthOfClauses (values (clauseTruth store env) criteria) := by
  by_cases hne : criteria = []
  · subst hne
    rfl
  · let items : List (Connector × Expr) :=
      criteria.map fun clause => (clause.1, clause.2.expr?.getD (.literal .null))
    have hexprs : exprs criteria = items.map fun item => (item.1, some item.2) := by
      rw [exprs_eq_map, List.map_map]
      refine List.map_congr_left fun clause hmem => ?_
      obtain ⟨e, he⟩ := hread clause hmem
      simp [he]
    have hvalues : values (clauseTruth store env) criteria =
        items.map fun item => (item.1, item.2.truth store env) := by
      rw [values, List.map_map]
      refine List.map_congr_left fun clause hmem => ?_
      obtain ⟨e, he⟩ := hread clause hmem
      simp [clauseTruth, he]
    have hitems : items ≠ [] := by
      simpa [items] using hne
    obtain ⟨e, he, htruth⟩ := chain?_truth hitems
    have htest : readTest? (Criteria.text criteria) (Criteria.bindings criteria) = some e := by
      rw [readTest?_text hne hchecked, expr?, hexprs, he]
    have htext : text? criteria = some (Criteria.text criteria) := by
      simp [text?, hne]
    rw [truth, htext, hvalues, ← htruth]
    simp only [htest, Option.bind_some]

theorem Checked.of_mem {criteria part : Criteria} (h : Checked criteria)
    (hpart : ∀ clause ∈ part, clause ∈ criteria) : Checked part :=
  checked_iff.mpr fun clause hmem => checked_iff.mp h clause (hpart clause hmem)

theorem mem_of_mem_earlier {criteria : Criteria} {clause : Clause}
    (h : clause ∈ earlier criteria) : clause ∈ criteria := by
  rw [← earlier_append_lastPiece criteria]
  exact List.mem_append_left _ h

theorem mem_of_mem_lastPiece {criteria : Criteria} {clause : Clause}
    (h : clause ∈ lastPiece criteria) : clause ∈ criteria := by
  rw [← earlier_append_lastPiece criteria]
  exact List.mem_append_right _ h

theorem earlier_nil {criteria : Criteria} (h : ∀ clause ∈ criteria.tail, clause.1 = .and) :
    earlier criteria = [] := by
  cases criteria with
  | nil => rfl
  | cons first rest =>
    rw [earlier]
    cases hdivide : divideLast? rest with
    | none => rfl
    | some parts =>
      obtain ⟨before, last⟩ := parts
      obtain ⟨hrest, a, ands, rfl, _⟩ := divideLast?_some hdivide
      have hor := h (.or, a) (by simp [hrest])
      cases hor

/-- The clauses hold, read on their own. -/
def Holds (store : Store) (criteria : Criteria) (env : Env) : Prop :=
  truth store env criteria = some true

/-- The clauses before the last OR hold, read on their own. -/
def EarlierHolds (store : Store) (criteria : Criteria) (env : Env) : Prop :=
  earlier criteria ≠ [] ∧ Holds store (earlier criteria) env

instance (store : Store) (criteria : Criteria) (env : Env) : Decidable (Holds store criteria env) :=
  inferInstanceAs (Decidable (_ = _))

instance (store : Store) (criteria : Criteria) (env : Env) :
    Decidable (EarlierHolds store criteria env) :=
  inferInstanceAs (Decidable (_ ∧ _))

section

variable {store : Store} {criteria : Criteria} {env : Env}

theorem earlierHolds_iff (hchecked : Checked criteria) (hread : Readable criteria) :
    EarlierHolds store criteria env ↔
      earlierTruth (clauseTruth store env) criteria = some true := by
  unfold EarlierHolds Holds earlierTruth
  rw [truth_eq (hchecked.of_mem fun _ => mem_of_mem_earlier)
    fun clause hmem => hread clause (mem_of_mem_earlier hmem)]
  by_cases hempty : earlier criteria = [] <;> simp [hempty]

theorem holds_lastPiece_iff (hchecked : Checked criteria) (hread : Readable criteria) :
    Holds store (lastPiece criteria) env ↔
      truthOfClauses (values (clauseTruth store env) (lastPiece criteria)) = some true := by
  unfold Holds
  rw [truth_eq (hchecked.of_mem fun _ => mem_of_mem_lastPiece)
    fun clause hmem => hread clause (mem_of_mem_lastPiece hmem)]

theorem holds_iff (hchecked : Checked criteria) (hread : Readable criteria) :
    Holds store criteria env ↔
      EarlierHolds store criteria env ∨ Holds store (lastPiece criteria) env := by
  rw [earlierHolds_iff hchecked hread, holds_lastPiece_iff hchecked hread, ← truthOr_eq_true,
    ← truthOfClauses_values, ← truth_eq hchecked hread]
  exact Iff.rfl

/-- The test that a store makes of clauses holds where the clauses do. -/
theorem holds_of_expr? (hne : criteria ≠ []) (hchecked : Checked criteria) {test : Expr}
    (htest : expr? criteria = some test) (scope : Scope) (tuple : Tuple) :
    store.holds scope test tuple = true ↔ Holds store criteria [⟨scope, tuple⟩] := by
  have htext : text? criteria = some (Criteria.text criteria) := by
    simp [text?, hne]
  have hholds : store.holds scope test tuple = true ↔
      test.truth store [⟨scope, tuple⟩] = some true := by
    simp [Store.holds, Expr.truth]
  rw [hholds, Holds, truth, htext]
  simp only [readTest?_text hne hchecked, htest, Option.bind_some]

end

end Criteria

/-! The rows of an entity beside a condition and a key. -/

section Rows

variable (store : Store) (scope : Scope) (criteria : Criteria)

/-- The row meets the clauses, read on their own. -/
def Criteria.Meets (row : Row) : Prop :=
  Criteria.truth store [⟨scope, [row]⟩] criteria = some true

/-- The row meets the clauses before the last OR, read on their own. -/
def Criteria.MeetsEarlier (row : Row) : Prop :=
  Criteria.earlier criteria ≠ [] ∧ Criteria.Meets store scope (Criteria.earlier criteria) row

instance (row : Row) : Decidable (criteria.Meets store scope row) :=
  inferInstanceAs (Decidable (_ = _))

instance (row : Row) : Decidable (criteria.MeetsEarlier store scope row) :=
  inferInstanceAs (Decidable (_ ∧ _))

end Rows

/-- The row has the key. -/
def Entity.HasKey (e : Entity) (scope : Scope) (id : Value) (row : Row) : Prop :=
  e.keyTruth [⟨scope, [row]⟩] id = some true

instance (e : Entity) (scope : Scope) (id : Value) (row : Row) :
    Decidable (e.HasKey scope id row) :=
  inferInstanceAs (Decidable (_ = _))

/-- The row is one of those that are found by a key and a condition: the key binds the clauses
behind the last OR alone. -/
def Entity.Selects (e : Entity) (store : Store) (scope : Scope) (criteria : Criteria) (id : Value)
    (row : Row) : Prop :=
  criteria.MeetsEarlier store scope row ∨
    ((Criteria.lastPiece criteria).Meets store scope row ∧ e.HasKey scope id row)

instance (e : Entity) (store : Store) (scope : Scope) (criteria : Criteria) (id : Value)
    (row : Row) : Decidable (e.Selects store scope criteria id row) :=
  inferInstanceAs (Decidable (_ ∨ _))

section

variable {store : Store} {scope : Scope} {criteria : Criteria} {e : Entity} {id : Value} {row : Row}

theorem Criteria.meets_iff (hchecked : Criteria.Checked criteria)
    (hread : Criteria.Readable criteria) :
    criteria.Meets store scope row ↔
      criteria.MeetsEarlier store scope row ∨
        (Criteria.lastPiece criteria).Meets store scope row :=
  Criteria.holds_iff hchecked hread

theorem Entity.checked_keyed (he : e.Plain) (hchecked : Criteria.Checked criteria)
    (id : Value) :
    Criteria.Checked (criteria ++ [(.and, .compare e.qualifiedKey .eq id)]) :=
  Criteria.checked_iff.mpr fun clause hmem => by
    rcases List.mem_append.mp hmem with hmem | hmem
    · exact Criteria.checked_iff.mp hchecked clause hmem
    · rw [List.mem_singleton.mp hmem]
      exact IsPlainColumn.valid (Entity.plain_qualifiedKey he)

theorem Entity.holds_iff_selects (he : e.Plain) (hchecked : Criteria.Checked criteria)
    {test : Expr}
    (htest : Criteria.expr? (criteria ++ [(.and, .compare e.qualifiedKey .eq id)]) = some test) :
    store.holds scope test [row] = true ↔ e.Selects store scope criteria id row := by
  have hall := Criteria.readable_of_expr? htest
  have hread : Criteria.Readable criteria := fun clause hmem =>
    hall clause (List.mem_append_left _ hmem)
  have hkeyed := Entity.checked_keyed he hchecked id
  obtain ⟨key, hkey, hkeytruth⟩ := Entity.expr?_key he id
  have hclause : Criteria.clauseTruth store [⟨scope, [row]⟩] (.compare e.qualifiedKey .eq id) =
      e.keyTruth [⟨scope, [row]⟩] id := by
    simp only [Criteria.clauseTruth, hkey, Option.bind_some, hkeytruth]
  rw [Criteria.holds_of_expr? (by simp) hkeyed htest, Criteria.Holds, Criteria.truth_eq hkeyed hall,
    Criteria.truthOfClauses_append, truthOr_eq_true, truthAnd_eq_true, hclause,
    ← Criteria.earlierHolds_iff hchecked hread, ← Criteria.holds_lastPiece_iff hchecked hread]
  exact Iff.rfl

/-- What is selected has the key and meets the condition exactly where no row meets the clauses
before the last OR without the key. -/
theorem Entity.selects_iff (hchecked : Criteria.Checked criteria)
    (hread : Criteria.Readable criteria) :
    (e.Selects store scope criteria id row ↔
        e.HasKey scope id row ∧ criteria.Meets store scope row) ↔
      (criteria.MeetsEarlier store scope row → e.HasKey scope id row) := by
  rw [Criteria.meets_iff hchecked hread]
  unfold Entity.Selects
  grind

end

/-- The query for the first row with a key. -/
def Query.keyed (q : Query) (id : Value) : Query :=
  { q.addCriteria [(.and, .compare q.entity.qualifiedKey .eq id)] with limit := some 1 }

theorem Query.exec_findOrFail (q : Query) (id : Value) (session : Session) :
    ((q.findOrFail id).exec session).1 =
      match (q.keyed id).rows session.store with
      | .error fault => .error (.storage fault)
      | .ok [] => .error (.notFound q.entity.table id.display)
      | .ok (row :: _) => .ok row := by
  obtain ⟨events, hfetch⟩ := (q.keyed id).exec_fetchAll session
  have hfirst : Query.first (q.addCriteria [(.and, .compare q.entity.qualifiedKey .eq id)]) =
      (q.keyed id).fetchAll >>= fun rows => pure rows.head? := rfl
  unfold findOrFail
  rw [hfirst, Run.exec_bind, Run.exec_bind, hfetch]
  rcases (q.keyed id).rows session.store with fault | _ | ⟨row, rows⟩ <;> rfl

namespace Store

theorem select_first {store : Store} {s : Select} {p : Prepared} {test : Expr}
    (hp : store.prepare false s.source s.columns = .ok p) (hjoins : s.source.joins = [])
    (horder : s.order = []) (hlimit : s.limit = some 1) (hoffset : s.offset = none)
    (htest : p.test = some test) :
    store.select s = p.records ((p.first.rows.find? fun row =>
      store.holds p.scope test [row]).toList.map fun row => [row]) := by
  rw [select_one hp hjoins horder hlimit hoffset, htest]
  rfl

end Store

/-- What is found by a key and a condition is the first row that they select, if it can be read,
with its relations; nothing is found where no row is selected. -/
theorem Entity.findOneOrFail_outcome {e : Entity} (he : e.Plain) {id : Value}
    {condition : Condition} {columns : List String} {relations : List RelationRequest}
    {session between : Session} {q : Query} {p : Store.Prepared}
    (hq : (e.detailQuery condition columns relations).exec session = (.ok q, between))
    (hp : session.store.prepare false (q.keyed id).source (q.keyed id).projection = .ok p) :
    ((e.findOneOrFail id columns condition relations).exec session).1 =
      match p.first.rows.find? fun row =>
        e.Selects session.store p.scope q.criteria id row with
      | none => .error (.notFound e.table id.display)
      | some row =>
        match p.records [[row]] >>= EagerLoad.attachAll session.store q.loads with
        | .error fault => .error (.storage fault)
        | .ok [] => .error (.notFound e.table id.display)
        | .ok (found :: _) => .ok found := by
  obtain ⟨hstore, criteria, shown, loads, hcriteria, rfl⟩ := Entity.of_detailQuery hq
  have hexec : (e.findOneOrFail id columns condition relations).exec session = Run.exec
      (Query.findOrFail { entity := e, columns := shown, criteria := criteria, loads := loads } id)
      between := by
    unfold findOneOrFail
    rw [Run.exec_bind, hq]
  rw [hexec, Query.exec_findOrFail, hstore]
  obtain ⟨parts⟩ := Store.preparedBy_of_prepare hp
  have hchecked := Condition.checked_criteria he hcriteria
  have htest : ∃ test, p.test = some test ∧
      Criteria.expr? (criteria ++ [(.and, .compare e.qualifiedKey .eq id)]) = some test := by
    have hprepared := parts.test_eq
    exact Store.test_of_prepareTest (by simp) (checked_keyed he hchecked id) hprepared
  obtain ⟨test, htest, hexpr⟩ := htest
  have hselect := Store.select_first (s := (Query.keyed
    { entity := e, columns := shown, criteria := criteria, loads := loads } id).toSelect)
    hp rfl rfl rfl rfl htest
  -- the tests of single rows agree, so the first rows that meet them do
  have hfind : (p.first.rows.find? fun row => session.store.holds p.scope test [row]) =
      p.first.rows.find? fun row => e.Selects session.store p.scope criteria id row := by
    congr 1
    funext row
    exact Bool.eq_iff_iff.mpr ((holds_iff_selects he hchecked hexpr).trans decide_eq_true_iff.symm)
  rw [hfind] at hselect
  have hrows : (Query.keyed { entity := e, columns := shown, criteria := criteria, loads := loads }
      id).rows session.store = p.records ((p.first.rows.find? fun row =>
        e.Selects session.store p.scope criteria id row).toList.map fun row => [row]) >>=
          EagerLoad.attachAll session.store loads := by
    unfold Query.rows
    rw [hselect]
    rfl
  rw [hrows]
  cases p.first.rows.find? fun row => e.Selects session.store p.scope criteria id row with
  | none =>
    have hnone : p.records [] >>= EagerLoad.attachAll session.store loads = .ok [] :=
      EagerLoad.attachAll_nil ..
    rw [Option.toList_none, List.map_nil, hnone]
  | some row => rfl

theorem Criteria.not_meetsEarlier {criteria : Criteria}
    (h : ∀ clause ∈ criteria.tail, clause.1 = .and) (store : Store) (scope : Scope) (row : Row) :
    ¬criteria.MeetsEarlier store scope row :=
  fun hmeets => hmeets.1 (Criteria.earlier_nil h)

/-- The row is what is asked for: it has the key and meets the condition. -/
def Entity.Wanted (e : Entity) (store : Store) (scope : Scope) (criteria : Criteria) (id : Value)
    (row : Row) : Prop :=
  e.HasKey scope id row ∧ criteria.Meets store scope row

/-- The record is the row as it is shown, with its relations. -/
def Query.Gives (q : Query) (store : Store) (p : Store.Prepared) (row : Row) (found : Record) :
    Prop :=
  EagerLoad.attachAll store q.loads [Store.record p.scope p.columns [row]] = .ok [found]

section

variable {e : Entity} {id : Value} {condition : Condition} {columns : List String}
  {relations : List RelationRequest} {session between : Session} {q : Query} {p : Store.Prepared}

theorem Entity.findOneOrFail_ok (he : e.Plain)
    (hq : (e.detailQuery condition columns relations).exec session = (.ok q, between))
    (hp : session.store.prepare false (q.keyed id).source (q.keyed id).projection = .ok p)
    {found : Record} {after : Session}
    (h : (e.findOneOrFail id columns condition relations).exec session = (.ok found, after)) :
    ∃ row ∈ p.first.rows, q.Gives session.store p row found ∧
      e.Selects session.store p.scope q.criteria id row := by
  have houtcome := findOneOrFail_outcome he hq hp
  rw [h] at houtcome
  split at houtcome
  next => cases houtcome
  next row hrow =>
    have hselects := List.find?_some hrow
    refine ⟨row, List.mem_of_find?_eq_some hrow, ?_, by simpa using hselects⟩
    split at houtcome
    next => cases houtcome
    next => cases houtcome
    next given rest hgives =>
      cases houtcome
      obtain ⟨records, hrecords, hgives⟩ := Except.of_bind_ok hgives
      rw [(Store.Prepared.records_eq_ok_iff.mp hrecords).2] at hgives
      have hlength := EagerLoad.length_attachAll hgives
      have hrest : rest = [] := by simpa using hlength
      rw [hrest] at hgives
      exact hgives

theorem Entity.findOneOrFail_notFound (he : e.Plain)
    (hq : (e.detailQuery condition columns relations).exec session = (.ok q, between))
    (hp : session.store.prepare false (q.keyed id).source (q.keyed id).projection = .ok p) :
    ((e.findOneOrFail id columns condition relations).exec session).1 =
        .error (.notFound e.table id.display) ↔
      ∀ row ∈ p.first.rows, ¬e.Selects session.store p.scope q.criteria id row := by
  rw [findOneOrFail_outcome he hq hp]
  cases hfind : p.first.rows.find? fun row =>
      e.Selects session.store p.scope q.criteria id row with
  | none =>
    have hnone := List.find?_eq_none.mp hfind
    simpa using hnone
  | some row =>
    have hselects := List.find?_some hfind
    have hmem := List.mem_of_find?_eq_some hfind
    dsimp only
    constructor
    · intro h
      split at h
      next => cases h
      next hgives =>
        obtain ⟨records, hrecords, hgives⟩ := Except.of_bind_ok hgives
        rw [(Store.Prepared.records_eq_ok_iff.mp hrecords).2] at hgives
        have hlength := EagerLoad.length_attachAll hgives
        simp at hlength
      next => cases h
    · intro h
      exact absurd (by simpa using hselects) (h row hmem)

/-- The row found is the wanted one unless it meets the clauses before the last OR and has another
key; and nothing is found exactly where no row meets those clauses or is wanted. -/
theorem Entity.findOneOrFail_finds_wanted_unless_earlier (he : e.Plain)
    (hq : (e.detailQuery condition columns relations).exec session = (.ok q, between))
    (hp : session.store.prepare false (q.keyed id).source (q.keyed id).projection = .ok p) :
    condition.criteria e = .ok q.criteria ∧
    (∀ found after,
      (e.findOneOrFail id columns condition relations).exec session = (.ok found, after) →
      ∃ row ∈ p.first.rows, q.Gives session.store p row found ∧
        (e.Wanted session.store p.scope q.criteria id row ↔
          (q.criteria.MeetsEarlier session.store p.scope row → e.HasKey p.scope id row))) ∧
    (((e.findOneOrFail id columns condition relations).exec session).1 =
        .error (.notFound e.table id.display) ↔
      ∀ row ∈ p.first.rows, ¬(q.criteria.MeetsEarlier session.store p.scope row ∨
        e.Wanted session.store p.scope q.criteria id row)) ∧
    ((∀ row ∈ p.first.rows,
        q.criteria.MeetsEarlier session.store p.scope row → e.HasKey p.scope id row) →
      (∀ found after,
        (e.findOneOrFail id columns condition relations).exec session = (.ok found, after) →
        ∃ row ∈ p.first.rows, q.Gives session.store p row found ∧
          e.Wanted session.store p.scope q.criteria id row) ∧
      (((e.findOneOrFail id columns condition relations).exec session).1 =
          .error (.notFound e.table id.display) ↔
        ∀ row ∈ p.first.rows, ¬e.Wanted session.store p.scope q.criteria id row)) ∧
    ((∀ clause ∈ q.criteria.tail, clause.1 = .and) →
      ∀ row, ¬q.criteria.MeetsEarlier session.store p.scope row) := by
  have hok : ∀ {found after},
      (e.findOneOrFail id columns condition relations).exec session = (.ok found, after) →
      ∃ row ∈ p.first.rows, q.Gives session.store p row found ∧
        e.Selects session.store p.scope q.criteria id row :=
    findOneOrFail_ok he hq hp
  have hnone := findOneOrFail_notFound he hq hp
  obtain ⟨_, criteria, shown, loads, hcriteria, rfl⟩ := Entity.of_detailQuery hq
  obtain ⟨parts⟩ := Store.preparedBy_of_prepare hp
  have hchecked := Condition.checked_criteria he hcriteria
  obtain ⟨test, _, hexpr⟩ := Store.test_of_prepareTest (by simp) (checked_keyed he hchecked id)
    parts.test_eq
  have hread : Criteria.Readable criteria := fun clause hmem =>
    Criteria.readable_of_expr? hexpr clause (List.mem_append_left _ hmem)
  have hexact : ∀ row, (e.Selects session.store p.scope criteria id row ↔
      e.Wanted session.store p.scope criteria id row) ↔
        (criteria.MeetsEarlier session.store p.scope row → e.HasKey p.scope id row) :=
    fun row => selects_iff hchecked hread
  have hselects : ∀ row, e.Selects session.store p.scope criteria id row ↔
      criteria.MeetsEarlier session.store p.scope row ∨
        e.Wanted session.store p.scope criteria id row := by
    intro row
    unfold Entity.Selects Entity.Wanted
    rw [Criteria.meets_iff hchecked hread]
    grind
  refine ⟨hcriteria, ?_, ?_, ?_, fun htail row => Criteria.not_meetsEarlier htail _ _ row⟩
  · intro found after hfound
    obtain ⟨row, hmem, hgives, hselected⟩ := hok hfound
    exact ⟨row, hmem, hgives, by rw [← hexact row, iff_true_left hselected]⟩
  · rw [hnone]
    simp only [hselects]
  · intro hkeys
    have hwanted : ∀ row ∈ p.first.rows, (e.Selects session.store p.scope criteria id row ↔
        e.Wanted session.store p.scope criteria id row) :=
      fun row hmem => (hexact row).mpr (hkeys row hmem)
    refine ⟨fun found after hfound => ?_, ?_⟩
    · obtain ⟨row, hmem, hgives, hselected⟩ := hok hfound
      exact ⟨row, hmem, hgives, (hwanted row hmem).mp hselected⟩
    · rw [hnone]
      exact forall₂_congr fun row hmem => not_congr (hwanted row hmem)

end

namespace Shop

def twoTeams : Store where
  tables := [{ schema := teamSchema, rows := [[.int 1, .text "a"], [.int 2, .text "b"]] }]

/-- Asked for the second team among those of two names, the first one comes back. -/
theorem findOneOrFail_finds_other_team :
    (((teams.findOneOrFail (.int 2) []
        [("name", some (.compare .eq (.text "a"))), ("name", some (.orEq (.text "b")))] []).exec
          { store := twoTeams }).1.toOption.map fun found => found.value "id") = some (.int 1) := by
  decide +kernel

theorem plain_teams : teams.Plain where
  table := by decide +kernel
  key := by decide +kernel
  relations := by simp [teams]

/-- Without OR in the condition the second team comes back. -/
theorem findOneOrFail_finds_wanted_team :
    ∃ q between p,
      (teams.detailQuery [("name", some (.compare .eq (.text "b")))] ["name"] []).exec
        { store := twoTeams } = (.ok q, between) ∧
      twoTeams.prepare false (q.keyed (.int 2)).source (q.keyed (.int 2)).projection = .ok p ∧
      ∀ found after,
        (teams.findOneOrFail (.int 2) ["name"] [("name", some (.compare .eq (.text "b")))] []).exec
          { store := twoTeams } = (.ok found, after) →
        ∃ row ∈ p.first.rows, q.Gives twoTeams p row found ∧
          teams.Wanted twoTeams p.scope q.criteria (.int 2) row := by
  let q : Query :=
    { entity := teams, columns := ["name"], criteria := [(.and, .compare "name" .eq (.text "b"))] }
  have hq : (teams.detailQuery [("name", some (.compare .eq (.text "b")))] ["name"] []).exec
      { store := twoTeams } = (.ok q, { store := twoTeams }) := rfl
  have hprepared : (twoTeams.prepare false (q.keyed (.int 2)).source
      (q.keyed (.int 2)).projection).toOption.isSome = true := by
    decide +kernel
  cases hp : twoTeams.prepare false (q.keyed (.int 2)).source (q.keyed (.int 2)).projection with
  | error fault =>
    rw [hp] at hprepared
    cases hprepared
  | ok p =>
    have h := Entity.findOneOrFail_finds_wanted_unless_earlier plain_teams hq hp
    have hearlier := h.2.2.2.2 (by simp [q])
    exact ⟨q, _, p, hq, hp,
      (h.2.2.2.1 fun row _ hmeets => absurd hmeets (hearlier row)).1⟩

end Shop

end TableQuery
