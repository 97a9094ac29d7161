import TableQuery.Proofs.ListedRows

namespace TableQuery

open Sql

def Schema.namedCell (s : Schema) (row : Row) (name : String) : Cell :=
  match s.index? name with
  | some i => ⟨(s.cells[i]?).map Column.affinity, Row.cell row i⟩
  | none => ⟨none, .null⟩

/-- A name that the innermost table knows is looked up in its row. -/
theorem Env.cell_innerLevel {shown name : String} {schema : Schema} {table : Option String}
    (htable : ∀ known, table = some known → Scope.isTable known shown schema = true)
    (hname : (schema.index? name).isSome) (row : Row) (env : Env) :
    Env.cell (Expr.innerLevel shown schema row :: env) table name = schema.namedCell row name := by
  obtain ⟨i, hi⟩ := Option.isSome_iff_exists.mp hname
  have horigin : (Expr.innerLevel shown schema row).scope.origin table name =
      .ok (some (.cell ⟨0, i⟩)) := by
    cases table with
    | none => simp [Expr.innerLevel, Scope.origin, Scope.placesFrom, hi]
    | some known =>
      simp [Expr.innerLevel, Scope.origin, Scope.placesFrom, hi, htable known rfl]
  simp only [Env.cell, Env.lookup, horigin, Schema.namedCell, hi]
  rfl

theorem Scope.isTable_self (name : String) (schema : Schema) :
    isTable name name schema = true := by
  have hsame : Text.sameName name name = true := Text.sameName_iff.mpr rfl
  simp [isTable, hsame]

namespace Predicate

/-- What a predicate on a relation asks of a cell of a related row. -/
def ofRelated : Predicate → Cell → Option Bool
  | has _ value, c => Test.compareMeaning .eq value c
  | hasLike _ text, c => Test.containsMeaning text c
  | hasBetween _ low high, c => Test.betweenMeaning low high c
  | _, _ => none

theorem test_of_relation? {p : Predicate} {e : Entity} {r : Relation} {name column : String}
    {clause : Clause} (hcolumn : IsPlainColumn column) (hname : p.relation? = some name)
    (hr : e.relation name = .ok r) (h : p.clause e column = .ok clause) :
    ∃ t : Test, clause = (.and, .has e.table r [(.and, t)]) ∧ t.Plain ∧
      (∀ store, t.Apart store) ∧
      ∀ store env, t.meaning store env = p.ofRelated (env.columnCell column) := by
  have hrelated : ∀ {t : Test}, (e.relation name >>= fun found =>
      Except.ok (Connector.and, Test.has e.table found [(.and, t)])) = .ok clause →
      clause = (.and, .has e.table r [(.and, t)]) := by
    intro t h
    obtain ⟨found, hfound, hclause⟩ := clause_related h
    obtain rfl := Except.ok.inj (hfound.symm.trans hr)
    exact hclause
  cases p with
  | has relation value =>
    cases hname
    exact ⟨_, hrelated h, hcolumn, fun _ => trivial, fun _ _ => rfl⟩
  | hasLike relation text =>
    cases hname
    exact ⟨_, hrelated h, hcolumn, fun _ => trivial, fun _ _ => rfl⟩
  | hasBetween relation low high =>
    cases hname
    refine ⟨_, hrelated h, hcolumn, fun _ => trivial, fun store env => ?_⟩
    rw [Test.meaning]
    rfl
  | _ => cases hname

end Predicate

/-- A test of related rows asks for one whose key equals that of the parent, where the names of the
parent are looked up among those of the related row first. -/
theorem Test.expr?_has (parent : String) (r : Relation) {t : Test} (ht : t.Plain) :
    ∃ e, (Test.has parent r [(.and, t)]).expr? =
        some (.anyRow r.table r.table ((keysEqual parent r).both e)) ∧
      ∀ store env, t.Apart store → e.truth store env = t.meaning store env := by
  obtain ⟨ts, hts, hbegins⟩ := Test.tokens?_plain ht
  obtain ⟨e, he, htruth⟩ := Test.expr?_meaning ht
  have htokens : Criteria.tokens? [(Connector.and, t)] = some ts := by
    simp [Criteria.tokens?, Criteria.restTokens?, hts]
  have hquery : beginsQuery ts = false := by
    simpa using hbegins []
  have hchain : chain? (Criteria.exprs [(Connector.and, t)]) = some e := by
    rw [Criteria.exprs, he]
    rfl
  refine ⟨e, ?_, htruth⟩
  simp [Test.expr?, htokens, hquery, hchain]

/-- A predicate on a column, with what its names lead to: a relation, its table, and a column of
that table. -/
structure RelatedSearch where
  column : String
  predicate : Predicate
  relation : Relation
  table : Table
  field : String

namespace RelatedSearch

variable {s : RelatedSearch} {e : Entity} {store : Store}

def entry (s : RelatedSearch) : String × Predicate :=
  (s.column, s.predicate)

/-- The table of the relation goes by the name of the entity's own table. -/
def own (s : RelatedSearch) (e : Entity) : Bool :=
  Scope.isTable e.table s.relation.table s.table.schema

/-- The names of a search lead where it says. -/
structure Leads (s : RelatedSearch) (e : Entity) (store : Store) : Prop where
  relation : ∃ name, s.predicate.relation? = some name ∧ e.relation name = .ok s.relation
  table : store.readable? none s.relation.table = some s.table
  column : s.column = s.field ∨ s.column = s.relation.table ++ "." ++ s.field
  plain : IsPlain s.field
  field : (s.table.schema.index? s.field).isSome
  relatedKey : (s.table.schema.index? s.relation.relatedKey).isSome
  parentKey : s.own e = true → (s.table.schema.index? s.relation.parentKey).isSome

/-- Some row of the relation's table has a key that equals the one beside it and meets the test in
the column. -/
def Finds (s : RelatedSearch) (key : Row → Cell) : Prop :=
  ∃ row ∈ s.table.rows,
    Cell.compare .eq (s.table.schema.namedCell row s.relation.relatedKey) (key row) = some true ∧
    s.predicate.ofRelated (s.table.schema.namedCell row s.field) = some true

instance (s : RelatedSearch) (key : Row → Cell) : Decidable (s.Finds key) :=
  inferInstanceAs (Decidable (∃ _ ∈ _, _))

def parentCell (s : RelatedSearch) (e : Entity) (env : Env) : Cell :=
  env.cell (some e.table) s.relation.parentKey

/-- The key that a related row is compared with: in the entity's own table it is one of its own
cells, whatever the row of the entity is. -/
def comparedCell (s : RelatedSearch) (e : Entity) (env : Env) (row : Row) : Cell :=
  if s.own e then s.table.schema.namedCell row s.relation.parentKey else s.parentCell e env

theorem Leads.plain_column (h : s.Leads e store) (he : e.Plain) : IsPlainColumn s.column := by
  obtain ⟨name, _, hr⟩ := h.relation
  rcases h.column with hcolumn | hcolumn
  · exact .inl (hcolumn ▸ h.plain)
  · exact .inr ⟨_, _, hcolumn, (Entity.plain_of_relation he hr).1, h.plain⟩

theorem Leads.columnCell (h : s.Leads e store) (he : e.Plain) (row : Row) (env : Env) :
    Env.columnCell (Expr.innerLevel s.relation.table s.table.schema row :: env) s.column =
      s.table.schema.namedCell row s.field := by
  obtain ⟨name, _, hr⟩ := h.relation
  rcases h.column with hcolumn | hcolumn
  · simp only [Env.columnCell, hcolumn, Identifier.read?_name h.plain.1]
    exact Env.cell_innerLevel (fun _ hnone => by cases hnone) h.field row env
  · simp only [Env.columnCell, hcolumn,
      Identifier.read?_qualified (Entity.plain_of_relation he hr).1.1 h.plain.1]
    refine Env.cell_innerLevel (fun known hknown => ?_) h.field row env
    obtain rfl := Option.some.inj hknown
    exact Scope.isTable_self _ _

theorem Leads.relatedCell (h : s.Leads e store) (row : Row) (env : Env) :
    Env.cell (Expr.innerLevel s.relation.table s.table.schema row :: env) (some s.relation.table)
      s.relation.relatedKey = s.table.schema.namedCell row s.relation.relatedKey := by
  refine Env.cell_innerLevel (fun known hknown => ?_) h.relatedKey row env
  obtain rfl := Option.some.inj hknown
  exact Scope.isTable_self _ _

theorem Leads.comparedCell (h : s.Leads e store) (row : Row) (env : Env) :
    Env.cell (Expr.innerLevel s.relation.table s.table.schema row :: env) (some e.table)
      s.relation.parentKey = s.comparedCell e env row := by
  cases hown : s.own e with
  | true =>
    rw [RelatedSearch.comparedCell, if_pos hown]
    refine Env.cell_innerLevel (fun known hknown => ?_) (h.parentKey hown) row env
    obtain rfl := Option.some.inj hknown
    exact hown
  | false =>
    rw [RelatedSearch.comparedCell, hown]
    refine Env.cell_apart _ env (fun entry hmem => ?_) _
    rw [List.mem_singleton.mp hmem]
    exact hown

theorem Leads.clauseTruth_iff (h : s.Leads e store) (he : e.Plain) {clause : Clause}
    (hclause : s.predicate.clause e s.column = .ok clause) (env : Env) :
    Criteria.clauseTruth store env clause.2 = some true ↔ s.Finds (s.comparedCell e env) := by
  obtain ⟨name, hname, hr⟩ := h.relation
  obtain ⟨t, rfl, hplain, hapart, hmeaning⟩ :=
    Predicate.test_of_relation? (h.plain_column he) hname hr hclause
  obtain ⟨test, htest, htruth⟩ := Test.expr?_has e.table s.relation hplain
  have hkeys : ∀ row : Row, (keysEqual e.table s.relation).truth store
      (Expr.innerLevel s.relation.table s.table.schema row :: env) =
        Cell.compare .eq (s.table.schema.namedCell row s.relation.relatedKey)
          (s.comparedCell e env row) := by
    intro row
    rw [← h.comparedCell row env, ← h.relatedCell row env]
    exact Expr.truth_compare ..
  have hrow : ∀ row : Row, ((keysEqual e.table s.relation).both test).truth store
      (Expr.innerLevel s.relation.table s.table.schema row :: env) =
        truthAnd (Cell.compare .eq (s.table.schema.namedCell row s.relation.relatedKey)
          (s.comparedCell e env row))
          (s.predicate.ofRelated (s.table.schema.namedCell row s.field)) := by
    intro row
    rw [Expr.truth_both, hkeys, htruth store _ (hapart store), hmeaning, h.columnCell he]
  rw [Criteria.clauseTruth, htest, Option.bind_some, Expr.truth_anyRow, h.table, Option.map_some,
    Option.some.injEq, List.any_eq_true]
  simp only [hrow, decide_eq_true_eq, truthAnd_eq_true]
  exact Iff.rfl

end RelatedSearch

theorem Predicate.connector_of_relation? {p : Predicate} {name : String}
    (h : p.relation? = some name) : p.connector = .and := by
  cases p <;> first | rfl | cases h

/-- A list with tests of related rows brings the rows of the entity for which every test finds a
related row whose key equals the one that the store compares it with. That is the key of the row
itself, as long as no relation leads to the entity's own table; a test of such a relation says the
same of every row. -/
theorem Entity.related_tests_compare_keys {e : Entity} (he : e.Plain)
    {searches : List RelatedSearch} {columns : List String} {o : ListOptions}
    {session after : Session} {found : ListResult}
    (hleads : ∀ s ∈ searches, s.Leads e session.store) (hfilter : o.payloads = [])
    (h : (e.list columns (.ofEntries (searches.map RelatedSearch.entry)) o).exec session =
      (.ok found, after)) :
    ∃ q between,
      (e.listQuery columns (.ofEntries (searches.map RelatedSearch.entry)) o).exec session =
        (.ok q, between) ∧
      q.Brings session.store o.page
        (fun env => searches.all fun s => s.Finds (s.comparedCell e env)) found.records ∧
      ((∀ s ∈ searches, s.own e = false) →
        q.Brings session.store o.page
          (fun env => searches.all fun s => s.Finds fun _ => s.parentCell e env)
          found.records) ∧
      ∀ s ∈ searches, s.own e = true → ∀ env env',
        s.Finds (s.comparedCell e env) ↔ s.Finds (s.comparedCell e env') := by
  obtain ⟨q, between, hq, hbrings⟩ : ∃ q between,
      (e.listQuery columns (.ofEntries (searches.map RelatedSearch.entry)) o).exec session =
        (.ok q, between) ∧
      q.Brings session.store o.page
        (fun env => searches.all fun s => s.Finds (s.comparedCell e env)) found.records := by
    refine Entity.list_brings he hfilter (fun s hmem clause hclause => ?_) h
    obtain ⟨name, hname, _⟩ := (hleads s hmem).relation
    refine ⟨?_, fun env => ((hleads s hmem).clauseTruth_iff he hclause env).trans
      decide_eq_true_iff.symm⟩
    rw [(Predicate.clause_meaning hclause session.store []).1]
    exact Predicate.connector_of_relation? hname
  refine ⟨q, between, hq, hbrings, fun hothers => ?_, fun s _ hown env env' => ?_⟩
  · have hcell : ∀ env, (searches.all fun s => s.Finds (s.comparedCell e env)) =
        searches.all fun s => s.Finds fun _ => s.parentCell e env := by
      intro env
      refine Bool.eq_iff_iff.mpr ?_
      rw [List.all_eq_true, List.all_eq_true]
      refine forall₂_congr fun s hmem => ?_
      have hkey : s.comparedCell e env = fun _ => s.parentCell e env := by
        funext row
        rw [RelatedSearch.comparedCell, hothers s hmem]
        rfl
      rw [hkey]
    simpa only [hcell] using hbrings
  · have hkey : s.comparedCell e env = s.comparedCell e env' := by
      funext row
      rw [RelatedSearch.comparedCell, RelatedSearch.comparedCell, if_pos hown, if_pos hown]
    rw [hkey]

namespace Shop

/-- Orders that stand for others, whose number they have for a customer. -/
def linkedOrders : Entity :=
  { orders with relations := [.hasMany "linked" "orders" "customer_id" "id"] }

def linkedRows : List Row :=
  [[.int 1, .int 2, .real .zero, .null], [.int 2, .int 7, .real .zero, .null]]

def linkedStore : Store where
  tables := [{ schema := orderSchema, rows := linkedRows }]

def linkedToFirst : RelatedSearch where
  column := "id"
  predicate := .has "linked" (.int 1)
  relation := .hasMany "linked" "orders" "customer_id" "id"
  table := { schema := orderSchema, rows := linkedRows }
  field := "id"

/-- The first order is linked to the second one, which a list of the orders with that link does not
bring. -/
theorem list_misses_linked_order :
    linkedToFirst.Leads linkedOrders linkedStore ∧
    (∃ row ∈ linkedRows, linkedToFirst.Finds fun _ => orderSchema.namedCell row "id") ∧
    ((linkedOrders.list [] (.ofEntries [linkedToFirst.entry]) {}).exec
      { store := linkedStore }).1.toOption.map (fun found => found.records.length) = some 0 := by
  refine ⟨?_, by decide +kernel, by decide +kernel⟩
  exact
    { relation := ⟨"linked", rfl, rfl⟩
      table := by decide +kernel
      column := .inl rfl
      plain := by decide +kernel
      field := by decide +kernel
      relatedKey := by decide +kernel
      parentKey := by decide +kernel }

def teamTable : Table where
  schema := teamSchema
  rows := [[.int 1, .text "a"], [.int 2, .text "b"]]

def teamCustomers : Store where
  tables :=
    [teamTable,
     { schema := customerSchema
       rows :=
        [[.int 1, .text "x", .null, .int 1, .int 2, .null, .null, .null, .null],
         [.int 2, .text "y", .null, .int 1, .int 1, .null, .null, .null, .null]] }]

def ofTeamB : RelatedSearch where
  column := "name"
  predicate := .has "team" (.text "b")
  relation := .belongsTo "team" "teams" "team_id" "id"
  table := teamTable
  field := "name"

/-- The list of the customers of a team brings those whose key leads to it. -/
theorem list_brings_customers_of_team :
    ∃ (found : ListResult) (after : Session) (q : Query) (between : Session),
      (customers.list ["id"] (.ofEntries ([ofTeamB].map RelatedSearch.entry)) {}).exec
        { store := teamCustomers } = (.ok found, after) ∧
      found.records.map (fun row => row.value "id") = [.int 1] ∧
      (customers.listQuery ["id"] (.ofEntries ([ofTeamB].map RelatedSearch.entry)) {}).exec
        { store := teamCustomers } = (.ok q, between) ∧
      q.Brings teamCustomers none
        (fun env => [ofTeamB].all fun s => s.Finds fun _ => s.parentCell customers env)
        found.records := by
  have hread : ((customers.list ["id"] (.ofEntries ([ofTeamB].map RelatedSearch.entry)) {}).exec
      { store := teamCustomers }).1.toOption.any (fun found =>
        found.records.map (fun row => row.value "id") = [.int 1]) = true := by
    decide +kernel
  obtain ⟨found, after, hexec, hfound⟩ := Run.exists_of_any hread
  have hleads : ∀ s ∈ [ofTeamB], s.Leads customers teamCustomers := by
    intro s hmem
    rw [List.mem_singleton.mp hmem]
    exact
      { relation := ⟨"team", rfl, rfl⟩
        table := by decide +kernel
        column := .inl rfl
        plain := by decide +kernel
        field := by decide +kernel
        relatedKey := by decide +kernel
        parentKey := by decide +kernel }
  obtain ⟨q, between, hq, _, hothers, _⟩ :=
    Entity.related_tests_compare_keys plain_customers hleads rfl hexec
  have hteams : ∀ s ∈ [ofTeamB], s.own customers = false := by decide +kernel
  exact ⟨found, after, q, between, hexec, of_decide_eq_true hfound, hq, hothers hteams⟩

end Shop

end TableQuery
