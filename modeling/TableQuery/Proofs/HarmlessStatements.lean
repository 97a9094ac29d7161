import TableQuery.Proofs.HarmlessText
import TableQuery.Proofs.RejectedNames

namespace TableQuery

open Identifier Text

/-- The names that an entity brings into statements are identifiers, and so are those in the clauses
that its filter adds. -/
structure Entity.Spelled (e : Entity) : Prop where
  table : valid e.table = true
  primaryKey : valid e.primaryKey = true
  relations : ∀ r ∈ e.relations,
    valid r.table = true ∧ valid r.relatedKey = true ∧ valid r.parentKey = true
  filter : ∀ payload criteria, e.filterCriteria payload = .ok criteria → Criteria.Spelled criteria

theorem Entity.Spelled.relation {e : Entity} (he : e.Spelled) {name : String} {found : Relation}
    (h : e.relation name = .ok found) :
    valid found.table = true ∧ valid found.relatedKey = true ∧ valid found.parentKey = true :=
  he.relations found (List.mem_of_find?_eq_some (Predicate.find?_of_relation h))

theorem Condition.spelled_criteria {e : Entity} (he : e.Spelled) {condition : Condition}
    {criteria : Criteria} (h : condition.criteria e = .ok criteria) : Criteria.Spelled criteria := by
  refine criteria_induction (P := fun _ criteria => Criteria.Spelled criteria) trivial ?_ ?_ h
  · intro column condition criteria ih
    exact ih
  · intro column p condition clause criteria hcolumn hclause ih
    refine ⟨?_, ih⟩
    have hrelated : ∀ {name : String} (test : Test), test.Spelled →
        (e.relation name >>= fun found =>
          Except.ok (Connector.and, Test.has e.table found [(.and, test)])) = .ok clause →
        clause.2.Spelled := by
      intro name test htest h
      obtain ⟨found, hfound, rfl⟩ := Predicate.clause_related h
      obtain ⟨htable, hkey, howner⟩ := he.relation hfound
      exact ⟨he.table, htable, hkey, howner, htest, trivial⟩
    cases p with
    | has relation value => exact hrelated (.compare column .eq value) hcolumn hclause
    | hasLike relation text => exact hrelated (.contains column text) hcolumn hclause
    | hasBetween relation low high =>
      exact hrelated (.between column low high false) hcolumn hclause
    | activeOn day =>
      cases hclause
      exact he.table
    | memberOrNull values | orMemberNotNull values =>
      cases hclause
      exact ⟨hcolumn, hcolumn, trivial⟩
    | _ =>
      cases hclause
      exact hcolumn

theorem Join.clean_text {j : Join} (htable : Clean j.table) (hforeign : Clean j.foreignKey)
    (hprimary : Clean j.primaryKey) : Clean j.text := by
  have hkeyword : Clean j.kind.keyword := by
    cases j.kind <;> exact clean_of_all rfl
  have htarget : Clean (j.kind.keyword ++ " " ++ j.table ++ " ON ") :=
    ((hkeyword.append (t := " ") (clean_of_all rfl)).append htable).append (clean_of_all rfl)
  exact ((htarget.append hforeign).append (t := " = ") (clean_of_all rfl)).append hprimary

theorem SortKey.clean_text {key : SortKey} (h : Clean key.column) : Clean key.text := by
  have hkeyword : Clean key.direction.keyword := by
    cases key.direction <;> exact clean_of_all rfl
  exact (h.append (t := " ") (clean_of_all rfl)).append hkeyword

/-- What a query is made of holds nothing that a statement could be broken with. -/
structure Query.Spelled (q : Query) : Prop where
  entity : q.entity.Spelled
  columns : ∀ column ∈ q.columns, Clean column
  criteria : Criteria.Spelled q.criteria
  joins : ∀ join ∈ q.joins, Clean join.text
  order : ∀ key ∈ q.order, Clean key.text
  loads : ∀ load ∈ q.loads, Clean load.relation.parentKey
  window : Clean (Select.windowText q.limit q.offset)

namespace Query

variable {q made : Query}

theorem spelled_ofEntity {e : Entity} (he : e.Spelled) : (ofEntity e).Spelled where
  entity := he
  columns := by simp [ofEntity]
  criteria := trivial
  joins := by simp [ofEntity]
  order := by simp [ofEntity]
  loads := by simp [ofEntity]
  window := clean_of_all rfl

/-! Every step tests the names that it brings in. -/

theorem Spelled.addCriteria (hq : q.Spelled) {criteria : Criteria}
    (h : Criteria.Spelled criteria) : (q.addCriteria criteria).Spelled :=
  { hq with criteria := hq.criteria.append h }

theorem Spelled.join (hq : q.Spelled) {join : Join} {forced : Option JoinKind}
    (h : q.join join forced = .ok made) : made.Spelled := by
  obtain ⟨rfl, htable, hforeign, hprimary⟩ := of_join h
  refine { hq with joins := List.forall_mem_append.mpr ⟨hq.joins, ?_⟩ }
  rw [List.forall_mem_singleton]
  exact Join.clean_text (clean_of_valid htable) (clean_of_valid hforeign) (clean_of_valid hprimary)

theorem Spelled.orderBy (hq : q.Spelled) {key : SortKey} (h : q.orderBy key = .ok made) :
    made.Spelled := by
  obtain ⟨rfl, hvalid⟩ := of_orderBy h
  refine { hq with order := List.forall_mem_append.mpr ⟨hq.order, ?_⟩ }
  rw [List.forall_mem_singleton]
  exact SortKey.clean_text (clean_of_valid hvalid)

theorem Spelled.load (hq : q.Spelled) {request : RelationRequest}
    (h : q.load request = .ok made) : made.Spelled := by
  obtain ⟨relation, hrelation, rfl⟩ := of_load h
  refine { hq with loads := List.forall_mem_append.mpr ⟨hq.loads, ?_⟩ }
  rw [List.forall_mem_singleton]
  exact clean_of_valid (hq.entity.relation hrelation).2.2

theorem Spelled.applyOptions (hq : q.Spelled) {options : ListOptions}
    (h : q.applyOptions options = .ok made) : made.Spelled :=
  of_applyOptions Spelled.orderBy Spelled.load Spelled.join
    (fun hq hcriteria => hq.addCriteria (hq.entity.filter _ _ hcriteria)) hq h

/-! The texts of a query of clean parts. -/

theorem Spelled.clean_projection (hq : q.Spelled) : ∀ column ∈ q.projection, Clean column := by
  intro column hmem
  rcases of_mem_projection hmem with rfl | hmem | ⟨load, hload, rfl⟩
  · exact clean_of_all rfl
  · exact hq.columns column hmem
  · exact ((clean_of_valid hq.entity.table).append (t := ".") (clean_of_all rfl)).append
      (hq.loads load hload)

theorem clean_sourceText {table : String} {joins : List Join} {criteria : Criteria}
    (htable : Clean table) (hjoins : ∀ join ∈ joins, Clean join.text)
    (hcriteria : Criteria.Spelled criteria) : Clean (Source.mk table joins criteria).text := by
  have hjoined : Clean (String.join (joins.map fun join => " " ++ join.text)) := by
    induction joins with
    | nil => exact .nil
    | cons join joins ih =>
      rw [List.map_cons, String.join_cons]
      have hfirst : Clean (" " ++ join.text) :=
        (clean_of_all rfl).append (hjoins join List.mem_cons_self)
      exact hfirst.append (ih fun other hmem => hjoins other (List.mem_cons_of_mem _ hmem))
  unfold Source.text Criteria.text?
  have hfrom : Clean (" FROM " ++ table) := (clean_of_all rfl).append htable
  refine (hfrom.append hjoined).append ?_
  cases criteria.isEmpty with
  | true => exact .nil
  | false => exact Clean.append (s := " WHERE ") (clean_of_all rfl) (Criteria.clean_text hcriteria)

theorem Spelled.clean_source (hq : q.Spelled) : Clean q.source.text :=
  clean_sourceText (clean_of_valid hq.entity.table) hq.joins hq.criteria

theorem Spelled.clean_select (hq : q.Spelled) : Clean q.toSelect.text := by
  have horder : Clean (Select.orderText q.order) := by
    unfold Select.orderText
    split
    next => exact .nil
    next =>
      refine Clean.append (s := " ORDER BY ") (clean_of_all rfl) (Clean.commaList ?_)
      exact List.forall_mem_map.mpr hq.order
  have hcolumns : Clean ("SELECT " ++ commaList q.projection) :=
    (clean_of_all rfl).append (Clean.commaList hq.clean_projection)
  exact ((hcolumns.append hq.clean_source).append horder).append hq.window

theorem Spelled.clean_delete (hq : q.Spelled) {statement : Statement}
    (h : q.toDelete = .ok statement) : Clean statement.text := by
  unfold toDelete at h
  split at h
  next =>
    cases h
    exact Clean.append (s := "DELETE") (clean_of_all rfl)
      (clean_sourceText (clean_of_valid hq.entity.table) (by simp) hq.criteria)
  next => cases h

end Query

/-- The query of a list is made of identifiers, whatever names the caller gives. -/
theorem Entity.spelled_of_listQuery {e : Entity} (he : e.Spelled) {columns : List String}
    {condition : Condition} {options : ListOptions} {session after : Session} {q : Query}
    (h : (e.listQuery columns condition options).exec session = (.ok q, after)) : q.Spelled := by
  obtain ⟨_, criteria, hcriteria, hvalid, hmade⟩ := applyOptions_of_listQuery h
  have hstart : Query.Spelled { entity := e, columns := columns, criteria := criteria } :=
    { Query.spelled_ofEntity he with
      columns := fun column hmem => clean_of_valid (hvalid column hmem)
      criteria := Condition.spelled_criteria he hcriteria }
  exact hstart.applyOptions hmade

/-- No name that a caller gives breaks out of its place. The statements of a list hold nothing that
could end them or begin anything that was not meant, and a write of a column that is no identifier
is refused with the store as it was. -/
theorem Entity.names_do_no_harm {e : Entity} (he : e.Spelled) :
    (∀ columns condition options session after q,
      (e.listQuery columns condition options).exec session = (.ok q, after) →
        Harmless q.toSelect.text ∧ Harmless (Statement.count q.source).text ∧
          Harmless (Statement.anyRow q.source).text ∧
          ∀ statement, q.toDelete = .ok statement → Harmless statement.text) ∧
    ∀ moment (call : WriteCall) column session, call.Names column → valid column = false →
      ∃ cause operation, (call.run e moment).exec session =
        (.error (.invalid cause),
          { session with events := session.events ++ [.failed operation] }) := by
  refine ⟨fun columns condition options session after q h => ?_,
    fun moment call column session hnames hinvalid =>
      refuses_of_names he.primaryKey moment hnames hinvalid session⟩
  have hq := spelled_of_listQuery he h
  have hcount : Clean (Statement.count q.source).text :=
    Clean.append (s := "SELECT COUNT(*)") (clean_of_all rfl) hq.clean_source
  have hanyRow : Clean (Statement.anyRow q.source).text :=
    (Clean.append (s := "SELECT EXISTS(SELECT 1") (clean_of_all rfl) hq.clean_source).append
      (t := ")") (clean_of_all rfl)
  exact ⟨hq.clean_select.harmless, hcount.harmless, hanyRow.harmless,
    fun statement hdelete => (hq.clean_delete hdelete).harmless⟩

namespace Shop

theorem spelled_customers : customers.Spelled where
  table := by decide +kernel
  primaryKey := by decide +kernel
  relations := by decide +kernel
  filter := by
    intro payload criteria h
    obtain rfl := Except.ok.inj h
    unfold leastStatus
    split
    next =>
      have hstatus : valid "customers.status" = true := by decide +kernel
      exact ⟨hstatus, trivial⟩
    next => trivial

/-- A customer with a column that would close the list of columns. -/
def brokenCustomer : Record :=
  .ofList [("name", .text "a"), ("code) --", .null)]

/-- The quotes around the escape are the only ones in a search for names, and no customer is made
with a column that would close the list of columns. -/
theorem names_do_no_harm_to_customers :
    (∃ q after,
      (customers.listQuery ["name as n"] [("customers.name", some (.like "50%"))] {}).exec
          { store := emptyStore } = (.ok q, after) ∧
        q.toSelect.text =
          "SELECT name as n FROM customers WHERE customers.name LIKE ? ESCAPE '\\'" ∧
        Harmless q.toSelect.text) ∧
    ∃ cause operation,
      ((WriteCall.create brokenCustomer).run customers ⟨"now", ""⟩).exec { store := emptyStore } =
        (.error (.invalid cause), { store := emptyStore, events := [.failed operation] }) := by
  have hharmless := Entity.names_do_no_harm spelled_customers
  have hlist := hharmless.1 ["name as n"] [("customers.name", some (.like "50%"))] {}
    { store := emptyStore } _ _ rfl
  have hnames : "code) --" ∈ brokenCustomer.keys := by
    decide +kernel
  refine ⟨⟨_, _, rfl, by decide +kernel, hlist.1⟩, ?_⟩
  exact hharmless.2 ⟨"now", ""⟩ (.create brokenCustomer) "code) --" { store := emptyStore } hnames
    (by decide +kernel)

end Shop

end TableQuery
