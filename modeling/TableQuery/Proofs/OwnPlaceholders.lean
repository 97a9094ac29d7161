import TableQuery.Proofs.PlaceholderCount
import TableQuery.Proofs.QueryRun
import TableQuery.Shop

namespace TableQuery

open Sql

/-- The names that an entity brings into statements hold no placeholder, and its filter adds clauses
that are well marked. -/
structure Entity.WellMarked (e : Entity) : Prop where
  table : Unmarked e.table
  relations : ∀ r ∈ e.relations, Unmarked r.table ∧ Unmarked r.relatedKey ∧ Unmarked r.parentKey
  filter : ∀ payload criteria, e.filterCriteria payload = .ok criteria →
    Criteria.WellMarked criteria

/-- The clauses that a call adds by themselves are well marked; all other names are tested. -/
def QueryStep.WellMarked : QueryStep → Prop
  | .addCriteria criteria => Criteria.WellMarked criteria
  | _ => True

/-- What a query is made of holds no placeholder beside those of its clauses. -/
structure Query.WellMarked (q : Query) : Prop where
  entity : q.entity.WellMarked
  columns : ∀ column ∈ q.columns, Unmarked column
  criteria : Criteria.WellMarked q.criteria
  joins : ∀ join ∈ q.joins, Unmarked join.text
  order : ∀ key ∈ q.order, Unmarked key.text
  loads : ∀ load ∈ q.loads, Unmarked load.relation.parentKey

theorem Criteria.WellMarked.append {first second : Criteria} (h : Criteria.WellMarked first)
    (h' : Criteria.WellMarked second) : Criteria.WellMarked (first ++ second) := by
  rw [Criteria.wellMarked_iff] at *
  intro clause hmem
  exact (List.mem_append.mp hmem).elim (h clause) (h' clause)

theorem Entity.WellMarked.relation {e : Entity} (he : e.WellMarked) {name : String}
    {found : Relation} (h : e.relation name = .ok found) :
    Unmarked found.table ∧ Unmarked found.relatedKey ∧ Unmarked found.parentKey :=
  he.relations found (List.mem_of_find?_eq_some (Predicate.find?_of_relation h))

theorem Condition.wellMarked_criteria {e : Entity} (he : e.WellMarked) {condition : Condition}
    {criteria : Criteria} (h : condition.criteria e = .ok criteria) :
    Criteria.WellMarked criteria := by
  refine criteria_induction (P := fun _ criteria => Criteria.WellMarked criteria) trivial ?_ ?_ h
  · intro column condition criteria ih
    exact ih
  · intro column p condition clause criteria hvalid hclause ih
    have hcolumn : Unmarked column := Identifier.unmarked_of_valid hvalid
    refine ⟨?_, ih⟩
    have hrelated : ∀ {name : String} (test : Test), test.WellMarked →
        (e.relation name >>= fun found =>
          Except.ok (Connector.and, Test.has e.table found [(.and, test)])) = .ok clause →
        clause.2.WellMarked := by
      intro name test htest h
      obtain ⟨found, hfound, rfl⟩ := Predicate.clause_related h
      obtain ⟨htable, hkey, howner⟩ := he.relation hfound
      exact ⟨he.table, htable, hkey, howner, htest, trivial⟩
    cases p with
    | has relation value => exact hrelated (.compare column .eq value) hcolumn hclause
    | hasLike relation text => exact hrelated (.contains column text) hcolumn hclause
    | hasBetween relation low high =>
      exact hrelated (.between column low high false) hcolumn hclause
    | activeOn day =>
      cases hclause
      exact he.table
    | memberOrNull values =>
      cases hclause
      exact ⟨hcolumn, hcolumn, trivial⟩
    | orMemberNotNull values =>
      cases hclause
      exact ⟨hcolumn, hcolumn, trivial⟩
    | _ =>
      cases hclause
      exact hcolumn

theorem Join.unmarked_text {j : Join} (htable : Unmarked j.table)
    (hforeign : Unmarked j.foreignKey) (hprimary : Unmarked j.primaryKey) : Unmarked j.text := by
  have hkeyword : Unmarked j.kind.keyword := by
    cases j.kind <;> rfl
  unfold Join.text Unmarked
  simp only [Text.markCount_append]
  rw [htable, hforeign, hprimary, hkeyword]
  rfl

theorem SortKey.unmarked_text {key : SortKey} (h : Unmarked key.column) : Unmarked key.text := by
  have hkeyword : Unmarked key.direction.keyword := by
    cases key.direction <;> rfl
  exact (h.append (t := " ") rfl).append hkeyword

namespace Query

theorem wellMarked_ofEntity {e : Entity} (he : e.WellMarked) : (ofEntity e).WellMarked where
  entity := he
  columns := by simp [ofEntity]
  criteria := trivial
  joins := by simp [ofEntity]
  order := by simp [ofEntity]
  loads := by simp [ofEntity]

section

variable {q made : Query}

theorem WellMarked.addCriteria (hq : q.WellMarked) {criteria : Criteria}
    (h : Criteria.WellMarked criteria) : (q.addCriteria criteria).WellMarked :=
  { hq with criteria := hq.criteria.append h }

theorem WellMarked.select (hq : q.WellMarked) {columns : List String}
    (h : q.select columns = .ok made) : made.WellMarked := by
  obtain ⟨rfl, hvalid⟩ := of_select h
  exact { hq with columns := fun column hmem =>
    Identifier.unmarked_of_valid (hvalid column hmem) }

theorem WellMarked.filterBy (hq : q.WellMarked) {condition : Condition}
    (h : q.filterBy condition = .ok made) : made.WellMarked := by
  obtain ⟨criteria, hcriteria, rfl⟩ := Except.of_map_ok h
  exact hq.addCriteria (Condition.wellMarked_criteria hq.entity hcriteria)

theorem WellMarked.join (hq : q.WellMarked) {join : Join} {forced : Option JoinKind}
    (h : q.join join forced = .ok made) : made.WellMarked := by
  obtain ⟨rfl, htable, hforeign, hprimary⟩ := of_join h
  refine { hq with joins := fun other hmem => ?_ }
  rcases List.mem_append.mp hmem with hmem | hmem
  · exact hq.joins other hmem
  · rw [List.mem_singleton.mp hmem]
    exact Join.unmarked_text (Identifier.unmarked_of_valid htable)
      (Identifier.unmarked_of_valid hforeign) (Identifier.unmarked_of_valid hprimary)

theorem WellMarked.orderBy (hq : q.WellMarked) {key : SortKey} (h : q.orderBy key = .ok made) :
    made.WellMarked := by
  obtain ⟨rfl, hvalid⟩ := of_orderBy h
  refine { hq with order := fun other hmem => ?_ }
  rcases List.mem_append.mp hmem with hmem | hmem
  · exact hq.order other hmem
  · rw [List.mem_singleton.mp hmem]
    exact SortKey.unmarked_text (Identifier.unmarked_of_valid hvalid)

theorem WellMarked.load (hq : q.WellMarked) {request : RelationRequest}
    (h : q.load request = .ok made) : made.WellMarked := by
  obtain ⟨relation, hrelation, rfl⟩ := of_load h
  refine { hq with loads := fun load hmem => ?_ }
  rcases List.mem_append.mp hmem with hmem | hmem
  · exact hq.loads load hmem
  · rw [List.mem_singleton.mp hmem]
    exact (hq.entity.relation hrelation).2.2

theorem WellMarked.relate (hq : q.WellMarked) {requests : List RelationRequest}
    (h : q.relate requests = .ok made) : made.WellMarked :=
  Except.of_foldlM_ok (fun _ _ _ _ hq h => hq.load h) hq h

theorem WellMarked.applyOptions (hq : q.WellMarked) {options : ListOptions}
    (h : q.applyOptions options = .ok made) : made.WellMarked :=
  of_applyOptions WellMarked.orderBy WellMarked.load WellMarked.join
    (fun hq hcriteria => hq.addCriteria (hq.entity.filter _ _ hcriteria)) hq h

/-- Every call keeps a query well marked. -/
theorem WellMarked.applyCall (hq : q.WellMarked) {call : QueryStep} (hcall : call.WellMarked)
    (h : q.applyCall call = .ok made) : made.WellMarked := by
  cases call with
  | select columns => exact hq.select h
  | filterBy condition => exact hq.filterBy h
  | addCriteria criteria =>
    cases h
    exact hq.addCriteria hcall
  | join join forced => exact hq.join h
  | orderBy key => exact hq.orderBy h
  | load request => exact hq.load h
  | relate requests => exact hq.relate h
  | limit count =>
    cases h
    exact { hq with }
  | offset count =>
    cases h
    exact { hq with }
  | options options => exact hq.applyOptions h

theorem wellMarked_of_calls {e : Entity} (he : e.WellMarked) {calls : List QueryStep}
    (hcalls : ∀ call ∈ calls, call.WellMarked)
    (h : calls.foldlM Query.applyCall (ofEntity e) = .ok q) : q.WellMarked :=
  Except.of_foldlM_ok (fun call hmem _ _ hq h => hq.applyCall (hcalls call hmem) h)
    (wellMarked_ofEntity he) h

/-! The texts of the statements of a query. -/

theorem unmarked_projection (hq : q.WellMarked) : ∀ column ∈ q.projection, Unmarked column := by
  intro column hmem
  rcases of_mem_projection hmem with rfl | hmem | ⟨load, hload, rfl⟩
  · rfl
  · exact hq.columns column hmem
  · exact (hq.entity.table.append (t := ".") rfl).append (hq.loads load hload)

end

end Query

/-- What stands before the clauses of a source. -/
def Source.head (s : Source) : String :=
  " FROM " ++ s.table ++ String.join (s.joins.map fun join => " " ++ join.text) ++ " WHERE "

theorem Source.text_eq {s : Source} (h : s.criteria ≠ []) :
    s.text = s.head ++ Criteria.text s.criteria := by
  have htext : Criteria.text? s.criteria = some (Criteria.text s.criteria) := by
    simp [Criteria.text?, h]
  unfold text head
  rw [htext]
  simp only [String.append_assoc]

theorem Source.unmarked_joins {joins : List Join} (h : ∀ join ∈ joins, Unmarked join.text) :
    Unmarked (String.join (joins.map fun join => " " ++ join.text)) := by
  induction joins with
  | nil => rfl
  | cons join joins ih =>
    rw [List.map_cons, String.join_cons]
    have hfirst : Unmarked (" " ++ join.text) :=
      Unmarked.append (s := " ") rfl (h join List.mem_cons_self)
    exact hfirst.append (ih fun other hmem => h other (List.mem_cons_of_mem _ hmem))

theorem Source.unmarked_head {s : Source} (htable : Unmarked s.table)
    (hjoins : ∀ join ∈ s.joins, Unmarked join.text) : Unmarked s.head :=
  ((Unmarked.append (s := " FROM ") rfl htable).append (unmarked_joins hjoins)).append
    (t := " WHERE ") rfl

theorem Select.unmarked_orderText {order : List SortKey} (h : ∀ key ∈ order, Unmarked key.text) :
    Unmarked (orderText order) := by
  unfold orderText
  split
  next => rfl
  next =>
    refine Unmarked.append (s := " ORDER BY ") rfl (Unmarked.commaList fun name hname => ?_)
    obtain ⟨key, hkey, rfl⟩ := List.mem_map.mp hname
    exact h key hkey

theorem Select.unmarked_windowText (limit offset : Option Int) :
    Unmarked (windowText limit offset) := by
  have hlimit : ∀ n, Unmarked (" LIMIT " ++ Text.intText n) := fun n =>
    Unmarked.append (s := " LIMIT ") rfl (Text.markCount_intText n)
  unfold windowText
  dsimp only
  split
  next limit offset _ =>
    exact ((hlimit limit).append (t := " OFFSET ") rfl).append (Text.markCount_intText offset)
  next limit _ => exact hlimit limit
  next offset _ =>
    exact Unmarked.append (s := " LIMIT -1 OFFSET ") rfl (Text.markCount_intText offset)
  next => rfl

namespace Query

/-- The placeholders of a text of the query are as many as its values, and each clause, at whatever
depth, stands where its placeholders get the values that it was made with. The text before the
clauses is `start`. -/
def AlignedIn (q : Query) (start text : String) : Prop :=
  Text.markCount text = q.bindings.length ∧
    ∀ p ∈ Criteria.placed start [] q.criteria, p.Fits text q.bindings ∧
      ∀ head tail, p.test.text = head ++ "?" ++ tail →
        ∃ v, p.test.bindings[Text.markCount head]? = some v ∧
          q.bindings[Text.markCount (p.before ++ head)]? = some v

/-- Texts without placeholders around the source of a query do not disturb its clauses. -/
theorem WellMarked.alignedIn {q : Query} (hq : q.WellMarked) {start rest : String}
    (hstart : Unmarked start) (hrest : Unmarked rest) :
    q.AlignedIn (start ++ q.source.head) (start ++ q.source.text ++ rest) := by
  have hhead : Unmarked (start ++ q.source.head) :=
    hstart.append (Source.unmarked_head hq.entity.table hq.joins)
  have hrestmarks : Text.markCount rest = 0 := hrest
  by_cases hempty : q.criteria = []
  · have hnone : Criteria.text? q.source.criteria = none := by
      simp [Criteria.text?, source, hempty]
    have htext : Unmarked q.source.text := by
      unfold Source.text
      rw [hnone]
      exact ((Unmarked.append (s := " FROM ") rfl hq.entity.table).append
        (Source.unmarked_joins hq.joins)).append (t := "") rfl
    refine ⟨?_, ?_⟩
    · rw [bindings, hempty]
      exact (hstart.append htext).append hrest
    · intro p hp
      rw [hempty] at hp
      cases hp
  · have htext : start ++ q.source.text ++ rest =
        start ++ q.source.head ++ Criteria.text q.criteria ++ rest := by
      rw [Source.text_eq (s := q.source) hempty, ← String.append_assoc]
      rfl
    rw [htext]
    refine ⟨?_, fun p hp => ?_⟩
    · rw [Text.markCount_append, Text.markCount_append, hhead, hrestmarks,
        Criteria.markCount_text hq.criteria, Nat.zero_add, Nat.add_zero]
      rfl
    · have hmarks : Text.markCount (start ++ q.source.head) = ([] : List Value).length := hhead
      have hplaced := Criteria.fits_placed hq.criteria hmarks p hp
      have hfits := hplaced.append rest []
      rw [List.nil_append, List.append_nil] at hfits
      exact ⟨hfits, fun head tail hmark => hfits.received hmark⟩

/-- Every placeholder of the statements of a query gets the value of its own clause, however the
query was made. -/
theorem placeholders_get_own_values {e : Entity} (he : e.WellMarked) {calls : List QueryStep}
    (hcalls : ∀ call ∈ calls, call.WellMarked) {q : Query}
    (h : calls.foldlM applyCall (ofEntity e) = .ok q) :
    q.AlignedIn ("SELECT " ++ Text.commaList q.projection ++ q.source.head)
        (Statement.select q.toSelect).text ∧
      q.AlignedIn ("SELECT COUNT(*)" ++ q.source.head) (Statement.count q.source).text ∧
      ∀ statement, q.toDelete = .ok statement →
        q.AlignedIn ("DELETE" ++ q.source.head) statement.text := by
  have hq := wellMarked_of_calls he hcalls h
  refine ⟨?_, ?_, ?_⟩
  · have hstart : Unmarked ("SELECT " ++ Text.commaList q.projection) :=
      Unmarked.append (s := "SELECT ") rfl (Unmarked.commaList (unmarked_projection hq))
    have hrest : Unmarked (Select.orderText q.order ++ Select.windowText q.limit q.offset) :=
      (Select.unmarked_orderText hq.order).append (Select.unmarked_windowText _ _)
    have haligned := hq.alignedIn hstart hrest
    rw [← String.append_assoc] at haligned
    exact haligned
  · have haligned : q.AlignedIn ("SELECT COUNT(*)" ++ q.source.head)
        ("SELECT COUNT(*)" ++ q.source.text ++ "") := hq.alignedIn rfl rfl
    rwa [String.append_empty] at haligned
  · intro statement hdelete
    have haligned : q.AlignedIn ("DELETE" ++ q.source.head) ("DELETE" ++ q.source.text ++ "") :=
      hq.alignedIn rfl rfl
    rw [String.append_empty] at haligned
    unfold toDelete at hdelete
    split at hdelete
    next hjoins =>
      cases hdelete
      have hsource : q.source = ⟨q.entity.table, [], q.criteria⟩ := by
        rw [source, List.isEmpty_iff.mp hjoins]
      rw [hsource] at haligned ⊢
      exact haligned
    next => cases hdelete

end Query

namespace Shop

theorem wellMarked_customers : customers.WellMarked where
  table := rfl
  relations := by
    decide
  filter := by
    intro payload criteria h
    obtain rfl := Except.ok.inj h
    unfold leastStatus
    split
    next => exact ⟨rfl, trivial⟩
    next => trivial

/-- Customers of two teams or of none with a large order, or with a short name or active. -/
def markedCalls : List QueryStep :=
  [.select ["id", "name"],
   .filterBy
     [("total", some (.has "orders" (.int 10))), ("team_id", some (.memberOrNull [.int 1, .int 2])),
      ("code", some (.compare .eq .null))],
   .addCriteria
     [(.or, .group
       [(.and, .raw "LENGTH(name) BETWEEN ? AND ?" [.int 1, .int 9]),
        (.or, .activeOn "customers" (.text "2026-01-01"))])],
   .options { steps := [.sort [⟨"name", .desc⟩], .filter ⟨[("min_status", .int 3)], by simp⟩] },
   .load ⟨"team", ["name"]⟩, .limit 5, .offset 10]

/-- The nine values of a query with nested clauses stand where they were meant to. -/
theorem aligned_markedCalls :
    (∀ call ∈ markedCalls, call.WellMarked) ∧
    ∃ q, markedCalls.foldlM Query.applyCall (.ofEntity customers) = .ok q ∧
      q.bindings.length = 9 ∧
      q.AlignedIn ("SELECT " ++ Text.commaList q.projection ++ q.source.head)
        (Statement.select q.toSelect).text ∧
      q.AlignedIn ("SELECT COUNT(*)" ++ q.source.head) (Statement.count q.source).text ∧
      ∃ statement, q.toDelete = .ok statement ∧
        q.AlignedIn ("DELETE" ++ q.source.head) statement.text := by
  have hcalls : ∀ call ∈ markedCalls, call.WellMarked := by
    simp only [markedCalls, List.forall_mem_cons, List.not_mem_nil, false_imp_iff, implies_true,
      and_true]
    exact ⟨trivial, trivial, ⟨⟨rfl, rfl, trivial⟩, trivial⟩, trivial, trivial, trivial, trivial⟩
  have hmade : ((markedCalls.foldlM Query.applyCall (.ofEntity customers)).toOption.map
      fun q => (q.bindings.length, q.joins.isEmpty)) = some (9, true) := by
    decide +kernel
  cases hq : markedCalls.foldlM Query.applyCall (.ofEntity customers) with
  | error cause =>
    rw [hq] at hmade
    cases hmade
  | ok q =>
    rw [hq] at hmade
    obtain ⟨hlength, hjoins⟩ := Prod.mk.inj (Option.some.inj hmade)
    have hdelete : q.toDelete = .ok (.delete q.entity.table q.criteria) := if_pos hjoins
    have haligned := Query.placeholders_get_own_values wellMarked_customers hcalls hq
    exact ⟨hcalls, q, rfl, hlength, haligned.1, haligned.2.1, _, hdelete, haligned.2.2 _ hdelete⟩

end Shop

end TableQuery
