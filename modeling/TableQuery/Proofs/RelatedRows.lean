import TableQuery.Proofs.KeyAgreement
import TableQuery.Proofs.QueryRun

namespace TableQuery

open Sql

theorem Cell.member_eq_true_iff {c : Cell} {items : List Datum} :
    Cell.member c items = some true ↔
      ∃ item ∈ items, Cell.compare .eq c ⟨none, item⟩ = some true := by
  induction items with
  | nil => simp [Cell.member]
  | cons item items ih =>
    have hcons : Cell.member c (item :: items) =
        truthOr (Cell.compare .eq c ⟨none, item⟩) (Cell.member c items) := rfl
    rw [hcons, truthOr_eq_true, ih]
    simp

namespace Store

section

variable {store : Store} {source other : Source} {columns : List String} {p p' : Prepared}

/-- The clauses do not change what a source shows. -/
theorem PreparedBy.same (parts : PreparedBy store source columns p)
    (parts' : PreparedBy store other columns p') (htable : source.table = other.table)
    (hjoins : source.joins = other.joins) :
    p.scope = p'.scope ∧ p.columns = p'.columns ∧ p.first = p'.first := by
  have hfirst : parts.first = parts'.first := by
    have h := parts.named_first
    rw [htable, parts'.named_first] at h
    exact (Except.ok.inj h).symm
  have hothers : parts.others = parts'.others := by
    have h := parts.named_others
    rw [hjoins, parts'.named_others] at h
    exact (Except.ok.inj h).symm
  have hshown : parts.shown = parts'.shown := by
    have h := parts.shown_eq
    rw [hfirst, hothers, parts'.shown_eq] at h
    exact (Except.ok.inj h).symm
  refine ⟨?_, ?_, ?_⟩
  · rw [parts.scope_eq, parts'.scope_eq, hfirst, hothers, hshown]
  · rw [parts.columns_eq, parts'.columns_eq, hshown]
  · rw [parts.first_eq, parts'.first_eq, hfirst]

theorem PreparedBy.tables_eq (parts : PreparedBy store source columns p)
    (hjoins : source.joins = []) : p.scope.tables = [(parts.first.1, p.first.schema)] := by
  have hothers : parts.others = [] := by
    have h := parts.named_others
    rw [hjoins] at h
    exact (Except.ok.inj h).symm
  rw [parts.scope_eq, parts.first_eq, hothers]
  rfl

/-- A name alone stands for the column of the only table. -/
theorem PreparedBy.columnCell_eq (parts : PreparedBy store source columns p)
    (hjoins : source.joins = []) {name : String} (hname : IsPlain name)
    (hown : (p.ownPlace? name).isSome) (row : Row) :
    Env.columnCell [⟨p.scope, [row]⟩] name = p.ownCell name [row] := by
  obtain ⟨place, hplace⟩ := Option.isSome_iff_exists.mp hown
  obtain ⟨i, hindex, rfl⟩ := Option.map_eq_some_iff.mp hplace
  have horigin : p.scope.origin none name = .ok (some (.cell ⟨0, i⟩)) := by
    simp [Scope.origin, parts.tables_eq hjoins, Scope.placesFrom, hindex]
  simp only [Env.columnCell, Identifier.read?_name hname.1, Env.cell, Env.lookup, horigin,
    Prepared.ownCell, hplace]
  rfl

end

end Store

namespace EagerLoad

/-- The rows of the related table, as a load shows them, that some test lets through. -/
def rowsWhere (related : Store.Prepared) (test : Row → Bool) : List Record :=
  (related.first.rows.filter test).map fun row => Store.record related.scope related.columns [row]

/-- The key by which a row of the related table belongs to others. -/
def relatedCell (load : EagerLoad) (related : Store.Prepared) (row : Row) : Cell :=
  related.ownCell load.relation.relatedKey [row]

/-- A related row belongs to a key. -/
def Belongs (load : EagerLoad) (related : Store.Prepared) (key : Cell) (row : Row) : Prop :=
  Cell.compare .eq (load.relatedCell related row) key = some true

instance (load : EagerLoad) (related : Store.Prepared) (key : Cell) (row : Row) :
    Decidable (load.Belongs related key row) :=
  inferInstanceAs (Decidable (_ = _))

/-- A related row is among those asked for and shows a key that looks like another. -/
def Matches (load : EagerLoad) (related : Store.Prepared) (keys : List Value) (key : Value)
    (row : Row) : Prop :=
  key.isNull = false ∧
    Cell.member (load.relatedCell related row) (keys.map .ofValue) = some true ∧
    (related.shownCell load.relation.relatedKey [row]).value.display = key.display

instance (load : EagerLoad) (related : Store.Prepared) (keys : List Value) (key : Value)
    (row : Row) : Decidable (load.Matches related keys key row) :=
  inferInstanceAs (Decidable (_ ∧ _))

theorem mem_of_mem_distinct {values : List Value} {v : Value} (h : v ∈ distinct values) :
    v ∈ values := by
  induction values with
  | nil => exact h
  | cons first rest ih =>
    rcases List.mem_cons.mp h with rfl | h
    · exact List.mem_cons_self
    · exact List.mem_cons_of_mem _ (ih (List.mem_filter.mp h).1)

theorem exists_distinct {values : List Value} {v : Value} (h : v ∈ values) :
    ∃ w ∈ distinct values, w.display = v.display := by
  induction values with
  | nil => cases h
  | cons first rest ih =>
    by_cases hfirst : first.display = v.display
    · exact ⟨first, List.mem_cons_self, hfirst⟩
    · rcases List.mem_cons.mp h with rfl | h
      · exact absurd rfl hfirst
      · obtain ⟨w, hmem, hw⟩ := ih h
        refine ⟨w, List.mem_cons_of_mem _ (List.mem_filter.mpr ⟨hmem, ?_⟩), hw⟩
        simpa [hw] using fun hsame => hfirst hsame.symm

section

variable {load : EagerLoad} {parents : List Record}

theorem of_mem_keys {key : Value} (h : key ∈ load.keys parents) :
    key.isNull = false ∧ ∃ parent ∈ parents, parent.value load.relation.parentKey = key := by
  obtain ⟨hmem, hnull⟩ := List.mem_filter.mp (mem_of_mem_distinct h)
  exact ⟨by simpa using hnull, List.mem_map.mp hmem⟩

theorem exists_key {parent : Record} (hmem : parent ∈ parents)
    (hnull : (parent.value load.relation.parentKey).isNull = false) :
    ∃ key ∈ load.keys parents,
      key.display = (parent.value load.relation.parentKey).display := by
  refine exists_distinct (List.mem_filter.mpr ⟨List.mem_map_of_mem hmem, ?_⟩)
  simpa using hnull

end

/-- The cell that a related row is sought by. -/
def soughtCell (load : EagerLoad) (related : Store.Prepared) (row : Row) : Cell :=
  Env.columnCell [⟨related.scope, [row]⟩] load.relation.relatedKey

/-- Whether a load asks for a row by keys. -/
def seeks (load : EagerLoad) (related : Store.Prepared) (keys : List Value) (row : Row) : Bool :=
  Cell.member (load.soughtCell related row) (keys.map .ofValue) = some true

/-- The rows that a load asks for by keys. -/
def sought (load : EagerLoad) (related : Store.Prepared) (keys : List Value) : List Record :=
  rowsWhere related (load.seeks related keys)

/-- The rows that pass a test, if all of them can be read. -/
def readWhere (related : Store.Prepared) (test : Row → Bool) : Except StoreFault (List Record) :=
  related.records ((related.first.rows.filter test).map fun row => [row])

/-- All rows that pass a test can be read. -/
def LegibleWhere (related : Store.Prepared) (test : Row → Bool) : Prop :=
  ∀ row ∈ related.first.rows, test row = true →
    Store.legible related.scope related.columns [row] = true

theorem readWhere_eq_ok_iff {related : Store.Prepared} {test : Row → Bool} {found : List Record} :
    readWhere related test = .ok found ↔
      LegibleWhere related test ∧ found = rowsWhere related test := by
  rw [readWhere, Store.Prepared.records_eq_ok_iff, List.map_map]
  simp only [List.forall_mem_map, List.mem_filter, and_imp]
  exact Iff.rfl

/-- A statement with one clause on one table finds the rows that meet it, if they can be read. -/
theorem select_clause {store : Store} {source : Source} {columns : List String}
    {p : Store.Prepared} (clause : Clause) (hjoins : source.joins = []) (hclause : source.criteria = [clause])
    (hplain : clause.2.Plain) (hapart : clause.2.Apart store)
    (hp : store.prepare false source columns = .ok p) :
    store.select { columns := columns, source := source } = readWhere p fun row =>
      clause.2.meaning store [⟨p.scope, [row]⟩] = some true := by
  obtain ⟨parts⟩ := Store.preparedBy_of_prepare hp
  have htested := parts.test_eq
  rw [hclause] at htested
  have htest : ∀ row : Row, (p.test.all fun e => store.holds p.scope e [row]) =
      decide (clause.2.meaning store [⟨p.scope, [row]⟩] = some true) := fun row =>
    Store.holds_of_clause clause hplain hapart htested [row]
  have hprepared : store.prepare false (Select.source { columns := columns, source := source })
      (Select.columns { columns := columns, source := source }) = .ok p := hp
  rw [Store.select_eq hprepared, Store.selected_unordered rfl,
    Store.tuples_of_rows (Store.joined_nil parts hjoins)]
  simp only [htest]
  rfl

/-- A load finds the rows of the related table that it asks for by the keys, if they can be
read. -/
theorem select_sought {load : EagerLoad} {store : Store} {related : Store.Prepared}
    {keys : List Value} (hkey : IsPlainColumn load.relation.relatedKey)
    (hp : store.prepare false (load.toSelect keys).source load.selectList = .ok related) :
    store.select (load.toSelect keys) = readWhere related (load.seeks related keys) :=
  select_clause (.and, .member load.relation.relatedKey keys false) rfl rfl hkey trivial hp

theorem of_related {load : EagerLoad} {store : Store} {parents found : List Record}
    (hkey : IsPlainColumn load.relation.relatedKey) (hsome : load.keys parents ≠ [])
    (h : load.related store parents = .ok found) :
    ∃ p, store.prepare false (load.toSelect (load.keys parents)).source load.selectList = .ok p ∧
      LegibleWhere p (load.seeks p (load.keys parents)) ∧
      found = load.sought p (load.keys parents) := by
  have hselect : store.select (load.toSelect (load.keys parents)) = .ok found := by
    simpa [EagerLoad.related, hsome] using h
  obtain ⟨p, _, hp, _, _⟩ := Store.of_select hselect
  rw [select_sought hkey hp] at hselect
  exact ⟨p, hp, readWhere_eq_ok_iff.mp hselect⟩

/-- The rows that a load finds for all parents are those with one of their keys. -/
theorem related_eq {load : EagerLoad} {store : Store} {related : Store.Prepared}
    {parents found : List Record} (hkey : IsPlain load.relation.relatedKey)
    (hrelated : store.prepare false { table := load.relation.table } load.selectList = .ok related)
    (hown : (related.ownPlace? load.relation.relatedKey).isSome)
    (h : load.related store parents = .ok found) :
    found = rowsWhere related fun row =>
      Cell.member (load.relatedCell related row) ((load.keys parents).map .ofValue) =
        some true := by
  by_cases hempty : load.keys parents = []
  · simp only [EagerLoad.related, hempty, List.isEmpty_nil, ↓reduceIte, Except.ok.injEq] at h
    simp [← h, rowsWhere, hempty, Cell.member]
  · obtain ⟨p, hp, _, hfound⟩ := of_related (.inl hkey) hempty h
    -- the statement is prepared like the one without keys, apart from its test
    obtain ⟨parts⟩ := Store.preparedBy_of_prepare hp
    obtain ⟨relatedParts⟩ := Store.preparedBy_of_prepare hrelated
    obtain ⟨hscope, hcolumns, hfirst⟩ := parts.same relatedParts rfl rfl
    have hcell : ∀ row : Row, load.soughtCell p row = load.relatedCell related row := by
      intro row
      rw [soughtCell, hscope, relatedParts.columnCell_eq rfl hkey hown row]
      rfl
    have hseeks : load.seeks p (load.keys parents) = fun row =>
        decide (Cell.member (load.relatedCell related row) ((load.keys parents).map .ofValue) =
          some true) := by
      funext row
      rw [seeks, hcell]
    rw [hfound, sought, hseeks, rowsWhere, rowsWhere, hscope, hcolumns, hfirst]

theorem relatedTo_eq {load : EagerLoad} {store : Store} {related : Store.Prepared}
    {parents found : List Record} (hkey : IsPlain load.relation.relatedKey)
    (hrelated : store.prepare false { table := load.relation.table } load.selectList = .ok related)
    (hown : (related.ownPlace? load.relation.relatedKey).isSome)
    (h : load.related store parents = .ok found) (parent : Record) :
    load.relatedTo found parent = rowsWhere related fun row =>
      load.Matches related (load.keys parents) (parent.value load.relation.parentKey) row := by
  rw [related_eq hkey hrelated hown h, relatedTo]
  split
  next hnull => simp [rowsWhere, Matches, hnull]
  next hnull =>
    have hfalse : (parent.value load.relation.parentKey).isNull = false := by simpa using hnull
    rw [rowsWhere, rowsWhere, List.filter_map, List.filter_filter]
    congr 1
    refine List.filter_congr fun row _ => ?_
    simp [Matches, hfalse, Store.Prepared.value_record, Bool.and_comm]

end EagerLoad

end TableQuery
