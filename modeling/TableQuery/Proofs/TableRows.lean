import TableQuery.Proofs.ChangedRow
import TableQuery.Proofs.CountedRows
import TableQuery.Proofs.PagedRows
import TableQuery.Proofs.PlainProjection
import TableQuery.Store.Write

namespace TableQuery

open Sql

/-- A table without the rows that meet a test. -/
def Table.without (t : Table) (test : Row → Bool) : Table :=
  { t with rows := t.rows.filter fun row => !test row }

section

variable {store : Store} {t : Table}

/-- A star shows the cells of a row under the names of the columns. -/
theorem Table.cells_star {row : Row} (hwide : t.schema.columns.length ≤ row.length) :
    ((Store.tableColumns 0 t.schema).map fun column =>
      (column.name, ((Level.mk ⟨[(t.schema.name, t.schema)], []⟩ [row]).cell column.origin).datum)) =
      (t.schema.columns.zip row).map fun entry => (entry.1.name, entry.2) := by
  refine List.ext_getElem ?_ fun i hi hi' => ?_
  · simp [Store.tableColumns, hwide]
  · have hrow : i < row.length := by
      simp only [List.length_map, List.length_zip] at hi'
      omega
    simp [Store.tableColumns, Level.cell, Row.cell, hrow]

theorem Table.record_star {row : Row} (hwide : t.schema.columns.length ≤ row.length) :
    Store.record ⟨[(t.schema.name, t.schema)], []⟩ (Store.tableColumns 0 t.schema) [row] =
      t.recordOf row := by
  have hcells := congrArg (List.map (Prod.map id Datum.toJson)) (Table.cells_star hwide)
  rw [List.map_map, List.map_map] at hcells
  exact congrArg OrderedMap.ofList hcells

theorem Table.legible_star {row : Row} (hwide : t.schema.columns.length ≤ row.length) :
    Store.legible ⟨[(t.schema.name, t.schema)], []⟩ (Store.tableColumns 0 t.schema) [row] =
      t.legible row := by
  have hcells := congrArg (fun cells => cells.all fun entry => entry.2.legible)
    (Table.cells_star hwide)
  simp only [List.all_map] at hcells
  exact hcells

theorem Table.mapM_readRow (t : Table) (rows : List Row) :
    rows.mapM t.readRow =
      if rows.all t.legible then .ok (rows.map t.recordOf) else .error .unreadable :=
  Except.mapM_ite ..

/-- What a star brings back are the rows of the table as they are read. -/
theorem Table.records_star {rows : List Row} (test : Option Expr)
    (hwide : ∀ row ∈ rows, t.schema.columns.length ≤ row.length) :
    Store.Prepared.records ⟨⟨[(t.schema.name, t.schema)], []⟩, Store.tableColumns 0 t.schema, t, [],
      test⟩ (rows.map fun row => [row]) = rows.mapM t.readRow := by
  have hlegible : ∀ row ∈ rows, Store.legible ⟨[(t.schema.name, t.schema)], []⟩
      (Store.tableColumns 0 t.schema) [row] = t.legible row := fun row hmem =>
    Table.legible_star (hwide row hmem)
  rw [Store.Prepared.records_eq, Table.mapM_readRow, List.all_map, List.map_map]
  congr 1
  · rw [List.all_eq_true, List.all_eq_true]
    exact propext (forall₂_congr fun row hmem => by rw [Function.comp_apply, hlegible row hmem])
  · exact congrArg Except.ok (List.map_congr_left fun row hmem =>
      Table.record_star (hwide row hmem))

theorem Store.givenNames_star (schema : Schema) : givenNames (tableColumns 0 schema) = [] := by
  have hnone : (tableColumns 0 schema).filter ResultColumn.given = [] := by
    refine List.filter_eq_nil_iff.mpr fun column hmem => ?_
    obtain ⟨i, _, rfl⟩ := List.mem_mapIdx.mp hmem
    simp
  rw [givenNames, hnone, List.map_nil]

theorem Store.namedTable_plain {written : String} (hplain : IsPlain written)
    (hread : store.readable? none written = some t) :
    store.namedTable written = .ok (t.schema.name, t) := by
  unfold namedTable
  rw [statementName_plain hplain]
  simp only [bind, Except.bind, hread]
  rfl

namespace Store

variable {name : String}

/-- One table is prepared where it has not too many columns and its clauses can be tested. -/
theorem prepare_cases (hplain : IsPlain name) (hread : store.readable? none name = some t)
    (nested : Bool) (criteria : Criteria) :
    store.prepare nested ⟨name, [], criteria⟩ ["*"] =
      (store.prepareTest ⟨[(t.schema.name, t.schema)], []⟩ criteria).bind fun test =>
        if t.schema.columns.length ≤ limits.columns ∧ sourceFits nested test [] = true then
          .ok ⟨⟨[(t.schema.name, t.schema)], []⟩, tableColumns 0 t.schema, t, [], test⟩
        else .error .statement := by
  have hshown : ["*"].mapM (resultColumns store.clock ⟨[(t.schema.name, t.schema)], []⟩) =
      .ok [tableColumns 0 t.schema] := by
    rw [List.mapM_cons, List.mapM_nil, resultColumns_star]
    rfl
  have hcolumns : (tableColumns 0 t.schema).length = t.schema.columns.length := by
    simp [tableColumns]
  have hothers : ([] : List Join).mapM (fun join => store.namedTable join.table) = .ok [] := rfl
  unfold prepare
  rw [namedTable_plain hplain hread]
  simp only [bind, Except.bind, hothers, hshown, List.map_cons, List.map_nil,
    List.flatten_singleton, givenNames_star, prepareJoins_nil, reduced_nil]
  cases store.prepareTest ⟨[(t.schema.name, t.schema)], []⟩ criteria with
  | error fault => rfl
  | ok test =>
    have htables : ¬limits.tables < 1 := by decide
    have hreach : checkReach [] = .ok () := rfl
    simp only [hreach, List.length_singleton, htables, false_or, hcolumns]
    by_cases hnarrow : t.schema.columns.length ≤ limits.columns
    · simp only [Nat.not_lt.mpr hnarrow, hnarrow, false_or, true_and]
      cases sourceFits nested test [] <;> rfl
    · simp only [Nat.not_le.mp hnarrow, hnarrow, true_or, false_and, if_true, if_false]

/-- One table is prepared as far as its clauses can be tested. -/
theorem prepare_rows (hplain : IsPlain name) (hread : store.readable? none name = some t)
    (hnarrow : t.schema.columns.length ≤ limits.columns) (nested : Bool) (criteria : Criteria) :
    store.prepare nested ⟨name, [], criteria⟩ ["*"] =
      (store.prepareTest ⟨[(t.schema.name, t.schema)], []⟩ criteria).bind fun test =>
        if sourceFits nested test [] then
          .ok ⟨⟨[(t.schema.name, t.schema)], []⟩, tableColumns 0 t.schema, t, [], test⟩
        else .error .statement := by
  rw [prepare_cases hplain hread]
  simp only [hnarrow, true_and]

theorem of_prepare_rows {p : Prepared} {nested : Bool} {criteria : Criteria}
    (hplain : IsPlain name) (hread : store.readable? none name = some t)
    (h : store.prepare nested ⟨name, [], criteria⟩ ["*"] = .ok p) :
    ∃ test, store.prepareTest ⟨[(t.schema.name, t.schema)], []⟩ criteria = .ok test ∧
      p = ⟨⟨[(t.schema.name, t.schema)], []⟩, tableColumns 0 t.schema, t, [], test⟩ := by
  rw [prepare_cases hplain hread] at h
  obtain ⟨test, htest, h⟩ := Except.of_bind_ok h
  split at h
  next =>
    cases h
    exact ⟨test, htest, rfl⟩
  next => cases h

end Store

end

namespace Store

variable {store store' : Store} {table : String} {t : Table} {criteria : Criteria}
  {test : Row → Bool} {result : WriteResult}

/-- The test of the rows of a table is what is prepared for it. -/
theorem of_rowTest (h : store.rowTest t criteria = .ok test) :
    ∃ e, store.prepareTest ⟨[(t.schema.name, t.schema)], []⟩ criteria = .ok e ∧
      sourceFits false e [] = true ∧ test = fun row => e.all fun e =>
        store.holds ⟨[(t.schema.name, t.schema)], []⟩ e [row] := by
  unfold rowTest at h
  obtain ⟨e, he, h⟩ := Except.of_bind_ok h
  cases hfits : sourceFits false e [] with
  | false =>
    rw [hfits] at h
    cases h
  | true =>
    rw [hfits] at h
    cases h
    exact ⟨e, he, hfits, rfl⟩

theorem rowTest_of_prepareTest {e : Option Expr}
    (h : store.prepareTest ⟨[(t.schema.name, t.schema)], []⟩ criteria = .ok e) :
    store.rowTest t criteria =
      if sourceFits false e [] then .ok fun row => e.all fun e =>
        store.holds ⟨[(t.schema.name, t.schema)], []⟩ e [row]
      else .error .statement := by
  unfold rowTest
  simp only [h, bind, Except.bind]
  cases sourceFits false e [] <;> rfl

theorem prepare_of_rowTest (hplain : IsPlain table) (hread : store.readable? none table = some t)
    (hnarrow : t.schema.columns.length ≤ limits.columns) (h : store.rowTest t criteria = .ok test) :
    ∃ e, store.prepare false ⟨table, [], criteria⟩ ["*"] =
        .ok ⟨⟨[(t.schema.name, t.schema)], []⟩, tableColumns 0 t.schema, t, [], e⟩ ∧
      test = fun row => e.all fun e =>
        store.holds ⟨[(t.schema.name, t.schema)], []⟩ e [row] := by
  obtain ⟨e, he, hfits, rfl⟩ := of_rowTest h
  refine ⟨e, ?_, rfl⟩
  rw [prepare_rows hplain hread hnarrow false criteria, he]
  exact if_pos hfits

theorem prepare_of_rowTest_error {fault : StoreFault} (hplain : IsPlain table)
    (hread : store.readable? none table = some t)
    (hnarrow : t.schema.columns.length ≤ limits.columns)
    (h : store.rowTest t criteria = .error fault) :
    store.prepare false ⟨table, [], criteria⟩ ["*"] = .error fault := by
  rw [prepare_rows hplain hread hnarrow false criteria]
  cases he : store.prepareTest ⟨[(t.schema.name, t.schema)], []⟩ criteria with
  | error fault' =>
    unfold rowTest at h
    dsimp only at h
    rw [he] at h
    cases h
    rfl
  | ok e =>
    rw [rowTest_of_prepareTest he] at h
    split at h
    next => cases h
    next hfits =>
      cases h
      exact if_neg hfits

/-- The rows of one table come back as far as its clauses can be tested and they can be read. -/
theorem select_rows (hplain : IsPlain table) (hread : store.readable? none table = some t)
    (hnarrow : t.schema.columns.length ≤ limits.columns)
    (hwide : ∀ row ∈ t.rows, t.schema.columns.length ≤ row.length) (criteria : Criteria)
    (limit offset : Option Int) :
    store.select ⟨["*"], ⟨table, [], criteria⟩, [], limit, offset⟩ =
      (store.rowTest t criteria).bind fun test =>
        (window limit offset (t.rows.filter test)).mapM t.readRow := by
  cases htest : store.rowTest t criteria with
  | error fault =>
    unfold select
    rw [prepare_of_rowTest_error hplain hread hnarrow htest]
    rfl
  | ok test =>
    obtain ⟨e, hprepare, rfl⟩ := prepare_of_rowTest hplain hread hnarrow htest
    have hselect := select_eq (s := ⟨["*"], ⟨table, [], criteria⟩, [], limit, offset⟩) hprepare
    rw [hselect, selected_unordered rfl, tuples_of_rows rfl, map_window]
    exact Table.records_star e fun row hmem =>
      hwide row (List.mem_filter.mp (mem_of_mem_window hmem)).1

/-- Whether there is a row is answered for clauses whose test is not too high. -/
theorem anyRow_rows (hplain : IsPlain table) (hread : store.readable? none table = some t)
    (hnarrow : t.schema.columns.length ≤ limits.columns) {e : Option Expr}
    (he : store.prepareTest ⟨[(t.schema.name, t.schema)], []⟩ criteria = .ok e)
    (hfits : sourceFits false e [] = true) :
    store.anyRow ⟨table, [], criteria⟩ =
      if sourceFits true e [] then .ok (t.rows.any fun row => e.all fun e =>
        store.holds ⟨[(t.schema.name, t.schema)], []⟩ e [row])
      else .error .statement := by
  have hprepare := prepare_rows hplain hread hnarrow false criteria
  rw [he] at hprepare
  have hp := hprepare.trans (if_pos hfits)
  rw [anyRow_eq hp ⟨fun _ _ _ _ => rfl, fun _ _ _ _ => rfl⟩, tuples_of_rows rfl]
  have hany : ∀ test : Row → Bool,
      (!((t.rows.filter test).map fun row => [row]).isEmpty) = t.rows.any test := by
    intro test
    rw [Bool.eq_iff_iff]
    simp
  dsimp only
  rw [hany]

/-- A delete takes the rows that meet its clauses out of one table, unless a row is left without one
that it refers to. -/
theorem delete_rows (ht : store.table table = .ok t) (criteria : Criteria) :
    store.delete table criteria = (store.rowTest t criteria).bind fun test =>
      (store.checkReferences (store.setTable (t.without test))).map fun _ =>
        (store.setTable (t.without test), ⟨(t.rows.filter test).length, []⟩) := by
  unfold delete
  rw [ht]
  change (store.rowTest t criteria >>= _) = _
  cases store.rowTest t criteria with
  | error fault => rfl
  | ok test =>
    change (store.checkReferences (store.setTable (t.without test)) >>= _) = _
    cases hreferences : store.checkReferences (store.setTable (t.without test)) <;>
      simp only [Except.bind, hreferences] <;> rfl

theorem of_delete (h : store.delete table criteria = .ok (store', result)) :
    ∃ t test, store.table table = .ok t ∧ store.rowTest t criteria = .ok test ∧
      store' = store.setTable (t.without test) ∧
      result = ⟨(t.rows.filter test).length, []⟩ := by
  obtain ⟨t, ht, hrest⟩ := Except.of_bind_ok h
  obtain ⟨test, htest, hrest⟩ := Except.of_bind_ok hrest
  obtain ⟨_, _, hrest⟩ := Except.of_bind_ok hrest
  cases hrest
  exact ⟨t, test, ht, htest, rfl, rfl⟩

end Store

end TableQuery
