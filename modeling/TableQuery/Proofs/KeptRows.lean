import TableQuery.Proofs.Preparation

namespace TableQuery

theorem Text.sameName_iff {a b : String} :
    Text.sameName a b = true ↔ a.toList.map Char.toLower = b.toList.map Char.toLower := by
  simp [Text.sameName]

theorem mem_insertSorted {α : Type} {le : α → α → Bool} {a b : α} {as : List α} :
    b ∈ insertSorted le a as ↔ b = a ∨ b ∈ as :=
  (perm_insertSorted a as).mem_iff.trans List.mem_cons

namespace Table

variable {t t' : Table}

theorem mem_place {rows : List Row} {row other : Row} :
    other ∈ t.place rows row ↔ other = row ∨ other ∈ rows :=
  mem_insertSorted

theorem of_keyed {row whole : Row} (h : t.keyed row = .ok (t', whole)) :
    t'.schema = t.schema ∧ t'.rows = t.rows := by
  have hnote : ∀ key, (t.noteKey key).schema = t.schema ∧ (t.noteKey key).rows = t.rows := by
    intro key
    unfold noteKey
    split <;> exact ⟨rfl, rfl⟩
  unfold keyed at h
  split at h
  next =>
    obtain ⟨key, _, h⟩ := Except.of_bind_ok h
    cases h
    exact hnote key
  next key _ =>
    cases h
    exact hnote key
  next => cases h

theorem length_keyed {row whole : Row} (h : t.keyed row = .ok (t', whole)) :
    whole.length = row.length := by
  unfold keyed at h
  split at h
  next =>
    obtain ⟨key, _, h⟩ := Except.of_bind_ok h
    cases h
    exact List.length_set
  next =>
    cases h
    rfl
  next => cases h

/-- A new row that meets nothing gets its key, is tested and finds its place. -/
theorem of_addRow_none {given : List (Nat × Datum)} {written : Written}
    (h : t.addRow given none = .ok (t', written)) :
    ∃ noted row, t.keyed (t.schema.newRow given) = .ok (noted, row) ∧
      t.schema.checkRequired row = .ok () ∧
      t.schema.checkUniques t.rows row t.schema.uniques = .ok () ∧
      t' = { noted with rows := t.place t.rows row } ∧ written = .added row := by
  unfold addRow at h
  obtain ⟨⟨noted, row⟩, hkeyed, h⟩ := Except.of_bind_ok h
  obtain ⟨hschema, hrows⟩ := of_keyed hkeyed
  obtain ⟨_, hrequired, h⟩ := Except.of_bind_ok h
  obtain ⟨_, hunique, h⟩ := Except.of_bind_ok h
  cases h
  rw [hschema] at hrequired
  rw [hschema, hrows] at hunique
  refine ⟨noted, row, hkeyed, hrequired, hunique, ?_, rfl⟩
  simp only [place, hschema, hrows]

theorem of_addRow {given : List (Nat × Datum)} {written : Written}
    (h : t.addRow given none = .ok (t', written)) :
    t'.schema = t.schema ∧ ∀ row ∈ t.rows, row ∈ t'.rows := by
  obtain ⟨noted, row, hkeyed, _, _, rfl, _⟩ := of_addRow_none h
  exact ⟨(of_keyed hkeyed).1, fun other hother => mem_place.mpr (.inr hother)⟩

end Table

namespace Store

variable {store : Store}

theorem table?_setTable (store : Store) (t : Table) (name : String) :
    (store.setTable t).table? name = (store.table? name).map fun other =>
      if Text.sameName other.schema.name t.schema.name then t else other := by
  have hsame : ((fun other : Table => Text.sameName other.schema.name name) ∘ fun other : Table =>
      if Text.sameName other.schema.name t.schema.name then t else other) =
        fun other => Text.sameName other.schema.name name := by
    funext other
    rw [Function.comp_apply]
    split
    next h =>
      rw [Bool.eq_iff_iff, Text.sameName_iff, Text.sameName_iff, Text.sameName_iff.mp h]
    next => rfl
  rw [table?, setTable, List.find?_map, hsame]
  rfl

theorem table?_congr {name other : String} (h : Text.sameName name other = true) :
    store.table? name = store.table? other := by
  unfold table?
  congr 1
  funext t
  rw [Bool.eq_iff_iff, Text.sameName_iff, Text.sameName_iff, Text.sameName_iff.mp h]

theorem sameName_of_table? {name : String} {t : Table} (h : store.table? name = some t) :
    Text.sameName t.schema.name name = true :=
  List.find?_some (p := fun t : Table => Text.sameName t.schema.name name) h

theorem table_eq_ok {name : String} {t : Table} :
    store.table name = .ok t ↔ store.table? name = some t := by
  unfold table
  cases store.table? name <;> simp

/-- A table takes the place of the one of its name, and others stay. -/
theorem table?_setTable_of {table : String} {t t' : Table} (ht : store.table? table = some t)
    (hschema : t'.schema = t.schema) (name : String) : (store.setTable t').table? name =
      if Text.sameName table name then some t' else store.table? name := by
  have hown := Text.sameName_iff.mp (sameName_of_table? ht)
  rw [table?_setTable]
  split
  next hsame =>
    have hself : Text.sameName t.schema.name t'.schema.name = true := by
      rw [hschema]
      exact Text.sameName_refl _
    rw [← table?_congr hsame, ht, Option.map_some, if_pos hself]
  next hother =>
    cases hfound : store.table? name with
    | none => rfl
    | some other =>
      have hname := Text.sameName_iff.mp (sameName_of_table? hfound)
      have hapart : ¬ Text.sameName other.schema.name t'.schema.name = true := by
        intro hsame
        rw [hschema, Text.sameName_iff] at hsame
        exact hother (Text.sameName_iff.mpr (hown.symm.trans (hsame.symm.trans hname)))
      rw [Option.map_some, if_neg hapart]

/-- A table of a schema has a row. -/
def HasRow (store : Store) (name : String) (schema : Schema) (row : Row) : Prop :=
  ∃ t, store.table name = .ok t ∧ t.schema = schema ∧ row ∈ t.rows

/-- A row stays where a table gives way to one that has it, too. -/
theorem HasRow.setTable_of {table name : String} {schema : Schema} {row : Row} {t t' : Table}
    (h : store.HasRow name schema row) (ht : store.table table = .ok t)
    (hschema : t'.schema = t.schema) (hrows : Text.sameName table name = true → row ∈ t'.rows) :
    (store.setTable t').HasRow name schema row := by
  obtain ⟨found, hfound, rfl, hmem⟩ := h
  rw [table_eq_ok] at hfound ht
  have htable := table?_setTable_of ht hschema name
  split at htable
  next hsame =>
    rw [← table?_congr hsame, ht] at hfound
    cases hfound
    exact ⟨t', table_eq_ok.mpr htable, hschema, hrows hsame⟩
  next => exact ⟨found, table_eq_ok.mpr (htable.trans hfound), rfl, hmem⟩

/-- A row stays where a table gives way to one with all its rows. -/
theorem HasRow.setTable {name other : String} {schema : Schema} {row : Row} {t t' : Table}
    (h : store.HasRow name schema row) (ht : store.table other = .ok t)
    (hschema : t'.schema = t.schema) (hrows : ∀ row ∈ t.rows, row ∈ t'.rows) :
    (store.setTable t').HasRow name schema row := by
  refine h.setTable_of ht hschema fun hsame => hrows row ?_
  obtain ⟨found, hfound, rfl, hmem⟩ := h
  rw [table_eq_ok, ← table?_congr hsame, table_eq_ok.mp ht] at hfound
  cases hfound
  exact hmem

/-- What each row that is added to a log of the table keeps, the logging of a change keeps. -/
theorem logChange_induction {P : Store → Prop} {table : String} {schema : Schema} {row : Row}
    {store' : Store} (h : store.logChange table schema row = .ok store') (hstore : P store)
    (hadd : ∀ watch ∈ store.watches, watch.table = table →
      ∀ (next : Store) (log added : Table) (given : List (Nat × Datum)) (written : Table.Written),
        P next → next.table watch.log = .ok log → log.addRow given none = .ok (added, written) →
          P (next.setTable added)) : P store' := by
  refine Except.of_foldlM_ok (fun watch hmem next last hnext hstep => ?_) hstore h
  split at hstep
  next htable =>
    obtain ⟨log, hlog, hstep⟩ := Except.of_bind_ok hstep
    obtain ⟨column, _, hstep⟩ := Except.of_bind_ok hstep
    obtain ⟨key, _, hstep⟩ := Except.of_bind_ok hstep
    obtain ⟨⟨added, written⟩, hadded, hstep⟩ := Except.of_bind_ok hstep
    cases hstep
    exact hadd watch hmem htable next log added _ written hnext hlog hadded
  next =>
    cases hstep
    exact hnext

/-- Rows are added to a log, which may be the table itself, and none is taken from it. -/
theorem HasRow.logChange {name table : String} {schema logged : Schema} {row changed : Row}
    {store' : Store} (h : store.HasRow name schema row)
    (hlog : store.logChange table logged changed = .ok store') :
    store'.HasRow name schema row := by
  refine logChange_induction (P := fun next => next.HasRow name schema row) hlog h ?_
  intro watch _ _ next log added given written hnext htable hadd
  obtain ⟨hschema, hrows⟩ := Table.of_addRow hadd
  exact hnext.setTable htable hschema hrows

theorem HasRow.noteWritten {name : String} {schema : Schema} {row : Row}
    (h : store.HasRow name schema row) (schemas : List Schema) :
    (store.noteWritten schemas).HasRow name schema row :=
  h

/-- A changed row takes the place of the old one and comes back, and the change is logged. -/
theorem of_updateRow {table : String} {changes : List (Nat × Datum)} {t : Table} {row : Row}
    {store' : Store} {result result' : WriteResult} (ht : store.table table = .ok t)
    (h : updateRow table changes (store, result) row = .ok (store', result')) :
    ∃ t' changed, t.changeRow row changes = .ok (t', changed) ∧
      (store.setTable t').logChange t'.schema.name t'.schema changed = .ok store' ∧
      result' = ⟨result.count + 1, result.rows ++ [t'.readRow changed]⟩ := by
  unfold updateRow at h
  obtain ⟨own, hown, h⟩ := Except.of_bind_ok h
  rw [ht] at hown
  cases hown
  obtain ⟨⟨t', changed⟩, hchange, h⟩ := Except.of_bind_ok h
  obtain ⟨logged, hlog, h⟩ := Except.of_bind_ok h
  cases h
  exact ⟨t', changed, hchange, hlog, rfl⟩

theorem hasRow_of_updateRow {table : String} {changes : List (Nat × Datum)} {t : Table} {row : Row}
    {store' : Store} {result result' : WriteResult} (ht : store.table table = .ok t)
    (h : updateRow table changes (store, result) row = .ok (store', result')) :
    store'.HasRow table t.schema (t.schema.changedRow row changes) := by
  obtain ⟨t', changed, hchange, hlog, _⟩ := of_updateRow ht h
  unfold Table.changeRow at hchange
  obtain ⟨_, _, hchange⟩ := Except.of_bind_ok hchange
  obtain ⟨_, _, hchange⟩ := Except.of_bind_ok hchange
  obtain ⟨_, _, hchange⟩ := Except.of_bind_ok hchange
  cases hchange
  refine HasRow.logChange ?_ hlog
  have htable := table?_setTable store (t.replaceRow row (t.schema.changedRow row changes)) table
  rw [table_eq_ok.mp ht, Option.map_some] at htable
  have hself : Text.sameName t.schema.name
      (t.replaceRow row (t.schema.changedRow row changes)).schema.name = true :=
    Text.sameName_refl _
  rw [if_pos hself] at htable
  exact ⟨_, table_eq_ok.mpr htable, rfl, Table.mem_place.mpr (.inl rfl)⟩

end Store

end TableQuery
