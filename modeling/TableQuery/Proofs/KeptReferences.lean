import TableQuery.Proofs.TableRows

namespace TableQuery

namespace Store

variable {store before after : Store} {s : Schema} {r : Reference} {row : Row}
  {t t' u first next last : Table} {table : String} {gone : Row → Bool}

theorem lacksParent_iff : store.lacksParent s r row = true ↔
    (∀ d ∈ s.values r.columns row, d ≠ .null) ∧ ∀ parents, store.table? r.table = some parents →
      ∀ parent ∈ parents.rows,
        parents.schema.hasValues r.keys (s.values r.columns row) parent = false := by
  unfold lacksParent
  rw [Bool.and_eq_true, Bool.not_eq_true', List.any_eq_false, Bool.not_eq_true']
  simp only [Bool.not_eq_true, Datum.isNull_eq_false]
  cases store.table? r.table with
  | none => simp
  | some parents => simp

/-- A row in store has lacked what it refers to if it lacks it. -/
theorem lackedParent_of_mem (hu : u ∈ store.tables) (hname : u.schema.name = s.name)
    (hrow : row ∈ u.rows) : store.lackedParent s r row = store.lacksParent s r row := by
  have hsame : (store.tables.any fun t => t.schema.name = s.name && t.rows.any fun same =>
      same.cell s.keyIndex = row.cell s.keyIndex &&
        s.values r.columns same = s.values r.columns row) = true := by
    refine List.any_eq_true.mpr ⟨u, hu, ?_⟩
    simp only [hname, decide_true, Bool.true_and]
    exact List.any_eq_true.mpr ⟨row, hrow, by simp⟩
  rw [lackedParent, hsame, Bool.and_true]

theorem checkReferences_eq_ok_iff : before.checkReferences after = .ok () ↔
    ∀ t ∈ after.tables, ∀ r ∈ t.schema.references, ∀ row ∈ t.rows,
      after.lacksParent t.schema r row = true → before.lackedParent t.schema r row = true := by
  unfold checkReferences
  split
  next h =>
    simp only [List.all_eq_true, Bool.or_eq_true, Bool.not_eq_true'] at h
    refine iff_of_true rfl fun t ht r hr row hrow hlacks => ?_
    exact (h t ht r hr row hrow).resolve_left (by simp [hlacks])
  next h =>
    refine iff_of_false (fun hnone => by cases hnone) fun hall => h ?_
    simp only [List.all_eq_true, Bool.or_eq_true, Bool.not_eq_true']
    intro t ht r hr row hrow
    cases hlacks : after.lacksParent t.schema r row with
    | false => exact .inl rfl
    | true => exact .inr (hall t ht r hr row hrow hlacks)

theorem checkReferences_eq_error (h : before.checkReferences after ≠ .ok ()) :
    before.checkReferences after = .error .foreignKey := by
  unfold checkReferences at h ⊢
  split at h
  next => exact absurd rfl h
  next hnot => rw [if_neg hnot]

theorem mem_tables (ht : store.table table = .ok t) : t ∈ store.tables :=
  List.mem_of_find?_eq_some (table_eq_ok.mp ht)

/-- The tables of a store in which one table takes the place of those of its name. -/
theorem mem_setTable_iff (ht : store.table table = .ok t) (hschema : t'.schema = t.schema) :
    u ∈ (store.setTable t').tables ↔
      u = t' ∨ u ∈ store.tables ∧ Text.sameName u.schema.name t'.schema.name = false := by
  have htables : (store.setTable t').tables = store.tables.map fun other =>
    if Text.sameName other.schema.name t'.schema.name then t' else other := rfl
  rw [htables, List.mem_map]
  constructor
  · rintro ⟨other, hother, rfl⟩
    split
    next => exact .inl rfl
    next hapart => exact .inr ⟨hother, by simpa using hapart⟩
  · rintro (rfl | ⟨hu, hapart⟩)
    · refine ⟨t, mem_tables ht, if_pos ?_⟩
      rw [hschema]
      exact Text.sameName_refl _
    · exact ⟨u, hu, by simp [hapart]⟩

theorem sameName_called (ht : store.table table = .ok t) (name : String) :
    Text.sameName table name = Text.sameName name t.schema.name := by
  have htable := sameName_of_table? (table_eq_ok.mp ht)
  rw [Bool.eq_iff_iff, Text.sameName_iff, Text.sameName_iff, ← Text.sameName_iff.mp htable]
  exact eq_comm

theorem table?_called (ht : store.table table = .ok t) {name : String}
    (h : Text.sameName name t.schema.name = true) : store.table? name = some t := by
  rw [← table?_congr ((sameName_called ht name).trans h), table_eq_ok.mp ht]

/-- Only what goes by the name of a table is found anew where another takes its place. -/
theorem table?_setTable_called (ht : store.table table = .ok t) (hschema : t'.schema = t.schema)
    (name : String) : (store.setTable t').table? name =
      if Text.sameName name t.schema.name then some t' else store.table? name := by
  rw [table?_setTable_of (table_eq_ok.mp ht) hschema, sameName_called ht]

/-- What a row refers to in another table it has or lacks whatever rows this table has. -/
theorem lacksParent_setTable_apart (ht : store.table table = .ok t) (hschema : t'.schema = t.schema)
    (hapart : Text.sameName r.table t.schema.name = false) (s : Schema) (row : Row) :
    (store.setTable t').lacksParent s r row = store.lacksParent s r row := by
  unfold lacksParent
  rw [table?_setTable_called ht hschema, hapart, if_neg Bool.false_ne_true]

/-- Without the rows that are to go, a row is left without all rows of a table that it refers to. -/
def Strands (store : Store) (t : Table) (gone : Row → Bool) : Prop :=
  ∃ u ∈ (store.setTable (t.without gone)).tables, ∃ r ∈ u.schema.references,
    Text.sameName r.table t.schema.name = true ∧ ∃ row ∈ u.rows,
      (∀ d ∈ u.schema.values r.columns row, d ≠ .null) ∧
      (∃ parent ∈ t.rows,
        t.schema.hasValues r.keys (u.schema.values r.columns row) parent = true) ∧
      ∀ parent ∈ t.rows, t.schema.hasValues r.keys (u.schema.values r.columns row) parent = true →
        gone parent = true

instance (store : Store) (t : Table) (gone : Row → Bool) : Decidable (store.Strands t gone) :=
  inferInstanceAs (Decidable (∃ u ∈ (store.setTable (t.without gone)).tables, _))

theorem mem_of_mem_without (ht : store.table table = .ok t)
    (hu : u ∈ (store.setTable (t.without gone)).tables) (hrow : row ∈ u.rows) :
    ∃ old ∈ store.tables, old.schema.name = u.schema.name ∧ row ∈ old.rows := by
  have hschema : (t.without gone).schema = t.schema := rfl
  rcases (mem_setTable_iff ht hschema).mp hu with rfl | ⟨hu, _⟩
  · exact ⟨t, mem_tables ht, rfl, (List.mem_filter.mp hrow).1⟩
  · exact ⟨u, hu, rfl, hrow⟩

/-- Rows can go where they strand none. -/
theorem checkReferences_without_iff (ht : store.table table = .ok t) (gone : Row → Bool) :
    store.checkReferences (store.setTable (t.without gone)) = .ok () ↔ ¬ store.Strands t gone := by
  have hschema : (t.without gone).schema = t.schema := rfl
  have hfound := table?_setTable_called ht hschema
  rw [checkReferences_eq_ok_iff]
  constructor
  · rintro hall ⟨u, hu, r, hr, hsame, row, hrow, hgiven, ⟨parent, hparent, hvalues⟩, hgone⟩
    have hparents : (store.setTable (t.without gone)).table? r.table = some (t.without gone) := by
      rw [hfound, if_pos hsame]
    have hlacks : (store.setTable (t.without gone)).lacksParent u.schema r row = true := by
      refine lacksParent_iff.mpr ⟨hgiven, fun parents hfound parent hparent => ?_⟩
      rw [hparents] at hfound
      cases hfound
      obtain ⟨hparent, hstays⟩ := List.mem_filter.mp hparent
      cases hvalues : t.schema.hasValues r.keys (u.schema.values r.columns row) parent with
      | false => exact hvalues
      | true =>
        rw [hgone parent hparent hvalues] at hstays
        cases hstays
    have hlacked := hall u hu r hr row hrow hlacks
    obtain ⟨old, hold, hcalled, hmem⟩ := mem_of_mem_without ht hu hrow
    rw [lackedParent_of_mem hold hcalled hmem] at hlacked
    rw [(lacksParent_iff.mp hlacked).2 t (table?_called ht hsame) parent hparent] at hvalues
    cases hvalues
  · intro hstrands u hu r hr row hrow hlacks
    obtain ⟨old, hold, hcalled, hmem⟩ := mem_of_mem_without ht hu hrow
    rw [lackedParent_of_mem hold hcalled hmem]
    cases hsame : Text.sameName r.table t.schema.name with
    | false => rwa [lacksParent_setTable_apart ht hschema hsame] at hlacks
    | true =>
      obtain ⟨hgiven, hnone⟩ := lacksParent_iff.mp hlacks
      rw [hfound, hsame, if_pos rfl] at hnone
      refine lacksParent_iff.mpr ⟨hgiven, fun parents hparents parent hparent => ?_⟩
      rw [table?_called ht hsame] at hparents
      cases hparents
      by_contra hvalues
      refine hstrands ⟨u, hu, r, hr, hsame, row, hrow, hgiven,
        ⟨parent, hparent, by simpa using hvalues⟩, fun other hother hvalues => ?_⟩
      by_contra hstays
      have hleft := hnone (t.without gone) rfl other
        (List.mem_filter.mpr ⟨hother, by simpa using hstays⟩)
      rw [hschema, hvalues] at hleft
      cases hleft

/-- What a row lacks among more rows of a table it lacks among fewer. -/
theorem lacksParent_of_fewer (ht : store.table table = .ok t) (hfirst : first.schema = t.schema)
    (hnext : next.schema = t.schema) (hrows : ∀ row ∈ first.rows, row ∈ next.rows)
    (hsame : Text.sameName r.table t.schema.name = true)
    (h : (store.setTable next).lacksParent s r row = true) :
    (store.setTable first).lacksParent s r row = true := by
  obtain ⟨hgiven, hnone⟩ := lacksParent_iff.mp h
  rw [table?_setTable_called ht hnext, hsame, if_pos rfl] at hnone
  refine lacksParent_iff.mpr ⟨hgiven, fun parents hparents parent hparent => ?_⟩
  rw [table?_setTable_called ht hfirst, hsame, if_pos rfl] at hparents
  cases hparents
  have hlater := hnone next rfl parent (hrows parent hparent)
  rwa [hnext, ← hfirst] at hlater

/-- A row that lacked what it refers to in another table has lacked it with more rows in a table. -/
theorem lackedParent_of_more (ht : store.table table = .ok t) (hfirst : first.schema = t.schema)
    (hrows : ∀ row ∈ t.rows, row ∈ first.rows)
    (halone : ∀ u ∈ store.tables, Text.sameName u.schema.name t.schema.name = true → u = t)
    (hapart : Text.sameName r.table t.schema.name = false)
    (h : store.lackedParent s r row = true) :
    (store.setTable first).lackedParent s r row = true := by
  unfold lackedParent at h ⊢
  rw [lacksParent_setTable_apart ht hfirst hapart]
  obtain ⟨hlacks, hany⟩ := (Bool.and_eq_true ..).mp h
  rw [hlacks, Bool.true_and]
  obtain ⟨old, hold, hkept⟩ := List.any_eq_true.mp hany
  refine List.any_eq_true.mpr ?_
  cases hown : Text.sameName old.schema.name first.schema.name with
  | false => exact ⟨old, (mem_setTable_iff ht hfirst).mpr (.inr ⟨hold, hown⟩), hkept⟩
  | true =>
    refine ⟨first, (mem_setTable_iff ht hfirst).mpr (.inl rfl), ?_⟩
    rw [hfirst] at hown ⊢
    obtain rfl := halone old hold hown
    obtain ⟨hcalled, hthere⟩ := (Bool.and_eq_true ..).mp hkept
    obtain ⟨same, hmem, hsame⟩ := List.any_eq_true.mp hthere
    rw [hcalled, Bool.true_and]
    exact List.any_eq_true.mpr ⟨same, hrows same hmem, hsame⟩

/-- Of two tables with rows between those of `t` and `last`, the one with more rows may take the
place of the other. -/
def KeepsBetween (store : Store) (t last : Table) : Prop :=
  ∀ first next : Table, first.schema = t.schema → next.schema = t.schema →
    (∀ row ∈ t.rows, row ∈ first.rows) → (∀ row ∈ first.rows, row ∈ next.rows) →
    (∀ row ∈ next.rows, row ∈ last.rows) →
    (store.setTable first).checkReferences (store.setTable next) = .ok ()

/-- Where rows are added to a table that does not refer to itself, and leave no row without one that
it refers to, some of them could be added first, or after others. -/
theorem keepsBetween_of_check (ht : store.table table = .ok t) (hlast : last.schema = t.schema)
    (hself : ∀ r ∈ t.schema.references, Text.sameName r.table t.schema.name = false)
    (halone : ∀ u ∈ store.tables, Text.sameName u.schema.name t.schema.name = true → u = t)
    (h : store.checkReferences (store.setTable last) = .ok ()) : store.KeepsBetween t last := by
  intro first next hfirst hnext hrows hrows' hrows''
  rw [checkReferences_eq_ok_iff] at h ⊢
  intro u hu r hr row hrow hlacks
  cases hsame : Text.sameName r.table t.schema.name with
  | true =>
    -- only a row of another table refers to rows of this one
    rcases (mem_setTable_iff ht hnext).mp hu with rfl | ⟨hu, hapart⟩
    · rw [hself r (hnext ▸ hr)] at hsame
      cases hsame
    · have hold : u ∈ (store.setTable first).tables :=
        (mem_setTable_iff ht hfirst).mpr (.inr ⟨hu, by rwa [hfirst, ← hnext]⟩)
      rw [lackedParent_of_mem hold rfl hrow]
      exact lacksParent_of_fewer ht hfirst hnext hrows' hsame hlacks
  | false =>
    refine lackedParent_of_more ht hfirst hrows halone hsame ?_
    rw [lacksParent_setTable_apart ht hnext hsame,
      ← lacksParent_setTable_apart ht hlast hsame] at hlacks
    rcases (mem_setTable_iff ht hnext).mp hu with rfl | ⟨hu, hapart⟩
    · have hschema : u.schema = last.schema := hnext.trans hlast.symm
      rw [hschema] at hr hlacks ⊢
      exact h last ((mem_setTable_iff ht hlast).mpr (.inl rfl)) r hr row (hrows'' row hrow) hlacks
    · refine h u ((mem_setTable_iff ht hlast).mpr (.inr ⟨hu, ?_⟩)) r hr row hrow hlacks
      rwa [hlast, ← hnext]

end Store

end TableQuery
