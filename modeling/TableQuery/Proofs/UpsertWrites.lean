import TableQuery.Proofs.InsertedBatch
import TableQuery.Proofs.InsertedRows
import TableQuery.Proofs.UpsertedRows
import TableQuery.Shop

namespace TableQuery

namespace Store

/-- Rows that are all given new keys meet none. Others meet the rows that hold the same in the
unique columns, and the columns to update are looked up. -/
theorem meetingOf_cases {schema : Schema} {columns : List Nat} {conflict : Conflict}
    {meeting : Option Table.Meeting} (h : meetingOf schema columns conflict = .ok meeting) :
    ∃ ks, meetingColumns schema conflict.unique = .ok ks ∧
      ((ks = [schema.keyIndex] ∧ schema.keyIndex ∉ columns ∧ meeting = none) ∨
        ∃ update, conflict.update.mapM schema.writtenColumn = .ok update ∧
          meeting = some ⟨ks, update⟩) := by
  obtain ⟨ks, hks, h⟩ := Except.of_bind_ok h
  obtain ⟨names, hnames, h⟩ := Except.of_bind_ok h
  have hsame : names = conflict.update.map id :=
    Except.eq_map_of_mapM_ok (fun _ _ => eq_of_plainName) hnames
  rw [List.map_id] at hsame
  subst hsame
  refine ⟨ks, hks, ?_⟩
  split at h
  next hnew =>
    cases h
    obtain ⟨hkey, hmissing⟩ : ks = [schema.keyIndex] ∧ schema.keyIndex ∉ columns := by
      simpa using hnew
    exact .inl ⟨hkey, hmissing, rfl⟩
  next =>
    obtain ⟨update, hupdate, h⟩ := Except.of_bind_ok h
    cases h
    exact .inr ⟨update, hupdate, rfl⟩

end Store

theorem Run.of_checked {names checked : List String} {session after : Session}
    (h : (ofInvalid (names.mapM checkedName)).exec session = (.ok checked, after)) :
    checked = names ∧ after = session := by
  obtain ⟨hchecked, hafter⟩ := of_ofInvalid h
  exact ⟨(of_checkedNames hchecked).1, hafter⟩

namespace Entity

variable {e : Entity} {moment : Moment} {rows : List Record} {unique update : List String}
  {session after : Session} {count : Nat}

/-- A row with the time in columns that it lacked. -/
def Timed (moment : Moment) (row timed : Record) : Prop :=
  ∀ column, (column ∈ row.keys ∧ column ∈ timed.keys ∧ timed.value column = row.value column) ∨
    (column ∉ row.keys ∧ (column ∈ timed.keys → timed.value column = .text moment.now))

theorem Timed.refl (moment : Moment) (row : Record) : Timed moment row row := by
  intro column
  by_cases hmem : column ∈ row.keys
  · exact .inl ⟨hmem, hmem, rfl⟩
  · exact .inr ⟨hmem, fun h => absurd h hmem⟩

theorem Timed.insert {row timed : Record} (h : Timed moment row timed) (added : String) :
    Timed moment row
      (if timed.contains added then timed else timed.insert added (.text moment.now)) := by
  split
  next => exact h
  next hmissing =>
    intro column
    have hnew : added ∉ timed.keys := fun hmem =>
      hmissing (OrderedMap.contains_iff.mpr hmem)
    by_cases hcolumn : column = added
    · subst hcolumn
      rcases h column with ⟨_, htimed, _⟩ | ⟨hnone, _⟩
      · exact absurd htimed hnew
      · refine .inr ⟨hnone, fun _ => ?_⟩
        rw [Record.value, OrderedMap.get?_insert_self]
        rfl
    · have hvalue : Record.value (timed.insert added (.text moment.now)) column =
          timed.value column := by
        rw [Record.value, OrderedMap.get?_insert_of_ne hcolumn]
        rfl
      have hkeys : column ∈ (timed.insert added (Json.text moment.now)).keys ↔
          column ∈ timed.keys := by
        rw [OrderedMap.mem_keys_insert]
        simp [hcolumn]
      rw [hvalue, hkeys]
      exact h column

theorem timed_withMissingTimes (e : Entity) (moment : Moment) (row : Record) :
    Timed moment row (e.withMissingTimes moment row) := by
  unfold withMissingTimes
  split
  next => exact ((Timed.refl moment row).insert createdAt).insert updatedAt
  next => exact Timed.refl moment row

/-- The columns that a row is written with: its own and the times of its entity that it lacks. -/
def writtenNames (e : Entity) (row : Record) : List String :=
  row.keys ++ if e.timestamps then [createdAt, updatedAt].filter fun time => time ∉ row.keys else []

/-- The value that a row is written with: its own or, for a time that it lacks, the moment. -/
def writtenValue (e : Entity) (moment : Moment) (row : Record) (column : String) : Value :=
  if e.timestamps ∧ column ∈ [createdAt, updatedAt] ∧ column ∉ row.keys then .text moment.now
  else row.value column

theorem keys_withMissingTimes (e : Entity) (moment : Moment) (row : Record) :
    (e.withMissingTimes moment row).keys = e.writtenNames row := by
  have hstep : ∀ (row : Record) (time : String),
      OrderedMap.keys (if row.contains time then row else row.insert time (.text moment.now)) =
        row.keys ++ [time].filter fun time => time ∉ row.keys := by
    intro row time
    split
    next hthere => simp [OrderedMap.contains_iff.mp hthere]
    next hmissing =>
      have hnew : time ∉ row.keys := fun hmem => hmissing (OrderedMap.contains_iff.mpr hmem)
      rw [OrderedMap.keys_insert_of_not_mem hnew]
      simp [hnew]
  have hapart : updatedAt ≠ createdAt := by decide
  unfold withMissingTimes writtenNames
  split
  next =>
    rw [List.foldl_cons, List.foldl_cons, List.foldl_nil, hstep, hstep, List.append_assoc]
    congr 1
    by_cases hcreated : createdAt ∈ row.keys
    · simp [hcreated]
    · simp [hcreated, hapart, List.filter_cons]
  next => rw [List.append_nil]

theorem time_mem_writtenNames (h : e.timestamps = true) (row : Record) {time : String}
    (htime : time ∈ [createdAt, updatedAt]) : time ∈ e.writtenNames row := by
  rw [writtenNames, if_pos h, List.mem_append, List.mem_filter, decide_eq_true_iff]
  by_cases hmem : time ∈ row.keys
  · exact .inl hmem
  · exact .inr ⟨htime, hmem⟩

/-- The rows that an upsert is to write, as they are stored: each has the columns of the first. -/
def batch (e : Entity) (s : Schema) (moment : Moment) (rows : List Record) : List Row :=
  rows.map fun row =>
    s.rowBy ((rows.head?.map e.writtenNames).getD []) (e.writtenValue moment row)

/-- The columns that an upsert overwrites where rows meet: those it names and, if it names any, the
time of the change. -/
def overwrites (e : Entity) (update : List String) : List String :=
  if e.timestamps ∧ update ≠ [] then update ++ [updatedAt] else update

def overwritten (e : Entity) (s : Schema) (update : List String) : List Nat :=
  s.indices (e.overwrites update)

theorem mem_overwrites {column : String} : column ∈ e.overwrites update ↔
    column ∈ update ∨ e.timestamps = true ∧ update ≠ [] ∧ column = updatedAt := by
  unfold overwrites
  split
  next hasks => simp [hasks]
  next hnot =>
    refine ⟨.inl, fun h => h.elim id fun h => absurd ⟨h.1, h.2.1⟩ hnot⟩

theorem mem_conflictColumns {column : String} :
    column ∈ e.conflictColumns update ↔ column ∈ e.overwrites update := by
  unfold conflictColumns overwrites
  by_cases hasks : e.timestamps = true ∧ update ≠ []
  · by_cases hmem : updatedAt ∈ update
    · rw [if_pos hasks, if_neg (by simp [hmem]), List.mem_append, List.mem_singleton]
      exact ⟨.inl, fun h => h.elim id fun h => h ▸ hmem⟩
    · rw [if_pos hasks, if_pos (by simp [hasks, hmem])]
  · rw [if_neg hasks, if_neg fun h => hasks ?_]
    simp only [Bool.and_eq_true, Bool.not_eq_true', List.isEmpty_eq_false_iff] at h
    exact h.1

theorem mem_overwritten {s : Schema} {i : Nat} :
    i ∈ s.indices (e.conflictColumns update) ↔ i ∈ e.overwritten s update := by
  simp only [overwritten, Schema.mem_indices, mem_conflictColumns]

/-- A batch for an upsert: its rows have values in the unique columns `ks`, and in the columns to
update, none of which is the key. -/
structure Upserts (e : Entity) (s : Schema) (ks : List Nat) (rows : List Record)
    (update : List String) : Prop where
  keyed : ∀ row ∈ rows, ∀ k ∈ ks, ∃ column ∈ row.keys, s.writtenColumn column = .ok k
  not_null : ∀ row ∈ rows, ∀ k ∈ ks, ∀ column ∈ row.keys, s.writtenColumn column = .ok k →
    row.value column ≠ .null
  updated : ∀ row ∈ rows, ∀ column ∈ update, ∀ i, s.writtenColumn column = .ok i →
    ∃ own ∈ row.keys, s.writtenColumn own = .ok i
  not_key : ∀ column ∈ e.overwrites update, s.writtenColumn column ≠ .ok s.keyIndex

/-- An upsert of no rows does nothing; any other is one insert, of rows that have all columns of the
first. -/
theorem of_upsert (h : (e.upsert moment rows unique update).exec session = (.ok count, after)) :
    (rows = [] ∧ after.store = session.store) ∨
      ∃ first rest, rows.map (e.withMissingTimes moment) = first :: rest ∧
        (∀ row ∈ first :: rest, ∀ column ∈ first.keys, column ∈ row.keys) ∧
        ∃ result, session.store.insert
          ⟨e.table, first.keys, (first :: rest).map fun row => first.keys.map row.value,
            some ⟨unique, e.conflictColumns update⟩, false⟩ = .ok (after.store, result) := by
  have hrun := Run.of_logged h
  clear h
  unfold upsertRows at hrun
  split at hrun
  next => cases hrun
  next =>
    obtain ⟨unique', between, hunique, hrun'⟩ := Run.of_bind_ok hrun
    obtain ⟨rfl, rfl⟩ := Run.of_checked hunique
    clear hrun
    obtain ⟨update', between, hupdate, hinsert⟩ := Run.of_bind_ok hrun'
    obtain ⟨rfl, rfl⟩ := Run.of_checked hupdate
    clear hrun'
    unfold insertRows at hinsert
    cases hrows : rows.map (e.withMissingTimes moment) with
    | nil =>
      rw [hrows] at hinsert
      cases hinsert
      exact .inl ⟨List.map_eq_nil_iff.mp hrows, rfl⟩
    | cons first rest =>
      rw [hrows] at hinsert
      refine .inr ⟨first, rest, rfl, ?_⟩
      obtain ⟨hinsertable, result, hinserted, _⟩ := of_insertRows hinsert
      exact ⟨fun row hmem column => (hinsertable.sameColumns hmem column).mpr, result, hinserted⟩

theorem Timed.mem_keys {row timed : Record} (h : Timed moment row timed) {column : String}
    (hmem : column ∈ row.keys) : column ∈ timed.keys := by
  rcases h column with ⟨_, htimed, _⟩ | ⟨hnone, _⟩
  · exact htimed
  · exact absurd hmem hnone

/-- A row of a batch meets others in its unique columns. -/
theorem Upserts.meets {s : Schema} {ks : List Nat} {first row : Record}
    (h : e.Upserts s ks rows update) (hschema : s.Keyed) (hks : ∀ k ∈ ks, k < s.cells.length)
    (hfirst : first ∈ rows) (hrow : row ∈ rows)
    (hall : ∀ column ∈ (e.withMissingTimes moment first).keys,
      column ∈ (e.withMissingTimes moment row).keys) :
    s.Meets ks (s.indices (e.conflictColumns update))
      (s.rowOf (e.withMissingTimes moment first).keys (e.withMissingTimes moment row)) := by
  have htimed := e.timed_withMissingTimes moment first
  have hupdate : ∀ i ∈ s.indices (e.conflictColumns update), i ≠ s.keyIndex ∧ i < s.cells.length ∧
      ∃ name, s.source? (e.withMissingTimes moment first).keys i = some name := by
    intro i hi
    obtain ⟨column, hcolumn, hindex⟩ := Schema.mem_indices.mp (mem_overwritten.mp hi)
    obtain ⟨name, hname⟩ := Schema.index?_of_writtenColumn hindex
    refine ⟨?_, Schema.index?_lt hschema.lt hname, Schema.exists_source? ?_⟩
    · rintro rfl
      exact h.not_key column hcolumn hindex
    · rcases mem_overwrites.mp hcolumn with hcolumn | ⟨htimes, _, rfl⟩
      · obtain ⟨own, hown, hsame⟩ := h.updated first hfirst column hcolumn i hindex
        exact ⟨own, htimed.mem_keys hown, hsame⟩
      · exact ⟨updatedAt, e.keys_withMissingTimes moment first ▸ time_mem_writtenNames htimes first
          (by simp), hindex⟩
  refine ⟨fun k hk => ?_, fun i hi => (hupdate i hi).1, fun i hi => (hupdate i hi).2.1,
    fun i hi => ?_⟩
  · obtain ⟨column, hcolumn, hindex⟩ := h.keyed first hfirst k hk
    obtain ⟨name, hname⟩ := Schema.exists_source? ⟨column, htimed.mem_keys hcolumn, hindex⟩
    obtain ⟨hmem, hnamed⟩ := Schema.mem_of_source? hname
    rw [Schema.cell_rowOf hname (hks k hk)]
    refine Schema.storedAt_ne_null fun hnull => ?_
    -- the value was given, or it is the time
    rcases e.timed_withMissingTimes moment row name with ⟨hgiven, _, hvalue⟩ | ⟨_, hvalue⟩
    · rw [hvalue] at hnull
      exact Datum.ofValue_ne_null (h.not_null row hrow k hk name hgiven hnamed) hnull
    · rw [hvalue (hall name hmem)] at hnull
      cases hnull
  · obtain ⟨hkey, hlt, name, hname⟩ := hupdate i hi
    rw [Schema.cell_rowOf hname hlt, s.storedAt_storedAt i (Record.value_fits _ name)]

end Entity

namespace Shop

end Shop

end TableQuery
