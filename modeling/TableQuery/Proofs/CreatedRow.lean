import TableQuery.Proofs.InsertedRows
import TableQuery.Proofs.StoredEntity

namespace TableQuery

open Sql

namespace OrderedMap

variable {α : Type}

theorem get?_erase_of_ne {m : OrderedMap α} {key k : String} (h : k ≠ key) :
    (m.erase key).get? k = m.get? k := by
  have hfind : (m.entries.filter (·.1 ≠ key)).find? (·.1 = k) = m.entries.find? (·.1 = k) := by
    rw [List.find?_filter]
    congr 1
    funext entry
    by_cases hk : entry.1 = k
    · simp [hk, h]
    · simp [hk]
  rw [get?, get?, erase, hfind]

theorem get?_erase_self (m : OrderedMap α) (key : String) : (m.erase key).get? key = none := by
  have hnone : (m.entries.filter (·.1 ≠ key)).find? (·.1 = key) = none := by
    refine List.find?_eq_none.mpr fun entry hmem hkey => ?_
    have hne := (List.mem_filter.mp hmem).2
    rw [decide_eq_true_iff] at hkey hne
    exact hne hkey
  rw [get?, erase, hnone, Option.map_none]

end OrderedMap

namespace Record

theorem value_congr {r r' : Record} {column : String} (h : r.get? column = r'.get? column) :
    r.value column = r'.value column := by
  rw [value, value, h]

end Record

namespace Entity

variable {e : Entity} {moment : Moment} {input : Record} {column : String}

/-- A new row with its key and its times. -/
def completed (e : Entity) (moment : Moment) (input : Record) : Record :=
  e.withTimes moment (e.withKey moment input)

/-- A time that is missing or null is the time of the write, and all else stays. -/
theorem get?_withTimes (row : Record) (column : String) :
    (e.withTimes moment row).get? column =
      if e.timestamps = true ∧ column ∈ [createdAt, updatedAt] ∧ (row.value column).isNull = true
      then some (.text moment.now) else row.get? column := by
  have hstep : ∀ (row : Record) (time : String),
      OrderedMap.get? (if (row.value time).isNull then row.insert time (.text moment.now) else row)
        column = if column = time ∧ (row.value column).isNull = true then some (.text moment.now)
          else row.get? column := by
    intro row time
    by_cases htime : column = time
    · subst htime
      simp only [true_and]
      split
      next => exact OrderedMap.get?_insert_self
      next => rfl
    · simp only [htime, false_and, if_false]
      split
      next => exact OrderedMap.get?_insert_of_ne htime
      next => rfl
  have happart : createdAt ≠ updatedAt := by decide
  unfold withTimes
  split
  next htimestamps =>
    rw [List.foldl_cons, List.foldl_cons, List.foldl_nil, hstep]
    by_cases hupdated : column = updatedAt
    · -- the first step has left the later time
      have hfirst := (hstep row createdAt).trans
        (if_neg fun h => happart (h.1.symm.trans hupdated))
      rw [Record.value_congr hfirst, hfirst]
      simp [htimestamps, hupdated]
    · rw [if_neg fun h => hupdated h.1, hstep]
      simp [htimestamps, hupdated]
  next htimeless => simp [htimeless]

theorem get?_withTimes_of_ne (hcreated : column ≠ createdAt) (hupdated : column ≠ updatedAt)
    (row : Record) : (e.withTimes moment row).get? column = row.get? column := by
  rw [get?_withTimes]
  simp [hcreated, hupdated]

theorem get?_withKey (h : column = e.primaryKey → (input.value column).isNull = false ∨
    e.keyKind = .given) : (e.withKey moment input).get? column = input.get? column := by
  unfold withKey
  split
  next hkind =>
    split
    next hnull =>
      refine OrderedMap.get?_insert_of_ne fun hcolumn => ?_
      have hgiven := h hcolumn
      rw [hcolumn, hnull, hkind] at hgiven
      simp at hgiven
    next => rfl
  next hkind =>
    split
    next hnull =>
      refine OrderedMap.get?_erase_of_ne fun hcolumn => ?_
      have hgiven := h hcolumn
      rw [hcolumn, hnull, hkind] at hgiven
      simp at hgiven
    next => rfl
  next => rfl

/-- A new row has a column as the input brings it: it is no key and no time to be made. -/
def Passes (e : Entity) (input : Record) (column : String) : Prop :=
  (input.value column).isNull = true →
    (column = e.primaryKey → e.keyKind = .given) ∧
      (e.timestamps = true → column ∉ [createdAt, updatedAt])

instance (input : Record) (column : String) : Decidable (e.Passes input column) :=
  inferInstanceAs (Decidable (_ → _))

theorem Passes.get?_completed (h : e.Passes input column) :
    (e.completed moment input).get? column = input.get? column := by
  have hkey : (e.withKey moment input).get? column = input.get? column := by
    refine get?_withKey fun hcolumn => ?_
    cases hnull : (input.value column).isNull with
    | false => exact .inl rfl
    | true => exact .inr ((h hnull).1 hcolumn)
  rw [completed, get?_withTimes, Record.value_congr hkey, hkey]
  exact if_neg fun ⟨htimestamps, htime, hnull⟩ => (h hnull).2 htimestamps htime

/-- What a row brings stays, apart from a key that is null. -/
theorem get?_completed (hcreated : column ≠ createdAt) (hupdated : column ≠ updatedAt)
    (hkey : column = e.primaryKey → (input.value column).isNull = false) :
    (e.completed moment input).get? column = input.get? column := by
  refine Passes.get?_completed fun hnull => ⟨fun hcolumn => ?_, fun _ => ?_⟩
  · rw [hkey hcolumn] at hnull
    cases hnull
  · simp [hcreated, hupdated]

/-- Both times of a new row are those of the input or, missing or null, the time of the write. -/
theorem value_completed_time (htimestamps : e.timestamps = true)
    (htime : column ∈ [createdAt, updatedAt]) (hkey : column ≠ e.primaryKey) :
    (e.completed moment input).value column =
      if (input.value column).isNull then .text moment.now else input.value column := by
  have hleft : (e.withKey moment input).get? column = input.get? column :=
    get?_withKey fun hcolumn => absurd hcolumn hkey
  have hget : (e.completed moment input).get? column = _ :=
    get?_withTimes (e.withKey moment input) column
  rw [Record.value_congr hleft, hleft] at hget
  cases hnull : (input.value column).isNull with
  | true =>
    rw [if_pos ⟨htimestamps, htime, hnull⟩] at hget
    rw [Record.value, hget]
    rfl
  | false =>
    rw [if_neg fun hmade => by simp [hnull] at hmade] at hget
    exact Record.value_congr hget

theorem mem_keys_completed (h : column ∈ (e.completed moment input).keys) :
    column ∈ input.keys ∨ column = e.primaryKey ∨ column ∈ [createdAt, updatedAt] := by
  by_cases hkey : column = e.primaryKey
  · exact .inr (.inl hkey)
  by_cases htime : column ∈ [createdAt, updatedAt]
  · exact .inr (.inr htime)
  obtain ⟨hcreated, hupdated⟩ : column ≠ createdAt ∧ column ≠ updatedAt := by
    simpa using htime
  rw [OrderedMap.mem_keys_iff, get?_completed hcreated hupdated fun h => absurd h hkey,
    ← OrderedMap.mem_keys_iff] at h
  exact .inl h

theorem value_completed_fresh (h : e.keyKind = .fresh) (hcreated : e.primaryKey ≠ createdAt)
    (hupdated : e.primaryKey ≠ updatedAt) (hnull : (input.value e.primaryKey).isNull = true) :
    (e.completed moment input).value e.primaryKey = .text moment.freshKey := by
  rw [completed, Record.value_congr (get?_withTimes_of_ne hcreated hupdated _), withKey, h]
  dsimp only
  rw [if_pos hnull, Record.value, OrderedMap.get?_insert_self]
  rfl

theorem key_completed_counted (h : e.keyKind = .counted) (hcreated : e.primaryKey ≠ createdAt)
    (hupdated : e.primaryKey ≠ updatedAt) (hnull : (input.value e.primaryKey).isNull = true) :
    (e.completed moment input).get? e.primaryKey = none := by
  rw [completed, get?_withTimes_of_ne hcreated hupdated, withKey, h]
  dsimp only
  rw [if_pos hnull, OrderedMap.get?_erase_self]

/-- A new row is one insert of what it becomes with its key and its times, and comes back as it is
stored. -/
theorem of_createRow {t : Table} {session after : Session} {found : Record}
    (ht : session.store.table e.table = .ok t)
    (h : (e.createRow moment input).exec session = (.ok found, after)) :
    ∃ columns next row,
      (e.completed moment input).keys.mapM t.schema.writtenColumn = .ok columns ∧
      t.addRow (columns.zip (((e.completed moment input).keys.map
        (e.completed moment input).value).map Datum.ofValue)) none = .ok (next, .added row) ∧
      next.readRow row = .ok found ∧
      ∃ schemas, after.store = (session.store.setTable next).noteWritten schemas := by
  unfold createRow at h
  change Run.exec (Run.ofInvalid ((e.completed moment input).keys.mapM checkedName) >>= _) _ = _
    at h
  obtain ⟨names, between, hnames, hinsert⟩ := Run.of_bind_ok h
  obtain ⟨hchecked, rfl⟩ := Run.of_ofInvalid hnames
  obtain ⟨rfl, _⟩ := of_checkedNames hchecked
  obtain ⟨result, hstored, hfound⟩ := of_writtenRow hinsert
  obtain ⟨columns, next, row, hcolumns, hadd, hrows, schemas, hafter⟩ :=
    Store.of_insert_one ht hstored
  rw [hrows, List.head?_cons] at hfound
  exact ⟨columns, next, row, hcolumns, hadd, Option.some.inj hfound, schemas, hafter⟩

section

variable {attributes values found : Record} {store : Store} {session after : Session}
  {t noted : Table} {row : Row} {p k : Nat} {name : String}

theorem ne_times (h : ∀ time ∈ [createdAt, updatedAt], Text.sameName name time = false) :
    name ≠ createdAt ∧ name ≠ updatedAt := by
  have hne : ∀ time ∈ [createdAt, updatedAt], name ≠ time := by
    rintro time htime rfl
    have hself := h name htime
    rw [Text.sameName_refl] at hself
    cases hself
  exact ⟨hne createdAt (by simp), hne updatedAt (by simp)⟩

/-- A column that is none of the times is not written under their names. -/
theorem writtenColumn_time {s : Schema} (hk : s.Declares name k)
    (hname : ∀ time ∈ [createdAt, updatedAt], Text.sameName name time = false) {time : String}
    (htime : time ∈ [createdAt, updatedAt]) : s.writtenColumn time ≠ .ok k := by
  intro hwritten
  have hkey : Schema.isKeyName time = false := by
    rcases List.mem_pair.mp htime with rfl | rfl <;> decide
  have hsame := Schema.sameName_of_columnIndex?
    (Schema.columnIndex?_of_writtenColumn hkey hwritten) hk
  rw [hname time htime] at hsame
  cases hsame

/-- The row that a new record becomes, before it has a key of the store. -/
def newRow (e : Entity) (s : Schema) (moment : Moment) (input : Record) : Row :=
  s.rowOf (e.completed moment input).keys (e.completed moment input)

theorem length_newRow (e : Entity) (s : Schema) (moment : Moment) (input : Record) :
    (e.newRow s moment input).length = s.cells.length := by
  simp [newRow, Schema.rowOf, Schema.rowBy]

/-- The key of the store aside, a new row with its key has the cells of what it becomes. -/
theorem keyed_newRow (h : t.Ordered) {input : Record}
    (hkeyed : t.keyed (e.newRow t.schema moment input) = .ok (noted, row)) :
    row.length = t.schema.cells.length ∧ (∃ n, row.cell t.schema.keyIndex = .int n) ∧
      ∀ i, i ≠ t.schema.keyIndex ∨ (e.newRow t.schema moment input).cell i ≠ .null →
        row.cell i = (e.newRow t.schema moment input).cell i := by
  have hlength := length_newRow e t.schema moment input
  have hrow := Table.keyed_row hkeyed (hlength ▸ h.schema.lt)
  rw [hlength] at hrow
  exact hrow

end

end Entity

end TableQuery
