import TableQuery.Proofs.UpdateEffect

namespace TableQuery

open Sql

namespace Double

/-- A magnitude in 53 binary digits, the others rounded away. -/
def roundedMagnitude (n : Nat) : Nat :=
  roundedQuotient n (twoTo (n.log2 - 52)) * twoTo (n.log2 - 52)

/-- The integer that is left of an integer in a double. -/
def rounded (n : Int) : Int :=
  if n < 0 then -(roundedMagnitude n.natAbs : Int) else roundedMagnitude n.natAbs

/-- The digits of a magnitude below the first 53 are rounded away; those missing are zeros. -/
theorem significandOf_eq (n k : Nat) : significandOf n k * twoTo (k + 1022) =
    roundedQuotient n (twoTo (k - 52)) * twoTo (k - 52) * twoTo 1074 := by
  have hone : twoTo 0 = 1 := rfl
  unfold significandOf
  by_cases hk : k ≤ 52
  · have hzero : k - 52 = 0 := by omega
    have hsum : 52 - k + (k + 1022) = 1074 := by omega
    rw [hzero, hone, roundedQuotient_one, roundedQuotient_one, Nat.mul_one, Nat.mul_assoc,
      ← twoTo_add, hsum]
  · have hzero : 52 - k = 0 := by omega
    have hsum : k + 1022 = k - 52 + 1074 := by omega
    rw [hzero, hone, Nat.mul_one, Nat.mul_assoc, ← twoTo_add, ← hsum]

theorem units_ofInt_rounded {n : Int} (hbound : n.natAbs < twoTo 64) :
    (ofInt n).units = rounded n * unitsPerOne := by
  by_cases hn : n = 0
  · rw [hn]
    decide +kernel
  · rw [units_ofInt hn hbound, significandOf_eq, rounded, roundedMagnitude, unitsPerOne]
    generalize twoTo 1074 = one
    rw [Int.natCast_mul, ← Int.neg_mul]
    split <;> rfl

/-- Integers are one number as doubles where their first 53 binary digits are. -/
theorem sameNumber_ofInt_iff {m n : Int} (hm : isInt64 m = true) (hn : isInt64 n = true) :
    (ofInt m).sameNumber (ofInt n) = true ↔ rounded m = rounded n := by
  have hm := natAbs_lt_of_isInt64 hm
  have hn := natAbs_lt_of_isInt64 hn
  have hpos : unitsPerOne ≠ 0 := by decide +kernel
  rw [sameNumber, not_isNaN_of_finite (finite_ofInt hm), not_isNaN_of_finite (finite_ofInt hn),
    units_ofInt_rounded hm, units_ofInt_rounded hn]
  simp only [Bool.not_false, Bool.true_and, decide_eq_true_iff]
  exact Int.mul_eq_mul_right_iff hpos

end Double

open Double

theorem Value.looselyEq_int_iff {i j : Int} (hi : isInt64 i = true) (hj : isInt64 j = true) :
    Value.looselyEq (.int i) (.int j) = true ↔ rounded i = rounded j :=
  sameNumber_ofInt_iff hi hj

/-- An integer of at most 53 binary digits is told from any other by its double, the next one from
those that are no greater. -/
theorem Double.rounded_inj {i j : Int} (hi : isInt64 i = true)
    (hsmall : j.natAbs < twoTo 53 ∨ (i.natAbs ≤ twoTo 53 ∧ j.natAbs ≤ twoTo 53)) :
    rounded i = rounded j ↔ i = j := by
  have hle : j.natAbs ≤ twoTo 53 := by omega
  have hclose : i.natAbs ≤ twoTo 53 ∨ j.natAbs < twoTo 53 := by omega
  refine ⟨fun h => eq_of_units_ofInt hi hle hclose ?_, congrArg rounded⟩
  rw [units_ofInt_rounded (natAbs_lt_of_isInt64 hi), h,
    units_ofInt_rounded (Nat.lt_of_le_of_lt hle (twoTo_lt (by decide)))]

namespace Entity

variable {e : Entity} {moment : Moment} {record input : Record} {session : Session} {t : Table}
  {row : Row} {p k : Nat} {column : String} {i j : Int}

theorem statement_mem_of_exec (hkey : (record.value e.primaryKey).isNull = false)
    (hchanged : changedColumns record input ≠ [])
    (hvalid : ∀ column ∈ changedColumns record input, Identifier.valid column = true)
    (session : Session) : Event.statement (e.writing moment record input).text ∈
      ((e.update moment record input).exec session).2.events := by
  rw [exec_update_changed hkey hchanged hvalid]
  dsimp only
  cases session.store.update (e.writing moment record input) with
  | error fault => simp
  | ok done => rcases hrows : done.2.rows with _ | ⟨_ | _, _⟩ <;> simp [hrows]

/-- An input sets an integer column of the one row with the key of a record, which shows the
integer of the row there, to an integer. -/
structure SetsInteger (e : Entity) (record input : Record) (t : Table) (row : Row)
    (column : String) (k : Nat) (i j : Int) : Prop where
  keyed : (record.value e.primaryKey).isNull = false
  alone : t.rowsWith e.primaryKey (record.value e.primaryKey) = [row]
  declared : t.schema.Declares column k
  integer : (t.schema.cells[k]?).map Column.affinity = some .integer
  cell : row.cell k = .int i
  shown : record.value column = .int i
  named : column ∈ input.keys
  value : input.value column = .int j
  calls : e.Calls t.schema (changedColumns record input)
  valid : ∀ column ∈ changedColumns record input, Identifier.valid column = true

theorem SetsInteger.changed_iff (h : e.SetsInteger record input t row column k i j) :
    column ∈ changedColumns record input ↔ rounded i ≠ rounded j := by
  have hiff := Value.looselyEq_int_iff (Record.isInt64_of_value h.shown)
    (Record.isInt64_of_value h.value)
  rw [mem_changedColumns, h.shown, h.value, and_iff_right h.named, ← Bool.not_eq_true, hiff]

theorem SetsInteger.storedAt (h : e.SetsInteger record input t row column k i j) :
    t.schema.storedAt k (.ofValue (input.value column)) = .int j := by
  obtain ⟨own, hown, haffinity⟩ := Option.map_eq_some_iff.mp h.integer
  rw [h.value, Schema.storedAt, hown]
  dsimp only
  rw [haffinity]
  rfl

/-- The dirty check takes two integers for the same where they are the same double, which tells all
of up to 53 binary digits. An update that sets an integer column of a stored row to an integer that
is another double writes it: the row with the key gives way to one with the integer. An update that
sets it to the same double leaves the column of that row as it is. -/
theorem update_writes_int_iff {i j : Int} (hi : isInt64 i = true) (hj : isInt64 j = true) :
    (Value.looselyEq (.int i) (.int j) = true ↔ rounded i = rounded j) ∧
    (j.natAbs < twoTo 53 ∨ (i.natAbs ≤ twoTo 53 ∧ j.natAbs ≤ twoTo 53) →
      (Value.looselyEq (.int i) (.int j) = true ↔ i = j)) ∧
    ∀ (e : Entity) (moment : Moment) (record input : Record) (session : Session) (t : Table)
      (row : Row) (p k : Nat) (column : String), e.Tabled session.store t p →
      e.SetsInteger record input t row column k i j →
      (rounded i ≠ rounded j →
        Event.statement (e.writing moment record input).text ∈
          ((e.update moment record input).exec session).2.events ∧
        (column, .int j) ∈ (e.writing moment record input).assignments) ∧
      ∀ found after, (e.update moment record input).exec session = (.ok found, after) →
        (rounded i ≠ rounded j → ∃ stored,
          e.Effect moment record input t session.store after.store row stored ∧
          stored.cell k = .int j) ∧
        (rounded i = rounded j → (after.store = session.store ∧ row.cell k = .int i) ∨ ∃ stored,
          e.Effect moment record input t session.store after.store row stored ∧
          ((e.timestamps = true → t.schema.columnIndex? updatedAt ≠ some k) →
            stored.cell k = .int i)) := by
  refine ⟨Value.looselyEq_int_iff hi hj, fun hsmall => ?_, ?_⟩
  · rw [Value.looselyEq_int_iff hi hj, rounded_inj hi hsmall]
  · intro e moment record input session t row p k column htabled h
    refine ⟨fun hne => ⟨?_, ?_⟩, fun found after hrun => ?_⟩
    · have hchanged := List.ne_nil_of_mem (h.changed_iff.mpr hne)
      exact statement_mem_of_exec h.keyed hchanged h.valid session
    · have hmem := List.mem_map_of_mem (f := fun column => (column, input.value column))
        (h.changed_iff.mpr hne)
      rw [h.value] at hmem
      exact mem_withChangeTime_of_mem hmem e moment
    · obtain ⟨_, ⟨hclean, hstore⟩ | ⟨result, hupdate⟩⟩ := of_update hrun
      · refine ⟨fun hne => ?_, fun _ => .inl ⟨hstore, h.cell⟩⟩
        have hmem := h.changed_iff.mpr hne
        rw [hclean] at hmem
        cases hmem
      · obtain ⟨stored, _, _, heffect⟩ := htabled.effect h.keyed h.calls h.alone hupdate
        refine ⟨fun hne => ⟨stored, heffect, ?_⟩, fun hsame => .inr ⟨stored, heffect, fun htime => ?_⟩⟩
        · obtain ⟨k', hk', hwritten⟩ := heffect.written column (h.changed_iff.mpr hne)
          obtain rfl := Option.some.inj (h.declared.index.symm.trans hk'.index)
          exact hwritten.trans h.storedAt
        · refine (heffect.other k (fun other hother hdeclares => ?_)
            fun htimestamps _ => htime htimestamps).trans h.cell
          rw [hdeclares.name_eq h.declared] at hother
          exact h.changed_iff.mp hother hsame

end Entity

namespace Shop

/-- A customer whose status has no double of its own, and one with a greater status. -/
def greatCustomers : Table where
  schema := customerSchema
  rows :=
    [[.int 1, .text "x", .null, .int 9007199254740993, .null, .null, .null, .null, .null],
     [.int 2, .text "y", .null, .int 9007199254740995, .null, .null, .null, .null, .null]]

def greatStatus : Store where
  tables := [greatCustomers, { schema := auditSchema }]
  watches := emptyStore.watches

/-- Two integers look the same that are not, and an update from one to the other does nothing. -/
theorem update_leaves_great_status :
    isInt64 9007199254740993 = true ∧ isInt64 9007199254740992 = true ∧
    Value.looselyEq (.int 9007199254740993) (.int 9007199254740992) = true ∧
    ((do
      let found ← customers.find (.int 1)
      let _ ← customers.update ⟨"now", ""⟩ (found.getD .empty)
        (.ofList [("status", .int 9007199254740992)])
      let left ← customers.find (.int 1)
      pure (left.map (·.value "status")) : Run (Option Value)).exec
        { store := greatStatus }).1.toOption = some (some (.int 9007199254740993)) := by
  decide +kernel

theorem tabled_greatStatus : customers.Tabled greatStatus greatCustomers 0 := by
  decide +kernel

def shownStatus : Record :=
  .ofList [("id", .int 1), ("status", .int 9007199254740993)]

def greaterStatus : Record :=
  .ofList [("status", .int 9007199254740995)]

theorem setsInteger_greaterStatus : customers.SetsInteger shownStatus greaterStatus greatCustomers
    [.int 1, .text "x", .null, .int 9007199254740993, .null, .null, .null, .null, .null]
    "status" 3 9007199254740993 9007199254740995 where
  keyed := by decide +kernel
  alone := by decide +kernel
  declared := by decide +kernel
  integer := by decide +kernel
  cell := by decide +kernel
  shown := by decide +kernel
  named := by decide +kernel
  value := by decide +kernel
  calls := by decide +kernel
  valid := by decide +kernel

/-- The status of the first customer becomes that of the second, who stays. -/
theorem update_writes_greater_status :
    ∃ found after, ∃ stored second : Row,
      (customers.update ⟨"now", ""⟩ shownStatus greaterStatus).exec
        { store := greatStatus } = (.ok found, after) ∧
      greatCustomers.rows[1]? = some second ∧
      (∃ t', after.store.table "customers" = .ok t' ∧ t'.rows.Perm [stored, second]) ∧
      stored.cell 0 = .int 1 ∧ stored.cell 3 = .int 9007199254740995 := by
  have hupdated : ((customers.update ⟨"now", ""⟩ shownStatus greaterStatus).exec
      { store := greatStatus }).1.toOption.isSome = true := by
    decide +kernel
  have hchanged : Entity.changedColumns shownStatus greaterStatus = ["status"] := by
    decide +kernel
  rcases hrun : (customers.update ⟨"now", ""⟩ shownStatus greaterStatus).exec
      { store := greatStatus } with ⟨fault | found, after⟩
  · rw [hrun] at hupdated
    cases hupdated
  · obtain ⟨_, _, hupdates⟩ := Entity.update_writes_int_iff (i := 9007199254740993)
      (j := 9007199254740995) (by decide) (by decide)
    obtain ⟨_, hwrites⟩ := hupdates customers ⟨"now", ""⟩ shownStatus greaterStatus
      { store := greatStatus } greatCustomers _ 0 3 "status" tabled_greatStatus
      setsInteger_greaterStatus
    obtain ⟨stored, heffect, hcell⟩ := (hwrites found after hrun).1 (by decide +kernel)
    obtain ⟨t', ht', _, hperm⟩ := heffect.own (by decide +kernel)
    refine ⟨found, after, stored, _, rfl, rfl, ⟨t', ht', hperm⟩, ?_, hcell⟩
    refine (heffect.other 0 (fun column hcolumn hdeclares => ?_) fun _ _ => ?_).trans rfl
    · rw [hchanged, List.mem_singleton] at hcolumn
      subst hcolumn
      have hsame := hdeclares.index
      have hstatus : customerSchema.columnIndex? "status" = some 3 := by decide +kernel
      cases hstatus.symm.trans hsame
    · decide +kernel

end Shop

end TableQuery
