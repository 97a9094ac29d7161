import TableQuery.Proofs.ConditionGrammar
import TableQuery.Shop

namespace TableQuery.Condition

/-- An entry gives no value, or null for one. -/
def IsAbsent (entry : Json) : Prop :=
  entry.field? "value" = none ∨ entry.field? "value" = some .null

theorem readEntry_eq_none_iff {column : String} {entry : Json} :
    readEntry column entry = .ok none ↔ IsAbsent entry := by
  unfold readEntry IsAbsent
  split
  next hnone => simp [hnone]
  next hnull => simp [hnull]
  next value hnull hvalue =>
    have hpresent : ¬(entry.field? "value" = none ∨ entry.field? "value" = some .null) := by
      simpa [hvalue] using hnull
    refine iff_of_false ?_ hpresent
    split
    next operator _ => cases readPredicate operator value entry <;> nofun
    next => nofun

theorem readEntries_append (before after : List (String × Json)) :
    readEntries (before ++ after) = (do
      let first ← readEntries before
      let second ← readEntries after
      pure (first ++ second)) := by
  induction before with
  | nil => exact (bind_pure (readEntries after)).symm
  | cons head rest ih =>
    obtain ⟨column, entry⟩ := head
    rw [List.cons_append, readEntries, ih, readEntries]
    simp only [bind_assoc, pure_bind, List.cons_append]

theorem criteria_append (e : Entity) (first second : Condition) :
    criteria e (first ++ second) = (do
      let before ← criteria e first
      let after ← criteria e second
      pure (before ++ after)) := by
  induction first with
  | nil => exact (bind_pure (criteria e second)).symm
  | cons head rest ih =>
    obtain ⟨column, predicate⟩ := head
    cases predicate with
    | none => rw [List.cons_append, criteria_cons_none, ih, criteria_cons_none]
    | some predicate =>
      rw [List.cons_append, criteria_cons_some, ih, criteria_cons_some]
      simp only [bind_assoc, pure_bind, List.cons_append]

/-- The clauses of a condition in its JSON form. -/
def clausesOfJson (e : Entity) (j : Json) : Except InvalidInput Criteria :=
  ofJson j >>= criteria e

theorem clausesOfJson_absent (e : Entity) (before after : List (String × Json)) (column : String)
    {entry : Json} (h : IsAbsent entry) :
    clausesOfJson e (.object (before ++ (column, entry) :: after)) =
      clausesOfJson e (.object (before ++ after)) := by
  have hrest : readEntries ((column, entry) :: after) =
      (readEntries after).map ((column, none) :: ·) := by
    rw [readEntries, readEntry_eq_none_iff.mpr h]
    cases readEntries after <;> rfl
  have hform : ∀ entries, clausesOfJson e (.object entries) = readEntries entries >>= criteria e :=
    fun _ => rfl
  rw [hform, hform, readEntries_append, readEntries_append, hrest]
  -- a fault in what is read stands in both forms at the same place
  cases readEntries before with
  | error fault => rfl
  | ok first =>
    cases readEntries after with
    | error fault => rfl
    | ok second =>
      change criteria e (first ++ (column, none) :: second) = criteria e (first ++ second)
      rw [criteria_append, criteria_append, criteria_cons_none]

theorem criteria_eq_nil_iff {e : Entity} {condition : Condition} :
    criteria e condition = .ok [] ↔ ∀ entry ∈ condition, entry.2 = none := by
  induction condition with
  | nil => exact iff_of_true rfl (by simp)
  | cons head rest ih =>
    obtain ⟨column, predicate⟩ := head
    cases predicate with
    | none => rw [criteria_cons_none, ih, List.forall_mem_cons, and_iff_right rfl]
    | some predicate =>
      refine iff_of_false (fun h => ?_) (by simp)
      rw [criteria_cons_some] at h
      obtain ⟨name, _, h⟩ := Except.of_bind_ok h
      obtain ⟨clause, _, h⟩ := Except.of_bind_ok h
      obtain ⟨clauses, _, h⟩ := Except.of_bind_ok h
      cases h

theorem readEntries_nones_iff {entries : List (String × Json)} :
    (∃ condition, readEntries entries = .ok condition ∧ ∀ entry ∈ condition, entry.2 = none) ↔
      ∀ entry ∈ entries, IsAbsent entry.2 := by
  induction entries with
  | nil => exact iff_of_true ⟨[], rfl, by simp⟩ (by simp)
  | cons head rest ih =>
    obtain ⟨column, entry⟩ := head
    have hentry : readEntry column entry = .ok none ↔ IsAbsent entry := readEntry_eq_none_iff
    rw [List.forall_mem_cons, ← ih, ← hentry]
    constructor
    · rintro ⟨condition, hread, hnone⟩
      rw [readEntries] at hread
      obtain ⟨predicate, hhead, hread⟩ := Except.of_bind_ok hread
      obtain ⟨others, hrest, hread⟩ := Except.of_bind_ok hread
      cases hread
      obtain ⟨hfirst, hothers⟩ := List.forall_mem_cons.mp hnone
      exact ⟨hfirst ▸ hhead, others, hrest, hothers⟩
    · rintro ⟨hhead, others, hrest, hothers⟩
      refine ⟨(column, none) :: others, ?_, List.forall_mem_cons.mpr ⟨rfl, hothers⟩⟩
      rw [readEntries, hhead, hrest]
      rfl

theorem clausesOfJson_eq_nil_iff {e : Entity} {entries : List (String × Json)} :
    clausesOfJson e (.object entries) = .ok [] ↔ ∀ entry ∈ entries, IsAbsent entry.2 := by
  rw [← readEntries_nones_iff]
  constructor
  · intro h
    obtain ⟨condition, hread, hclauses⟩ := Except.of_bind_ok h
    exact ⟨condition, hread, criteria_eq_nil_iff.mp hclauses⟩
  · rintro ⟨condition, hread, hnone⟩
    have hclauses : criteria e condition = .ok [] := criteria_eq_nil_iff.mpr hnone
    change readEntries entries >>= criteria e = .ok []
    rw [hread]
    exact hclauses

/-- What a condition in its JSON form comes to: the text of its clauses, if there are any, with the
values for its placeholders, or a fault. -/
def outcome (e : Entity) (j : Json) : Except InvalidInput (Option String × List Value) :=
  (clausesOfJson e j).map fun clauses => (Criteria.text? clauses, Criteria.bindings clauses)

theorem outcome_eq_nothing_iff {e : Entity} {j : Json} :
    outcome e j = .ok (none, []) ↔ clausesOfJson e j = .ok [] := by
  constructor
  · intro h
    obtain ⟨clauses, hclauses, hsame⟩ := Except.of_map_ok h
    have hempty : clauses = [] := by
      have htext := congrArg Prod.fst hsame
      simpa [Criteria.text?] using htext
    rw [hclauses, hempty]
  · intro h
    rw [outcome, h]
    rfl

/-- An entry without value, at whatever place and whatever else it says, changes nothing in what a
condition comes to, the fault included, nor in the query that the condition is added to. A condition
comes to no clauses at all where, and only where, none of its entries has a value. -/
theorem absent_values_change_nothing (e : Entity) (entries : List (String × Json)) :
    (∀ before column entry after, entries = before ++ (column, entry) :: after → IsAbsent entry →
      outcome e (.object entries) = outcome e (.object (before ++ after)) ∧
      ∀ q : Query, (ofJson (.object entries) >>= q.filterBy) =
        (ofJson (.object (before ++ after)) >>= q.filterBy)) ∧
    (outcome e (.object entries) = .ok (none, []) ↔ ∀ entry ∈ entries, IsAbsent entry.2) := by
  refine ⟨?_, outcome_eq_nothing_iff.trans clausesOfJson_eq_nil_iff⟩
  rintro before column entry after rfl habsent
  have hquery : ∀ (q : Query) (j : Json), (ofJson j >>= q.filterBy) =
      (clausesOfJson q.entity j).map q.addCriteria := by
    intro q j
    rw [clausesOfJson]
    cases ofJson j <;> rfl
  refine ⟨?_, fun q => ?_⟩
  · rw [outcome, outcome, clausesOfJson_absent e before after column habsent]
  · rw [hquery, hquery, clausesOfJson_absent q.entity before after column habsent]

/-- A condition whose first entry is of no column and has no value, and whose clause is one that
stands behind an OR. -/
def ofStatusOnly : List (String × Json) :=
  [("no column", .object [("operator", .int 1), ("value", .null)]),
   ("status", .object [("operator", .text "or_where"), ("value", .int 1)])]

theorem absent_first_value_changes_nothing :
    outcome Shop.customers (.object ofStatusOnly) = .ok (some "status = ?", [.int 1]) ∧
    outcome Shop.customers (.object ofStatusOnly) =
      outcome Shop.customers (.object ofStatusOnly.tail) := by
  refine ⟨by decide +kernel, ?_⟩
  have hsplit : ofStatusOnly = [] ++ ("no column", .object [("operator", .int 1), ("value", .null)])
      :: ofStatusOnly.tail := rfl
  exact ((absent_values_change_nothing Shop.customers ofStatusOnly).1 _ _ _ _ hsplit (.inr rfl)).1

end TableQuery.Condition
