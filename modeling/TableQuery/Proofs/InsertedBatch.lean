import Mathlib.Data.List.Perm.Subperm
import TableQuery.Proofs.RunSteps
import TableQuery.Repository.Write

namespace TableQuery

namespace Except

variable {ε α β : Type} {f : α → Except ε β} {as : List α}

theorem mapM_ok (h : ∀ a ∈ as, ∃ b, f a = .ok b) : ∃ bs, as.mapM f = .ok bs := by
  obtain ⟨bs, hbs⟩ := exists_forall₂_iff.mpr h
  exact ⟨bs, mapM_eq_ok_iff.mpr hbs⟩

theorem mapM_ok_map {g : α → β} (h : ∀ a ∈ as, f a = .ok (g a)) : as.mapM f = .ok (as.map g) := by
  rw [mapM_eq_ok_iff, List.forall₂_map_right_iff, List.forall₂_same]
  exact h

end Except

namespace Record

/-- Two records have the same columns, in whatever order. -/
def SameColumns (a b : Record) : Prop :=
  ∀ column, column ∈ a.keys ↔ column ∈ b.keys

/-- Rows that go into one insert: the first has columns that are identifiers, and the rest have the
same. -/
structure Insertable (first : Record) (rest : List Record) : Prop where
  named : first.keys ≠ []
  valid : ∀ column ∈ first.keys, Identifier.valid column = true
  same : ∀ row ∈ rest, row.SameColumns first

variable {a b first row : Record} {rest : List Record}

theorem SameColumns.refl (a : Record) : a.SameColumns a :=
  fun _ => .rfl

theorem SameColumns.perm (h : a.SameColumns b) : a.keys.Perm b.keys :=
  (List.perm_ext_iff_of_nodup a.nodup b.nodup).mpr h

theorem Insertable.sameColumns (h : first.Insertable rest) (hrow : row ∈ first :: rest) :
    row.SameColumns first := by
  rcases List.mem_cons.mp hrow with rfl | hrow
  · exact .refl row
  · exact h.same row hrow

/-- Each row could go into an insert of its own. -/
theorem Insertable.alone (h : first.Insertable rest) (hrow : row ∈ first :: rest) :
    row.Insertable [] where
  named hnil := h.named (List.nil_perm.mp (hnil ▸ (h.sameColumns hrow).perm))
  valid column hmem := h.valid column ((h.sameColumns hrow column).mp hmem)
  same := by simp

end Record

namespace Run

variable {α β : Type}

/-- An operation finds its input invalid before it does anything. -/
def Refuses (run : Run α) : Prop :=
  ∀ session, ∃ cause, run.exec session = (.error (.invalid cause), session)

/-- What is looked at without a trace is refused where it is invalid, or by what follows. -/
theorem refuses_ofInvalid_bind {result : Except InvalidInput α} {f : α → Run β}
    (h : ∀ a, result = .ok a → (f a).Refuses) : (ofInvalid result >>= f).Refuses := by
  intro session
  rw [exec_bind, exec_ofInvalid]
  cases result with
  | error cause => exact ⟨cause, rfl⟩
  | ok a => exact h a rfl session

theorem Refuses.logged {run : Run α} (h : run.Refuses) (operation : Operation)
    (session : Session) : ∃ cause, (logged operation run).exec session =
      (.error (.invalid cause),
        { session with events := session.events ++ [.failed operation] }) := by
  obtain ⟨cause, hexec⟩ := h session
  refine ⟨cause, ?_⟩
  rw [exec_logged, hexec]

end Run

namespace Entity

variable {e : Entity} {first row : Record} {rest : List Record} {conflict : Option Conflict}
  {session after : Session} {count : Nat}

/-- A row that has values for the columns of another row, and as many, has the same columns. -/
theorem sameColumns_of_rowValues {values : List Value}
    (h : e.rowValues first.keys row = .ok values) : row.SameColumns first := by
  unfold rowValues at h
  split at h
  next hall =>
    have hsubset : first.keys ⊆ row.keys := fun column hmem =>
      OrderedMap.contains_iff.mp (List.all_eq_true.mp hall.2 column hmem)
    have hperm := (List.subperm_of_subset first.nodup hsubset).perm_of_length_le
      (Nat.le_of_eq hall.1)
    exact fun column => hperm.mem_iff.symm
  next => cases h

theorem rowValues_of_sameColumns (h : row.SameColumns first) :
    e.rowValues first.keys row = .ok (first.keys.map row.value) := by
  have hall : first.keys.all row.contains = true := by
    refine List.all_eq_true.mpr fun column hmem => ?_
    exact OrderedMap.contains_iff.mpr ((h column).mpr hmem)
  unfold rowValues
  rw [if_pos ⟨h.perm.length_eq, hall⟩]

/-- Rows that do not go into one insert are refused, whatever is to become of a conflict. -/
theorem insertRows_refuses_unless (h : ¬ first.Insertable rest) (conflict : Option Conflict) :
    (e.insertRows (first :: rest) conflict).Refuses := by
  refine Run.refuses_ofInvalid_bind fun columns hchecked => ?_
  obtain ⟨rfl, hvalid⟩ := of_checkedNames hchecked
  split
  next => exact fun session => ⟨_, rfl⟩
  next hnamed =>
    refine Run.refuses_ofInvalid_bind fun values hvalues => ?_
    refine absurd ⟨fun hnil => hnamed (by rw [hnil]; rfl), hvalid, fun row hrow => ?_⟩ h
    obtain ⟨_, _, hread⟩ := (Except.of_mapM_ok hvalues).1 row (List.mem_cons_of_mem first hrow)
    exact sameColumns_of_rowValues hread

def batchInsert (e : Entity) (first : Record) (rest : List Record) (conflict : Option Conflict) :
    Insert where
  table := e.table
  columns := first.keys
  rows := (first :: rest).map fun row => first.keys.map row.value
  conflict := conflict

theorem exec_insertRows (h : first.Insertable rest) (conflict : Option Conflict)
    (session : Session) : (e.insertRows (first :: rest) conflict).exec session =
      match session.store.insert (e.batchInsert first rest conflict) with
      | .ok (store, result) => (.ok result.count, ⟨store, session.events ++
          [.statement (e.batchInsert first rest conflict).text]⟩)
      | .error fault => (.error (.storage fault), ⟨session.store, session.events ++
          [.statement (e.batchInsert first rest conflict).text]⟩) := by
  have hchecked : first.keys.mapM checkedName = .ok first.keys := by
    rw [← List.map_id first.keys, List.mapM_map]
    exact Except.mapM_ok_map fun column hmem => by simp [checkedName, h.valid column hmem]
  have hvalues : (first :: rest).mapM (e.rowValues first.keys) =
      .ok ((first :: rest).map fun row => first.keys.map row.value) :=
    Except.mapM_ok_map fun row hrow => rowValues_of_sameColumns (h.sameColumns hrow)
  have hnamed : first.keys.isEmpty = false := by
    simpa using h.named
  unfold insertRows
  simp only [Run.exec_bind, Run.exec_ofInvalid, hchecked, hvalues, hnamed, Except.mapError]
  rw [if_neg Bool.false_ne_true]
  simp only [Run.exec_bind, Run.exec_ofInvalid, Except.mapError, Run.exec_emit, Run.exec_write]
  cases hinsert : session.store.insert (e.batchInsert first rest conflict) with
  | error fault =>
    dsimp only [batchInsert] at hinsert
    rw [hinsert]
    rfl
  | ok written =>
    dsimp only [batchInsert] at hinsert
    rw [hinsert]
    rfl

theorem of_insertRows
    (h : (e.insertRows (first :: rest) conflict).exec session = (.ok count, after)) :
    first.Insertable rest ∧ ∃ result,
      session.store.insert (e.batchInsert first rest conflict) = .ok (after.store, result) ∧
        count = result.count := by
  have hinsertable : first.Insertable rest := by
    by_contra hnot
    obtain ⟨cause, hexec⟩ := insertRows_refuses_unless hnot conflict session
    rw [hexec] at h
    cases h
  rw [exec_insertRows hinsertable] at h
  split at h
  next store result hinsert =>
    cases h
    exact ⟨hinsertable, result, hinsert, rfl⟩
  next => cases h

end Entity

end TableQuery
