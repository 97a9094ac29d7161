import TableQuery.Proofs.InsertedRows
import TableQuery.Proofs.UpdateWrites
import TableQuery.Proofs.UpsertedRows

namespace TableQuery

open Sql

namespace Entity

variable {e : Entity} {moment : Moment} {record input : Record}

theorem exec_update_clean (hkey : (record.value e.primaryKey).isNull = false)
    (hclean : changedColumns record input = []) (session : Session) :
    (e.update moment record input).exec session = (.ok record,
      { session with events := session.events ++ [.clean (record.value e.primaryKey)] }) := by
  unfold update
  rw [Run.exec_logged, exec_updateRow_clean hkey hclean]

theorem exec_update_invalid (hkey : (record.value e.primaryKey).isNull = false) {column : String}
    (hmem : column ∈ changedColumns record input) (hinvalid : Identifier.valid column = false)
    (session : Session) :
    ∃ first ∈ changedColumns record input, Identifier.valid first = false ∧
      (e.update moment record input).exec session = (.error (.invalid (.identifier first)),
        { session with events := session.events ++ [.failed .update] }) := by
  have hchanges := changes_eq record input
  cases hfirst : (changedColumns record input).find? fun column => !Identifier.valid column with
  | none => exact absurd hinvalid (by simpa using List.find?_eq_none.mp hfirst column hmem)
  | some first =>
    rw [hfirst] at hchanges
    refine ⟨first, List.mem_of_find?_eq_some hfirst, by simpa using List.find?_some hfirst, ?_⟩
    unfold update updateRow
    dsimp only
    rw [Run.exec_logged, hkey, hchanges]
    rfl

/-- Where something looks different and can be named, one statement decides. -/
theorem exec_update_changed (hkey : (record.value e.primaryKey).isNull = false)
    (hchanged : changedColumns record input ≠ [])
    (hvalid : ∀ column ∈ changedColumns record input, Identifier.valid column = true)
    (session : Session) :
    (e.update moment record input).exec session =
      let events := session.events ++ [.statement (e.writing moment record input).text]
      match session.store.update (e.writing moment record input) with
      | .error fault => (.error (.storage fault), ⟨session.store, events ++ [.failed .update]⟩)
      | .ok (store, result) =>
        match result.rows with
        | .ok found :: _ => (.ok found, ⟨store, events⟩)
        | .error fault :: _ => (.error (.storage fault), ⟨store, events ++ [.failed .update]⟩)
        | [] => (.error (.notFound e.table (record.value e.primaryKey).display),
            ⟨store, events ++ [.failed .update]⟩) := by
  have hchanges := changes_eq record input
  have hnone : (changedColumns record input).find? (fun column => !Identifier.valid column) =
      none := List.find?_eq_none.mpr fun column hmem => by simp [hvalid column hmem]
  rw [hnone] at hchanges
  have hsome : ((changedColumns record input).map fun column =>
      (column, input.value column)).isEmpty = false := by
    simpa using hchanged
  unfold update updateRow
  dsimp only
  rw [Run.exec_logged, hkey, if_neg Bool.false_ne_true, hchanges, Run.exec_bind, Run.exec_ofInvalid]
  dsimp only [Except.mapError]
  rw [hsome, if_neg Bool.false_ne_true, Run.exec_bind, Run.exec_emit]
  dsimp only
  rw [Run.exec_bind, Run.exec_write]
  dsimp only
  cases hupdate : session.store.update (e.writing moment record input) with
  | error fault =>
    have hwriting := hupdate
    unfold writing at hwriting
    rw [hwriting]
    rfl
  | ok done =>
    obtain ⟨store, result⟩ := done
    have hwriting := hupdate
    unfold writing at hwriting
    rw [hwriting]
    dsimp only [firstRow]
    rcases result.rows with _ | ⟨_ | _, _⟩ <;> rfl

end Entity

end TableQuery
