import TableQuery.Proofs.CreatedRow
import TableQuery.Proofs.FailedWrites
import TableQuery.Proofs.UpsertWrites

namespace TableQuery

open Identifier

theorem mapM_checkedName_ne_ok {names checked : List String} {name : String}
    (hmem : name ∈ names) (hinvalid : valid name = false) : names.mapM checkedName ≠ .ok checked :=
  fun h => Bool.false_ne_true (hinvalid.symm.trans ((of_checkedNames h).2 name hmem))

namespace Entity

variable {e : Entity} {moment : Moment} {column : String}

theorem createRow_refuses (hkey : valid e.primaryKey = true) {input : Record}
    (hmem : column ∈ input.keys) (hinvalid : valid column = false) :
    (e.createRow moment input).Refuses := by
  have hne : ∀ {name : String}, valid name = true → column ≠ name := by
    rintro name hname rfl
    exact Bool.false_ne_true (hinvalid.symm.trans hname)
  have hcompleted : column ∈ (e.completed moment input).keys := by
    rw [OrderedMap.mem_keys_iff, get?_completed (hne (by decide +kernel)) (hne (by decide +kernel))
      fun h => absurd h (hne hkey), ← OrderedMap.mem_keys_iff]
    exact hmem
  exact Run.refuses_ofInvalid_bind fun columns hchecked =>
    absurd hchecked (mapM_checkedName_ne_ok hcompleted hinvalid)

theorem insertRows_refuses {rows : List Record} {row : Record} (hrow : row ∈ rows)
    (hmem : column ∈ row.keys) (hinvalid : valid column = false) (conflict : Option Conflict) :
    (e.insertRows rows conflict).Refuses := by
  cases rows with
  | nil => cases hrow
  | cons first rest =>
    refine insertRows_refuses_unless (fun h => ?_) conflict
    -- each row has the columns of the first, which are identifiers
    have hvalid := h.valid column ((h.sameColumns hrow column).mp hmem)
    exact Bool.false_ne_true (hinvalid.symm.trans hvalid)

theorem upsertRows_refuses {rows : List Record} {unique update : List String}
    (h : (∃ row ∈ rows, column ∈ row.keys) ∨ column ∈ unique ∨ column ∈ update)
    (hinvalid : valid column = false) : (e.upsertRows moment rows unique update).Refuses := by
  unfold upsertRows
  split
  next => exact fun session => ⟨_, rfl⟩
  next =>
    refine Run.refuses_ofInvalid_bind fun unique' hunique => ?_
    refine Run.refuses_ofInvalid_bind fun update' hupdate => ?_
    rcases h with ⟨row, hrow, hmem⟩ | hmem | hmem
    · have htimed : column ∈ (e.withMissingTimes moment row).keys := by
        rcases timed_withMissingTimes e moment row column with ⟨_, htimed, _⟩ | ⟨hnone, _⟩
        · exact htimed
        · exact absurd hmem hnone
      exact insertRows_refuses (List.mem_map_of_mem hrow) htimed hinvalid _
    · exact absurd hunique (mapM_checkedName_ne_ok hmem hinvalid)
    · exact absurd hupdate (mapM_checkedName_ne_ok hmem hinvalid)

theorem updateRow_refuses {record input : Record} (hmem : column ∈ changedColumns record input)
    (hinvalid : valid column = false) : (e.updateRow moment record input).Refuses := by
  unfold updateRow
  dsimp only
  split
  next => exact fun session => ⟨_, rfl⟩
  next =>
    refine Run.refuses_ofInvalid_bind fun changed hchanged => ?_
    obtain ⟨_, _, hread⟩ := (Except.of_mapM_ok hchanged).1 column hmem
    obtain ⟨checked, hchecked, _⟩ := Except.of_map_ok hread
    exact absurd (of_checkedName hchecked).2 (by simp [hinvalid])

end Entity

/-- The call writes the column, or names it to tell rows apart. An update writes the columns that
look different. -/
def WriteCall.Names (column : String) : WriteCall → Prop
  | .create input => column ∈ input.keys
  | .insert rows => ∃ row ∈ rows, column ∈ row.keys
  | .upsert rows unique overwritten =>
    (∃ row ∈ rows, column ∈ row.keys) ∨ column ∈ unique ∨ column ∈ overwritten
  | .update record input => column ∈ Entity.changedColumns record input
  | _ => False

/-- A write of a column that is no identifier is refused, and nothing is done. -/
theorem Entity.refuses_of_names {e : Entity} (hkey : valid e.primaryKey = true) (moment : Moment)
    {call : WriteCall} {column : String} (hnames : call.Names column)
    (hinvalid : valid column = false) (session : Session) :
    ∃ cause operation, (call.run e moment).exec session =
      (.error (.invalid cause),
        { session with events := session.events ++ [.failed operation] }) := by
  have hlogged : ∀ {α : Type} {run : Run α} (operation : Operation), run.Refuses →
      ∃ cause reported, (Run.logged operation run >>= fun _ => (pure () : Run Unit)).exec session =
        (.error (.invalid cause),
          { session with events := session.events ++ [.failed reported] }) := by
    intro α run operation hrun
    obtain ⟨cause, hexec⟩ := hrun.logged operation session
    refine ⟨cause, operation, ?_⟩
    rw [Run.exec_bind, hexec]
  cases call with
  | create input => exact hlogged .create (createRow_refuses hkey hnames hinvalid)
  | insert rows =>
    obtain ⟨row, hrow, hmem⟩ := hnames
    exact hlogged .insert (insertRows_refuses hrow hmem hinvalid none)
  | update record input => exact hlogged .update (updateRow_refuses hnames hinvalid)
  | upsert rows unique update => exact hlogged .upsert (upsertRows_refuses hnames hinvalid)
  | _ => exact hnames.elim

end TableQuery
