import Mathlib.Data.List.Pairwise
import TableQuery.Proofs.KeptRows
import TableQuery.Proofs.Preparation

namespace TableQuery

/-- Two stores have the same tables but for the rows in them. -/
structure Store.SameSchemas (store store' : Store) : Prop where
  clock : store'.clock = store.clock
  schemas : store'.tables.map Table.schema = store.tables.map Table.schema

namespace Store.SameSchemas

variable {store store' : Store}

theorem trans {store'' : Store} (h : store.SameSchemas store') (h' : store'.SameSchemas store'') :
    store.SameSchemas store'' :=
  ⟨h'.clock.trans h.clock, h'.schemas.trans h.schemas⟩

theorem noteWritten (store : Store) (schemas : List Schema) :
    store.SameSchemas (store.noteWritten schemas) :=
  ⟨rfl, rfl⟩

/-- A name leads to a table of the same schema. -/
theorem readable? (h : store.SameSchemas store') (database : Option String) (name : String) :
    (store'.readable? database name).map Table.schema =
      (store.readable? database name).map Table.schema := by
  -- a table is told by its schema alone
  have hfind : ∀ told : Schema → Bool,
      ((store'.keyTable :: store'.tables).find? (told ∘ Table.schema)).map Table.schema =
        ((store.keyTable :: store.tables).find? (told ∘ Table.schema)).map Table.schema := by
    intro told
    rw [← List.find?_map, ← List.find?_map, List.map_cons, List.map_cons, h.schemas]
    rfl
  cases database with
  | none => exact hfind fun schema => schema.isCalled name && true
  | some database =>
    exact hfind fun schema => schema.isCalled name &&
      Text.sameName database (if schema.temporary then "temp" else "main")

/-- What can be looked up in a statement is the same, whatever rows there are. -/
theorem exists_readable? (h : store.SameSchemas store') {database : Option String} {name : String}
    {t : Table} (ht : store.readable? database name = some t) :
    ∃ t', store'.readable? database name = some t' ∧ t'.schema = t.schema := by
  have hschema := h.readable? database name
  rw [ht, Option.map_some] at hschema
  exact Option.map_eq_some_iff.mp hschema

end Store.SameSchemas

/-- No two tables go by one name, the one that shows the keys included. -/
def Store.Named (store : Store) : Prop :=
  (store.keyTable :: store.tables).Pairwise fun a b =>
    Text.sameName a.schema.name b.schema.name = false

instance (store : Store) : Decidable store.Named :=
  inferInstanceAs (Decidable (List.Pairwise _ _))

namespace Store.Named

variable {store store' : Store} {t t' : Table}

theorem eq_of_sameName (h : store.Named) {a b : Table} (ha : a ∈ store.keyTable :: store.tables)
    (hb : b ∈ store.keyTable :: store.tables)
    (hsame : Text.sameName a.schema.name b.schema.name = true) : a = b := by
  by_contra hne
  have hsymm : Std.Symm fun a b : Table => Text.sameName a.schema.name b.schema.name = false := by
    refine ⟨fun a b hab => ?_⟩
    rw [Text.sameName_symm]
    exact hab
  have hapart := List.Pairwise.forall h ha hb hne
  rw [hsame] at hapart
  cases hapart

theorem alone (h : store.Named) {name : String} (ht : store.table name = .ok t) {u : Table}
    (hu : u ∈ store.tables) (hsame : Text.sameName u.schema.name t.schema.name = true) : u = t :=
  h.eq_of_sameName (List.mem_cons_of_mem _ hu)
    (List.mem_cons_of_mem _ (List.mem_of_find?_eq_some (table_eq_ok.mp ht))) hsame

theorem of_sameSchemas (h : store.Named) (hsame : store.SameSchemas store') : store'.Named := by
  have hnames : ∀ s : Store, s.Named ↔ (s.keyTable.schema :: s.tables.map Table.schema).Pairwise
      fun a b => Text.sameName a.name b.name = false := by
    intro s
    rw [← List.map_cons, List.pairwise_map]
    rfl
  rw [hnames, hsame.schemas]
  exact (hnames store).mp h

/-- A table that takes the place of one of its schema leaves all schemas. -/
theorem sameSchemas_setTable (h : store.Named) {name : String} (ht : store.table name = .ok t)
    (hschema : t'.schema = t.schema) : store.SameSchemas (store.setTable t') where
  clock := rfl
  schemas := by
    rw [setTable, List.map_map]
    refine List.map_congr_left fun other hother => ?_
    rw [Function.comp_apply]
    split
    next hsame =>
      rw [hschema] at hsame ⊢
      rw [h.alone ht hother hsame]
    next => rfl

theorem sameSchemas_logChange (h : store.Named) {table : String} {schema : Schema} {row : Row}
    (hlog : store.logChange table schema row = .ok store') : store.SameSchemas store' := by
  refine logChange_induction (P := store.SameSchemas) hlog ⟨rfl, rfl⟩ ?_
  intro watch _ _ next log added given written hnext hfound hadd
  exact hnext.trans
    ((h.of_sameSchemas hnext).sameSchemas_setTable hfound (Table.of_addRow hadd).1)

/-- A name that leads to a table leads to the table that has taken its place. -/
theorem readable?_eq (h : store.Named) (hsame : store.SameSchemas store') {database : Option String}
    {name written : String} (hread : store.readable? database name = some t)
    (ht' : store'.table written = .ok t') (hschema : t'.schema = t.schema) :
    store'.readable? database name = some t' := by
  obtain ⟨found, hfound, hfound'⟩ := hsame.exists_readable? hread
  have hmem : t' ∈ store'.tables := List.mem_of_find?_eq_some (table_eq_ok.mp ht')
  have hname : Text.sameName found.schema.name t'.schema.name = true := by
    rw [hfound', hschema]
    exact Text.sameName_refl _
  rw [hfound, (h.of_sameSchemas hsame).eq_of_sameName (List.mem_of_find?_eq_some hfound)
    (List.mem_cons_of_mem _ hmem) hname]

end Store.Named

namespace Sql.Expr

variable {store store' : Store}

mutual

theorem check_of_sameSchemas (h : store.SameSchemas store') {env : Env} :
    ∀ e : Expr, e.check store' env = e.check store env
  | literal _ => rfl
  | bound _ => rfl
  | present _ => rfl
  | column _ _ => rfl
  | not e => by
    rw [check, check, check_of_sameSchemas h e]
  | and a b => by
    rw [check, check, check_of_sameSchemas h a, check_of_sameSchemas h b]
  | or a b => by
    rw [check, check, check_of_sameSchemas h a, check_of_sameSchemas h b]
  | compare _ a b => by
    rw [check, check, check_of_sameSchemas h a, check_of_sameSchemas h b]
  | isNull e _ => by
    rw [check, check, check_of_sameSchemas h e]
  | member e items _ => by
    rw [check, check, check_of_sameSchemas h e, checkItems_of_sameSchemas h items]
  | between e low high _ => by
    rw [check, check, check_of_sameSchemas h e, check_of_sameSchemas h low,
      check_of_sameSchemas h high]
  | like e pattern _ _ => by
    rw [check, check, check_of_sameSchemas h e, check_of_sameSchemas h pattern]
  | date e => by
    rw [check, check, check_of_sameSchemas h e]
  | caseOf arms otherwise => by
    rw [check, check, checkArms_of_sameSchemas h arms, check_of_sameSchemas h otherwise]
  | anyRow table shown test => by
    rw [check, check]
    have hschema := h.readable? none table
    -- a related row is looked for in a table of the same schema, or in none
    cases hfound : store.readable? none table with
    | none =>
      rw [hfound, Option.map_none, Option.map_eq_none_iff] at hschema
      rw [hschema]
    | some found =>
      obtain ⟨found', hfound', hsame⟩ := h.exists_readable? hfound
      rw [hfound']
      dsimp only
      rw [hsame, check_of_sameSchemas h test]

theorem checkItems_of_sameSchemas (h : store.SameSchemas store') {env : Env} :
    ∀ es : List Expr, checkItems store' env es = checkItems store env es
  | [] => rfl
  | e :: es => by
    rw [checkItems, checkItems, check_of_sameSchemas h e, checkItems_of_sameSchemas h es]

theorem checkArms_of_sameSchemas (h : store.SameSchemas store') {env : Env} :
    ∀ arms : List (Expr × Expr), checkArms store' env arms = checkArms store env arms
  | [] => rfl
  | (test, value) :: arms => by
    rw [checkArms, checkArms, check_of_sameSchemas h test, check_of_sameSchemas h value,
      checkArms_of_sameSchemas h arms]

end

end Sql.Expr

namespace Store

variable {store store' : Store}

end Store

end TableQuery
