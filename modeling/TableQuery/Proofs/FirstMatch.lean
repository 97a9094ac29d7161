import TableQuery.Proofs.EqualClauses
import TableQuery.Proofs.OrderedRows
import TableQuery.Proofs.SameSchemas

namespace TableQuery

open Sql

/-- A row has the values in the columns. -/
def Table.Meets (t : Table) (pairs : List (String × Value)) (row : Row) : Bool :=
  pairs.all fun pair => Cell.compare .eq (t.cellOf pair.1 row) (.ofValue pair.2) = some true

/-- The columns of equalities are plain columns of a table, and their values are given. -/
structure Table.Asks (t : Table) (pairs : List (String × Value)) : Prop where
  plain : ∀ pair ∈ pairs, IsPlain pair.1
  own : ∀ pair ∈ pairs, (t.schema.index? pair.1).isSome
  given : ∀ pair ∈ pairs, pair.2 ≠ .null

/-- The statement for the first row with given values. -/
def Entity.firstBy (e : Entity) (pairs : List (String × Value)) : Select :=
  Query.toSelect { entity := e, criteria := equalClauses pairs, limit := some 1 }

namespace Entity

variable {e : Entity} {pairs : List (String × Value)}

/-- To find a row by values is one statement, and the store is only read. -/
theorem exec_findOneBy (h : ∀ pair ∈ pairs, Identifier.valid pair.1 = true) (session : Session) :
    ∃ events, (e.findOneBy pairs []).exec session =
      (((session.store.select (e.firstBy pairs)).map List.head?).mapError .storage,
        { session with events := events }) := by
  have hquery := exec_equalTo (e := e) h session
  have hrows : Query.rows { entity := e, criteria := equalClauses pairs, limit := some 1 }
      session.store = session.store.select (e.firstBy pairs) :=
    Query.rows_of_no_loads rfl session.store
  obtain ⟨events, hfetch⟩ := Query.exec_fetchAll
    { entity := e, criteria := equalClauses pairs, limit := some 1 } session
  refine ⟨events, ?_⟩
  rw [hrows] at hfetch
  have hfirst : Query.first { entity := e, criteria := equalClauses pairs } =
      Query.fetchAll { entity := e, criteria := equalClauses pairs, limit := some 1 } >>=
        fun rows => pure rows.head? := rfl
  unfold findOneBy
  rw [Run.exec_bind, hquery]
  dsimp only
  rw [hfirst, Run.exec_bind, hfetch]
  cases session.store.select (e.firstBy pairs) <;> rfl

end Entity

section

variable {store : Store} {t : Table} {pairs : List (String × Value)}

theorem Table.Asks.names (h : t.Asks pairs) : t.Names (pairs.map Prod.fst) := by
  intro name hmem
  obtain ⟨pair, hpair, rfl⟩ := List.mem_map.mp hmem
  exact ⟨h.plain pair hpair, h.own pair hpair⟩

namespace Entity

variable {e : Entity}

end Entity

end

end TableQuery
