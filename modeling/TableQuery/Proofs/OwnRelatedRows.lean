import TableQuery.Proofs.AttachedRows
import TableQuery.Shop

namespace TableQuery

open Sql

namespace EagerLoad

/-- The related rows that belong to the row of the first table in a tuple. -/
def ownRows (load : EagerLoad) (related p : Store.Prepared) (tuple : Tuple) : List Record :=
  rowsWhere related fun row =>
    load.Belongs related (p.ownCell load.relation.parentKey tuple) row

/-- A record holds rows under the name of the relation. -/
def Carries (load : EagerLoad) (record : Record) (rows : List Record) : Prop :=
  record.get? load.relation.name = some (attached load.relation.kind rows)

theorem carries_of_attachAll {load : EagerLoad} {before later : List EagerLoad} {store : Store}
    {related p : Store.Prepared} {tuples : List Tuple} {rows : List Record}
    (hbefore : ∀ other ∈ before, other.relation.name ≠ load.relation.parentKey)
    (hlater : ∀ other ∈ later, other.relation.name ≠ load.relation.name)
    (hkey : IsPlain load.relation.relatedKey)
    (hrelated : store.prepare false { table := load.relation.table } load.selectList = .ok related)
    (hown : (related.ownPlace? load.relation.relatedKey).isSome)
    (h : attachAll store (before ++ load :: later)
      (tuples.map (Store.record p.scope p.columns)) = .ok rows) :
    ∃ shown : Tuple → Record, rows = tuples.map shown ∧ ∀ tuple,
      load.Carries (shown tuple) (rowsWhere related fun row =>
        load.Matches related (load.keys (tuples.map (Store.record p.scope p.columns)))
          (p.shownCell load.relation.parentKey tuple).value row) := by
  obtain ⟨change, rfl, hchange⟩ := get?_of_attachAll hbefore hlater hkey hrelated hown h
  refine ⟨fun tuple => change (Store.record p.scope p.columns tuple), by simp, fun tuple => ?_⟩
  unfold Carries
  rw [hchange, p.value_record]

end EagerLoad

/-- Under the name of a relation each record carries the rows that match the key it shows. These
are the rows of its own key exactly where the two keys are the same or neither has any rows. -/
theorem Query.fetchAll_attaches_rows_of_shown_key {q : Query} {load : EagerLoad}
    {before later : List EagerLoad} {session after : Session} {rows : List Record}
    {related : Store.Prepared} (hloads : q.loads = before ++ load :: later)
    (hbefore : ∀ other ∈ before, other.relation.name ≠ load.relation.parentKey)
    (hlater : ∀ other ∈ later, other.relation.name ≠ load.relation.name)
    (hkey : IsPlain load.relation.relatedKey)
    (hrelated : session.store.prepare false { table := load.relation.table } load.selectList =
      .ok related)
    (hown : (related.ownPlace? load.relation.relatedKey).isSome)
    (h : q.fetchAll.exec session = (.ok rows, after)) :
    ∃ p tuples shown,
      session.store.prepare false q.source q.projection = .ok p ∧
      session.store.selected q.toSelect p = .ok tuples ∧ rows = tuples.map shown ∧
      ∀ tuple ∈ tuples,
        load.Carries (shown tuple) (EagerLoad.rowsWhere related fun row =>
          load.Matches related (load.keys (tuples.map (Store.record p.scope p.columns)))
            (p.shownCell load.relation.parentKey tuple).value row) ∧
        (related.ShowsOwn load.relation.relatedKey → load.KeysAlike related p tuples →
          (load.Carries (shown tuple) (load.ownRows related p tuple) ↔
            (p.shownCell load.relation.parentKey tuple).datum =
                (p.ownCell load.relation.parentKey tuple).datum ∨
              ∀ row ∈ related.first.rows,
                ¬load.Belongs related (p.shownCell load.relation.parentKey tuple) row ∧
                  ¬load.Belongs related (p.ownCell load.relation.parentKey tuple) row) ∧
          (p.ShowsOwn load.relation.parentKey →
            load.Carries (shown tuple) (load.ownRows related p tuple))) := by
  obtain ⟨found, hfound, hattached⟩ := Except.of_bind_ok (rows_of_fetchAll h)
  obtain ⟨p, tuples, hp, htuples, rfl⟩ := Store.of_select hfound
  rw [hloads] at hattached
  obtain ⟨shown, hshown, hcarries⟩ :=
    EagerLoad.carries_of_attachAll hbefore hlater hkey hrelated hown hattached
  refine ⟨p, tuples, shown, hp, htuples, hshown, fun tuple htuple => ⟨hcarries tuple, ?_⟩⟩
  intro hshows halike
  have hmatches : (EagerLoad.rowsWhere related fun row =>
      load.Matches related (load.keys (tuples.map (Store.record p.scope p.columns)))
        (p.shownCell load.relation.parentKey tuple).value row) =
      EagerLoad.rowsWhere related fun row =>
        load.Belongs related (p.shownCell load.relation.parentKey tuple) row := by
    rw [EagerLoad.rowsWhere, EagerLoad.rowsWhere]
    congr 1
    exact List.filter_congr fun row hrow =>
      decide_eq_decide.mpr (EagerLoad.matches_iff_belongs hshows halike htuple hrow)
  have hexact : load.Carries (shown tuple) (load.ownRows related p tuple) ↔
      (p.shownCell load.relation.parentKey tuple).datum =
          (p.ownCell load.relation.parentKey tuple).datum ∨
        ∀ row ∈ related.first.rows,
          ¬load.Belongs related (p.shownCell load.relation.parentKey tuple) row ∧
            ¬load.Belongs related (p.ownCell load.relation.parentKey tuple) row := by
    have hget := hcarries tuple
    unfold EagerLoad.Carries at hget ⊢
    rw [hget, hmatches, Option.some_inj, EagerLoad.ownRows]
    exact EagerLoad.attached_eq_iff hshows (fun row hrow => (halike row hrow tuple htuple).1)
      (fun row hrow => (halike row hrow tuple htuple).2) load.relation.kind
  refine ⟨hexact, fun hparent => hexact.mpr (.inl ?_)⟩
  rw [Store.Prepared.shownCell_of_showsOwn hparent]

namespace Shop

/-- Each customer is in the team with the key of the other; the second has the only order. -/
def twoCustomers : Store where
  tables :=
    [{ schema := teamSchema, rows := [[.int 1, .text "s"], [.int 2, .text "t"]] },
     { schema := customerSchema
       rows :=
        [[.int 1, .text "a", .null, .int 1, .int 2, .null, .null, .null, .null],
         [.int 2, .text "b", .null, .int 1, .int 1, .null, .null, .null, .null]] },
     { schema := orderSchema, rows := [[.int 1, .int 2, .real .zero, .null]] }]

def ordersOfCustomers : EagerLoad :=
  ⟨.hasMany "orders" "orders" "customer_id" "id", ["customer_id"]⟩

def customersInTeams (columns : List String) : Query where
  entity := customers
  columns := columns
  joins := [⟨"teams", "customers.team_id", "teams.id", .inner⟩]
  loads := [ordersOfCustomers]

/-- With the key of the team shown, the first customer gets the order of the second. -/
theorem fetchAll_attaches_order_of_other_customer :
    (((customersInTeams ["customers.name", "teams.id"]).fetchAll.exec
        { store := twoCustomers }).1.toOption.map fun rows =>
          rows.map fun row => (row.value "name", row.value "orders")) =
      some [(.text "a", .text "[\x7b\"customer_id\":2\x7d]"), (.text "b", .text "[]")] := by
  decide +kernel

/-- With the key left to the query, each customer has its own orders. -/
theorem fetchAll_attaches_own_orders :
    ∃ rows after related p, ∃ (tuples : List Tuple) (shown : Tuple → Record),
      (customersInTeams ["customers.name"]).fetchAll.exec { store := twoCustomers } =
        (.ok rows, after) ∧
      rows = tuples.map shown ∧
      ∀ tuple ∈ tuples,
        ordersOfCustomers.Carries (shown tuple) (ordersOfCustomers.ownRows related p tuple) := by
  have hsound : ((twoCustomers.prepare false { table := ordersOfCustomers.relation.table }
      ordersOfCustomers.selectList).toOption.any fun related =>
        decide (related.ShowsOwn "customer_id") &&
        (twoCustomers.prepare false (customersInTeams ["customers.name"]).source
          (customersInTeams ["customers.name"]).projection).toOption.any fun p =>
            decide (p.ShowsOwn "id") &&
            (twoCustomers.selected (customersInTeams ["customers.name"]).toSelect p).toOption.any
              fun tuples => decide (ordersOfCustomers.KeysAlike related p tuples)) = true := by
    decide +kernel
  have hfetched : ((customersInTeams ["customers.name"]).fetchAll.exec
      { store := twoCustomers }).1.toOption.isSome = true := by
    decide +kernel
  rcases hrun : (customersInTeams ["customers.name"]).fetchAll.exec { store := twoCustomers } with
    ⟨fault | rows, after⟩
  · rw [hrun] at hfetched
    cases hfetched
  · obtain ⟨related, hrelated, hsound⟩ := (Option.any_eq_true _ _).mp hsound
    obtain ⟨hshows, hsound⟩ := (Bool.and_eq_true _ _).mp hsound
    have hshows := of_decide_eq_true hshows
    have hkey : IsPlain ordersOfCustomers.relation.relatedKey := by decide +kernel
    have hloads : (customersInTeams ["customers.name"]).loads = [] ++ ordersOfCustomers :: [] := rfl
    have hprepared : ({ store := twoCustomers } : Session).store.prepare false
        { table := ordersOfCustomers.relation.table } ordersOfCustomers.selectList = .ok related :=
      Except.of_toOption hrelated
    obtain ⟨p, tuples, shown, hp, htuples, hrows, hcarries⟩ :=
      Query.fetchAll_attaches_rows_of_shown_key hloads (by simp) (by simp) hkey hprepared hshows.1
        hrun
    rw [show twoCustomers.prepare false (customersInTeams ["customers.name"]).source
      (customersInTeams ["customers.name"]).projection = .ok p from hp] at hsound
    obtain ⟨hparent, hsound⟩ := (Bool.and_eq_true _ _).mp hsound
    rw [show twoCustomers.selected (customersInTeams ["customers.name"]).toSelect p =
      .ok tuples from htuples] at hsound
    exact ⟨rows, after, related, p, tuples, shown, rfl, hrows, fun tuple htuple =>
      ((hcarries tuple htuple).2 hshows (of_decide_eq_true hsound)).2
        (of_decide_eq_true hparent)⟩

end Shop

end TableQuery
