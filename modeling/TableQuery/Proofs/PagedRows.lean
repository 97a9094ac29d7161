import TableQuery.Proofs.CountedRows
import TableQuery.Proofs.LoadedParts
import TableQuery.Proofs.PageWindows
import TableQuery.Proofs.StepOrder
import TableQuery.Shop

namespace TableQuery

open Sql

namespace Store

theorem window_none {α : Type} (rows : List α) : window none none rows = rows :=
  rfl

theorem mem_of_mem_window {α : Type} {limit offset : Option Int} {rows : List α} {a : α}
    (h : a ∈ window limit offset rows) : a ∈ rows := by
  unfold window at h
  dsimp only at h
  split at h
  next =>
    split at h
    next => exact List.mem_of_mem_drop h
    next => exact List.mem_of_mem_drop (List.mem_of_mem_take h)
  next => exact List.mem_of_mem_drop h

theorem map_window {α β : Type} (limit offset : Option Int) (f : α → β) (rows : List α) :
    window limit offset (rows.map f) = (window limit offset rows).map f := by
  unfold window
  dsimp only
  rw [← List.map_drop]
  split
  next => split <;> simp
  next => rfl

theorem length_window_congr {α β : Type} {limit offset : Option Int} {as : List α} {bs : List β}
    (h : as.length = bs.length) :
    (window limit offset as).length = (window limit offset bs).length := by
  unfold window
  dsimp only
  split
  next => split <;> simp [h]
  next => simp [h]

/-- Limit and offset take their window of the tuples that come back without them. -/
theorem of_selected {store : Store} {s : Select} {p : Prepared} {tuples : List Tuple}
    (hlimit : s.limit = none) (hoffset : s.offset = none) (h : store.selected s p = .ok tuples) :
    tuples.length = (p.tuples store).length ∧
      ∀ limit offset, store.selected { s with limit := limit, offset := offset } p =
        .ok (window limit offset tuples) := by
  unfold selected at h ⊢
  obtain ⟨keys, hkeys, h⟩ := Except.of_bind_ok h
  dsimp only at h
  split at h
  next => cases h
  next hfew =>
    cases h
    rw [hlimit, hoffset, window_none, (perm_sortedBy _).length_eq]
    refine ⟨rfl, fun limit offset => ?_⟩
    dsimp only
    rw [hkeys]
    exact if_neg hfew

end Store

namespace Query

variable {q : Query} {store : Store} {rs : List Record}

/-- The count of a query that names no result in its tests is that of its rows. -/
theorem count_rows (hlimit : q.limit = none) (hoffset : q.offset = none)
    (hnames : ∀ p, store.prepare false q.source q.projection = .ok p → p.Tells store)
    (h : q.rows store = .ok rs) : store.count q.source = .ok rs.length := by
  obtain ⟨found, hfound, hattached⟩ := Except.of_bind_ok h
  obtain ⟨p, tuples, hp, htuples, rfl⟩ := Store.of_select hfound
  have hlength := EagerLoad.length_attachAll hattached
  rw [List.length_map, (Store.of_selected hlimit hoffset htuples).1] at hlength
  have hcount : store.count q.source = .ok (p.tuples store).length :=
    Store.count_eq hp (hnames p hp)
  rw [hcount, hlength]

/-- Limit and offset take their window of the records that a statement finds without them. -/
theorem select_window {found : List Record} (limit offset : Option Int) (hlimit : q.limit = none)
    (hoffset : q.offset = none) (h : store.select q.toSelect = .ok found) :
    store.select (toSelect { q with limit := limit, offset := offset }) =
      .ok (Store.window limit offset found) := by
  obtain ⟨p, tuples, hp, htuples, rfl⟩ := Store.of_select h
  have hselected : store.selected (toSelect { q with limit := limit, offset := offset }) p =
      .ok (Store.window limit offset tuples) :=
    (Store.of_selected hlimit hoffset htuples).2 limit offset
  have hlegible := Store.legible_of_select hp htuples h
  have hprepared : store.prepare false
      (toSelect { q with limit := limit, offset := offset }).source
      (toSelect { q with limit := limit, offset := offset }).columns = .ok p := hp
  rw [Store.select_eq hprepared, hselected, Store.map_window]
  exact Store.Prepared.records_eq_ok_iff.mpr
    ⟨fun tuple hmem => hlegible tuple (Store.mem_of_mem_window hmem), rfl⟩

/-- Limit and offset take their window of the rows that a query brings back without them. -/
theorem window_rows (limit offset : Option Int) (hlimit : q.limit = none)
    (hoffset : q.offset = none) (hplain : ∀ load ∈ q.loads, IsPlainColumn load.relation.relatedKey)
    (hkeys : ∀ found, store.select q.toSelect = .ok found →
      EagerLoad.AllTell store q.loads found)
    (h : q.rows store = .ok rs) :
    rows { q with limit := limit, offset := offset } store =
      .ok (Store.window limit offset rs) := by
  obtain ⟨found, hfound, hattached⟩ := Except.of_bind_ok h
  have hselect := select_window limit offset hlimit hoffset hfound
  have hsub : ∀ parent ∈ Store.window limit offset found, parent ∈ found := fun _ =>
    Store.mem_of_mem_window
  obtain ⟨change, hrs, hpart⟩ :=
    EagerLoad.attachAll_part hplain hsub (hkeys found hfound) hattached
  unfold rows
  rw [hselect, hrs, Store.map_window]
  exact hpart

/-- A page of a query without a window of its own is a window of its rows. -/
theorem page_rows {number size : Int} {page : Page} (hmake : Page.make number size = .ok page)
    (hlimit : q.limit = none) (hoffset : q.offset = none)
    (hplain : ∀ load ∈ q.loads, IsPlainColumn load.relation.relatedKey)
    (hkeys : ∀ found, store.select q.toSelect = .ok found →
      EagerLoad.AllTell store q.loads found)
    (h : q.rows store = .ok rs) :
    rows { q with limit := some page.size, offset := some page.offset } store =
      .ok (page.window rs) := by
  rw [← Page.window_eq hmake]
  exact window_rows (some page.size) (some page.offset) hlimit hoffset hplain hkeys h

end Query

/-- What the query of a list is before it is run. -/
structure Query.Lists (e : Entity) (q : Query) : Prop where
  entity : q.entity = e
  limit : q.limit = none
  offset : q.offset = none
  loads : ∀ load ∈ q.loads, load.relation ∈ e.relations

namespace Query.Lists

variable {e : Entity} {q made : Query}

theorem ofEntity (e : Entity) : Query.Lists e (.ofEntity e) :=
  ⟨rfl, rfl, rfl, by simp [Query.ofEntity]⟩

theorem load (hq : Lists e q) {request : RelationRequest} (h : q.load request = .ok made) :
    Lists e made := by
  obtain ⟨relation, hrelation, rfl⟩ := of_load h
  refine { hq with loads := fun load hmem => ?_ }
  rcases List.mem_append.mp hmem with hmem | hmem
  · exact hq.loads load hmem
  · rw [List.mem_singleton.mp hmem]
    rw [hq.entity] at hrelation
    exact List.mem_of_find?_eq_some (Predicate.find?_of_relation hrelation)

theorem orderBy (hq : Lists e q) {key : SortKey} (h : q.orderBy key = .ok made) :
    Lists e made := by
  obtain ⟨rfl, _⟩ := of_orderBy h
  exact { hq with }

theorem join (hq : Lists e q) {join : Join} {forced : Option JoinKind}
    (h : q.join join forced = .ok made) : Lists e made := by
  obtain ⟨rfl, _⟩ := of_join h
  exact { hq with }

theorem addCriteria (hq : Lists e q) (criteria : Criteria) : Lists e (q.addCriteria criteria) :=
  { hq with }

theorem applyOptions (hq : Lists e q) {options : ListOptions}
    (h : q.applyOptions options = .ok made) : Lists e made :=
  of_applyOptions orderBy load join (fun hq _ => hq.addCriteria _) hq h

end Query.Lists

theorem Entity.of_listQuery {e : Entity} {columns : List String} {condition : Condition}
    {o : ListOptions} {q : Query} {session after : Session}
    (h : (e.listQuery columns condition o).exec session = (.ok q, after)) :
    q.Lists e ∧ after.store = session.store := by
  obtain ⟨hstore, criteria, _, _, hmade⟩ := Entity.applyOptions_of_listQuery h
  have hstart : Query.Lists e { entity := e, columns := columns, criteria := criteria } :=
    { Query.Lists.ofEntity e with }
  exact ⟨hstart.applyOptions hmade, hstore⟩

/-- A page takes two statements, and nothing but the store can make it fail. -/
theorem Query.exec_paginate (q : Query) (page : Page) (session : Session) :
    ∃ events, (q.paginate page).exec session =
      ((do
        let total ← session.store.count q.source
        let items ← rows { q with limit := some page.size, offset := some page.offset }
          session.store
        pure (Paged.of items total page) : Except StoreFault (Paged Record)).mapError .storage,
        { session with events := events }) := by
  unfold paginate count
  rw [Run.exec_bind, Run.exec_bind, Run.exec_emit]
  dsimp only
  rw [Run.exec_read]
  cases session.store.count q.source with
  | error fault => exact ⟨_, rfl⟩
  | ok total =>
    obtain ⟨events, hfetch⟩ := exec_fetchAll
      { q with limit := some page.size, offset := some page.offset }
      { session with events := session.events ++ [.statement (Statement.count q.source).text] }
    dsimp only [Except.mapError]
    rw [Run.exec_bind, hfetch]
    dsimp only
    cases rows { q with limit := some page.size, offset := some page.offset } session.store with
    | error fault => exact ⟨events, rfl⟩
    | ok items => exact ⟨events, rfl⟩

theorem Query.exec_paginate_of_rows {q : Query} {session : Session} {total : Nat}
    {items : List Record} (page : Page) (hcount : session.store.count q.source = .ok total)
    (hitems : rows { q with limit := some page.size, offset := some page.offset } session.store =
      .ok items) :
    ∃ events, (q.paginate page).exec session =
      (.ok (Paged.of items total page), { session with events := events }) := by
  obtain ⟨events, hexec⟩ := q.exec_paginate page session
  refine ⟨events, ?_⟩
  rw [hexec, hcount]
  change (Except.mapError _ (rows _ _ >>= _), _) = _
  rw [hitems]
  rfl

theorem Query.of_paginate {q : Query} {page : Page} {session after : Session}
    {paged : Paged Record} (h : (q.paginate page).exec session = (.ok paged, after)) :
    ∃ total : Nat, session.store.count q.source = .ok total ∧
      Query.rows { q with limit := some page.size, offset := some page.offset } session.store =
        .ok paged.items ∧
      paged = Paged.of paged.items total page := by
  obtain ⟨events, hexec⟩ := q.exec_paginate page session
  rw [h] at hexec
  cases htotal : session.store.count q.source with
  | error fault =>
    rw [htotal] at hexec
    cases hexec
  | ok total =>
    cases hitems : Query.rows { q with limit := some page.size, offset := some page.offset }
        session.store with
    | error fault =>
      rw [htotal, hitems] at hexec
      cases hexec
    | ok items =>
      rw [htotal, hitems] at hexec
      cases hexec
      exact ⟨total, rfl, rfl, rfl⟩

/-- A list without a page brings back the rows of its query. -/
theorem Entity.of_list_rows {e : Entity} {columns : List String} {condition : Condition}
    {o : ListOptions} {q : Query} {session between after : Session} {rs : List Record}
    (hq : (e.listQuery columns condition o).exec session = (.ok q, between))
    (h : (e.list columns condition o).exec session = (.ok (.rows rs), after)) :
    q.rows session.store = .ok rs := by
  have hstore := (Entity.of_listQuery hq).2
  unfold list at h
  rw [Run.exec_bind, hq] at h
  dsimp only at h
  cases hpage : o.page with
  | some page =>
    rw [hpage] at h
    obtain ⟨_, _, _, h⟩ := Run.of_bind_ok h
    cases h
  | none =>
    rw [hpage] at h
    obtain ⟨found, _, hfetch, h⟩ := Run.of_bind_ok h
    cases h
    rw [← hstore]
    exact Query.rows_of_fetchAll hfetch

/-- Each accepted page of a list is a window of the whole list, counted as a whole, and the pages
one after the other are the list: if no test of the query asks for a result by its name, and the
keys of its loads tell related rows apart as the rows themselves do. -/
theorem Entity.pages_are_windows {e : Entity}
    (hplain : ∀ r ∈ e.relations, IsPlainColumn r.relatedKey) {columns : List String}
    {condition : Condition} {o : ListOptions} {q : Query} {session between after : Session}
    {rs : List Record}
    (hq : (e.listQuery columns condition o).exec session = (.ok q, between))
    (hnames : ∀ p, session.store.prepare false q.source q.projection = .ok p →
      p.Tells session.store)
    (hkeys : ∀ found, session.store.select q.toSelect = .ok found →
      EagerLoad.AllTell session.store q.loads found)
    (h : (e.list columns condition o).exec session = (.ok (.rows rs), after)) :
    (∀ number size page, Page.make number size = .ok page →
      (∃ events, (e.list columns condition { o with page := some page }).exec session =
        (.ok (.page (Paged.of (page.window rs) rs.length page)),
          { session with events := events })) ∧
      (Paged.lastPageOf rs.length page.size < page.number → page.window rs = [])) ∧
    ∀ size, 1 ≤ size → (rs.length : Int) ≤ maxInt64 → ∃ pages : List Page,
      pages.length = (Paged.lastPageOf rs.length (min size Page.unlimitedSize)).toNat ∧
      (∀ (i : Nat) page, pages[i]? = some page → Page.make (i + 1) size = .ok page) ∧
      pages.flatMap (·.window rs) = rs := by
  obtain ⟨hlists, hstore⟩ := Entity.of_listQuery hq
  have hrows := Entity.of_list_rows hq h
  have hloads : ∀ load ∈ q.loads, IsPlainColumn load.relation.relatedKey := fun load hmem =>
    hplain _ (hlists.loads load hmem)
  refine ⟨fun number size page hmake => ⟨?_, ?_⟩, fun size => Page.exists_pages⟩
  · have hcount := Query.count_rows hlists.limit hlists.offset hnames hrows
    have hitems := Query.page_rows hmake hlists.limit hlists.offset hloads hkeys hrows
    obtain ⟨events, hexec⟩ := q.exec_paginate page between
    have hpaged : (q.paginate page).exec between =
        (.ok (Paged.of (page.window rs) rs.length page), { session with events := events }) := by
      rw [hexec, hstore, hcount]
      change (Except.mapError _ (Query.rows _ _ >>= _), _) = _
      rw [hitems]
      rfl
    -- the page is left to who runs the query, so the query is that of the whole list
    have hsame : e.listQuery columns condition { o with page := some page } =
        e.listQuery columns condition o := rfl
    refine ⟨events, ?_⟩
    unfold list
    rw [hsame, Run.exec_bind, hq]
    dsimp only
    rw [Run.exec_bind, hpaged]
    rfl
  · exact Page.window_past (Page.of_make hmake).2.1

/-- How many rows a list brings back, where no page is asked for. -/
def ListResult.rowCount? : ListResult → Option Nat
  | rows found => some found.length
  | page _ => none

namespace Shop

def oneTeam : Store where
  tables := [{ schema := teamSchema, rows := [[.int 1, .text "a"]] }]

/-- The name of a result stands in the test: the list can be read, its count and so its pages
cannot. -/
theorem page_of_renamed_teams_fails :
    (((teams.list ["name as n"] [("n", some (.compare .eq (.text "a")))] {}).exec
        { store := oneTeam }).1.map fun found => found.records.length) = .ok 1 ∧
    (((teams.list ["name as n"] [("n", some (.compare .eq (.text "a")))]
        { page := some ⟨1, 10⟩ }).exec { store := oneTeam }).1.map fun found =>
          found.records.length) = .error (.storage .statement) := by
  decide +kernel

/-- The owners of two assets look the same, although only the first is a customer. -/
def likeOwners : Store where
  tables :=
    [{ schema := customerSchema
       rows :=
        [[.int 1152921504606847000, .text "a", .null, .int 1, .null, .null, .null, .null, .null]] },
     { schema := assetSchema
       rows :=
        [[.int 1, .text "x", .null, .null, .int 1152921504606847000],
         [.int 2, .text "y", .null, .null, .real (Double.ofInt 1152921504606846976)]] }]

def withOwners : ListOptions where
  steps := [.relate [⟨"owner", ["name"]⟩]]

/-- On a page of its own the second asset has no owner, in the whole list it has the first one's. -/
theorem page_loses_owner :
    (((assets.list ["name"] [] withOwners).exec { store := likeOwners }).1.map fun found =>
        found.records.map fun row => row.contains "owner" && row.value "owner" = .null) =
      .ok [false, false] ∧
    (((assets.list ["name"] [] { withOwners with page := some ⟨2, 1⟩ }).exec
        { store := likeOwners }).1.map fun found =>
          found.records.map fun row => row.contains "owner" && row.value "owner" = .null) =
      .ok [true] := by
  decide +kernel

def threeCustomers : Store where
  tables :=
    [{ schema := customerSchema
       rows :=
        [[.int 1, .text "a", .null, .int 1, .null, .null, .null, .null, .null],
         [.int 2, .text "b", .null, .int 1, .null, .null, .null, .null, .null],
         [.int 3, .text "c", .null, .int 1, .null, .null, .null, .null, .null]] },
     { schema := orderSchema
       rows := [[.int 1, .int 3, .real .zero, .null], [.int 2, .int 1, .real .zero, .null]] }]

def latestWithOrders : ListOptions where
  steps := [.sort [⟨"name", .desc⟩], .relate [⟨"orders", ["total"]⟩]]

/-- Three customers with their orders, whatever the page. -/
theorem pages_of_customers :
    ∃ rs after,
      (customers.list ["name as shown"] [("status", some (.compare .eq (.int 1)))]
        latestWithOrders).exec { store := threeCustomers } = (.ok (.rows rs), after) ∧
      rs.length = 3 ∧
      ∀ number size page, Page.make number size = .ok page → ∃ events,
        (customers.list ["name as shown"] [("status", some (.compare .eq (.int 1)))]
          { latestWithOrders with page := some page }).exec { store := threeCustomers } =
          (.ok (.page (Paged.of (page.window rs) rs.length page)),
            { store := threeCustomers, events := events }) := by
  have hsound : (((customers.listQuery ["name as shown"]
      [("status", some (.compare .eq (.int 1)))] latestWithOrders).exec
        { store := threeCustomers }).1.toOption.any fun q : Query =>
          decide (∀ p, threeCustomers.prepare false q.source q.projection = .ok p →
            p.Tells threeCustomers) &&
          decide (∀ found, threeCustomers.select q.toSelect = .ok found →
            EagerLoad.AllTell threeCustomers q.loads found)) = true := by
    decide +kernel
  have hread : (((customers.list ["name as shown"]
      [("status", some (.compare .eq (.int 1)))] latestWithOrders).exec
        { store := threeCustomers }).1.toOption.bind ListResult.rowCount?) = some 3 := by
    decide +kernel
  rcases hq : (customers.listQuery ["name as shown"] [("status", some (.compare .eq (.int 1)))]
    latestWithOrders).exec { store := threeCustomers } with ⟨cause | q, between⟩
  · rw [hq] at hsound
    cases hsound
  rcases hlist : (customers.list ["name as shown"] [("status", some (.compare .eq (.int 1)))]
    latestWithOrders).exec { store := threeCustomers } with ⟨cause | rs | found, after⟩
  · rw [hlist] at hread
    cases hread
  · rw [hlist] at hread
    rw [hq] at hsound
    obtain ⟨hnames, hkeys⟩ := (Bool.and_eq_true _ _).mp hsound
    have hplain : ∀ r ∈ customers.relations, IsPlain r.relatedKey := by
      decide +kernel
    have hpages := Entity.pages_are_windows (fun r hmem => .inl (hplain r hmem)) hq
      (of_decide_eq_true hnames) (of_decide_eq_true hkeys) hlist
    exact ⟨rs, after, rfl, Option.some.inj hread, fun number size page hmake =>
      (hpages.1 number size page hmake).1⟩
  · rw [hlist] at hread
    cases hread

end Shop

end TableQuery
