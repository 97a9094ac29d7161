import TableQuery.Proofs.EqualRows

namespace TableQuery

open Sql

namespace Paged

variable {α : Type} {size total : Int}

/-- A page is the whole list: it holds all rows, and no page follows it. -/
structure IsWhole (e : Paged α) (rows : List α) : Prop where
  items : e.items = rows
  lastPage : e.lastPage = 1
  hasNextPage : e.hasNextPage = false

theorem one_lt_lastPageOf_iff (hsize : 1 ≤ size) (htotal : 0 ≤ total) :
    1 < lastPageOf total size ↔ size < total := by
  rw [lt_lastPageOf_iff htotal hsize (Int.le_refl 1), Int.one_mul]

theorem hasNextPage_first (hsize : 1 ≤ size) (htotal : 0 ≤ total) (items : List α) :
    (of items total ⟨1, size⟩).hasNextPage = true ↔ size < total :=
  decide_eq_true_iff.trans (one_lt_lastPageOf_iff hsize htotal)

theorem isWhole_first_iff (hsize : 1 ≤ size) (htotal : 0 ≤ total) {items rows : List α} :
    (of items total ⟨1, size⟩).IsWhole rows ↔ items = rows ∧ total ≤ size := by
  have hone := one_le_lastPageOf total size
  have hmore := one_lt_lastPageOf_iff hsize htotal
  constructor
  · rintro ⟨hitems, hlast, _⟩
    have hlast : lastPageOf total size = 1 := hlast
    exact ⟨hitems, by omega⟩
  · rintro ⟨hitems, hfits⟩
    have hnone : ¬1 < lastPageOf total size := by omega
    exact ⟨hitems, show lastPageOf total size = 1 by omega, decide_eq_false hnone⟩

end Paged

namespace Page

theorem window_unlimited {α : Type} (rows : List α) :
    Store.window (some unlimited.size) (some unlimited.offset) rows =
      rows.take unlimitedSize.toNat :=
  rfl

theorem unlimited_keepsAll_iff {count : Nat} :
    Store.KeepsAll (some unlimited.size) (some unlimited.offset) count ↔
      (count : Int) ≤ unlimitedSize := by
  have hsize : unlimited.size = unlimitedSize := rfl
  have hpositive : ¬unlimitedSize < 0 := by decide
  have hoffset : unlimited.offset = 0 := by decide
  simp [Store.KeepsAll, hsize, hpositive, hoffset]

end Page

namespace Query

variable {q : Query}

section

variable {store : Store} {limit offset : Option Int} {rs : List Record}

/-- As many rows come back as limit and offset leave, whatever the loads bring to them. -/
theorem length_rows_window {part : List Record} (hlimit : q.limit = none)
    (hoffset : q.offset = none) (h : q.rows store = .ok rs)
    (hpart : rows { q with limit := limit, offset := offset } store = .ok part) :
    part.length = (Store.window limit offset rs).length := by
  obtain ⟨found, hfound, hattached⟩ := Except.of_bind_ok h
  obtain ⟨left, hleft, hattached'⟩ := Except.of_bind_ok hpart
  have hwindow : left = Store.window limit offset found :=
    Except.ok.inj (hleft.symm.trans (select_window limit offset hlimit hoffset hfound))
  rw [EagerLoad.length_attachAll hattached', hwindow]
  exact Store.length_window_congr (EagerLoad.length_attachAll hattached).symm

/-- Where limit and offset leave out none of its rows, a query loads the same for the same parents,
so that the keys need not tell related rows apart. -/
theorem rows_of_keepsAll (hlimit : q.limit = none) (hoffset : q.offset = none)
    (hkeeps : Store.KeepsAll limit offset rs.length) (h : q.rows store = .ok rs) :
    rows { q with limit := limit, offset := offset } store = .ok rs := by
  obtain ⟨found, hfound, hattached⟩ := Except.of_bind_ok h
  rw [EagerLoad.length_attachAll hattached] at hkeeps
  have hselect := select_window limit offset hlimit hoffset hfound
  rw [Store.window_eq_self hkeeps] at hselect
  unfold rows
  rw [hselect]
  exact hattached

theorem length_unlimited_rows {part : List Record} (h : q.whole.rows store = .ok rs)
    (hpart : rows { q with limit := some Page.unlimited.size, offset := some Page.unlimited.offset }
      store = .ok part) :
    (part.length : Int) = min (rs.length : Int) Page.unlimitedSize := by
  have hpositive : 0 ≤ Page.unlimitedSize := by decide
  have hleft := length_rows_window (q := q.whole) rfl rfl h hpart
  rw [Page.window_unlimited, List.length_take] at hleft
  omega

end

section

variable {session between : Session} {full : List Record}

/-- The unlimited page is the whole list exactly where neither the list nor its count is greater
than the page; the count is that of the list, if no test asks for a result by its name. Of a longer
list the page holds as many rows as it has room for, and a next page is told of where more rows are
counted. -/
theorem unlimited_page_whole_iff (h : q.whole.fetchAll.exec session = (.ok full, between)) :
    ((∃ page after, (q.paginate .unlimited).exec session = (.ok page, after) ∧
        page.IsWhole full) ↔
      (full.length : Int) ≤ Page.unlimitedSize ∧ ∃ total : Nat,
        session.store.count q.source = .ok total ∧ (total : Int) ≤ Page.unlimitedSize) ∧
    (∃ p, session.store.prepare false q.source q.projection = .ok p ∧
      (p.Tells session.store → session.store.count q.source = .ok full.length)) ∧
    ∀ page after, (q.paginate .unlimited).exec session = (.ok page, after) →
      (page.items.length : Int) = min (full.length : Int) Page.unlimitedSize ∧
        ∃ total : Nat, session.store.count q.source = .ok total ∧ page.total = total ∧
          (page.hasNextPage = true ↔ Page.unlimitedSize < total) := by
  have hrows := rows_of_fetchAll h
  have hsize : 1 ≤ Page.unlimitedSize := by decide
  refine ⟨⟨?_, ?_⟩, ?_, ?_⟩
  · rintro ⟨page, after, hpage, hwhole⟩
    obtain ⟨total, hcount, hitems, hmade⟩ := of_paginate hpage
    rw [hmade] at hwhole
    obtain ⟨hall, hfits⟩ :=
      (Paged.isWhole_first_iff hsize (Int.natCast_nonneg total)).mp hwhole
    -- all rows are on the page, so they are not more than the rows of a page
    have hlength := length_unlimited_rows hrows hitems
    rw [hall] at hlength
    exact ⟨by omega, total, hcount, hfits⟩
  · rintro ⟨hroom, total, hcount, hfits⟩
    have hitems := rows_of_keepsAll (q := q.whole) rfl rfl
      (Page.unlimited_keepsAll_iff.mpr hroom) hrows
    obtain ⟨events, hexec⟩ := exec_paginate_of_rows .unlimited hcount hitems
    exact ⟨_, _, hexec,
      (Paged.isWhole_first_iff hsize (Int.natCast_nonneg total)).mpr ⟨rfl, hfits⟩⟩
  · obtain ⟨found, hfound, _⟩ := Except.of_bind_ok hrows
    obtain ⟨p, _, hp, _, _⟩ := Store.of_select hfound
    exact ⟨p, hp, fun htells => count_whole hrows hp htells⟩
  · intro page after hpage
    obtain ⟨total, hcount, hitems, hmade⟩ := of_paginate hpage
    have htotal : page.total = total := by
      rw [hmade]
      rfl
    refine ⟨length_unlimited_rows hrows hitems, total, hcount, htotal, ?_⟩
    rw [hmade]
    exact Paged.hasNextPage_first hsize (Int.natCast_nonneg total) _

end

end Query

namespace Entity

variable {e : Entity} {store : Store} {t : Table}

/-- The rows of a table of which all can be read. -/
theorem Kept.rows_query (hkept : e.Kept store t) (hlegible : ∀ row ∈ t.rows, t.legible row = true)
    (limit offset : Option Int) :
    Query.rows { e.query with limit := limit, offset := offset } store =
      .ok ((Store.window limit offset t.rows).map t.recordOf) := by
  have htest : store.rowTest t [] = .ok fun _ => true := rfl
  have hselect := Store.select_rows hkept.plain hkept.read hkept.narrow hkept.wide [] limit offset
  have hleft : (Store.window limit offset t.rows).all t.legible = true :=
    List.all_eq_true.mpr fun row hrow => hlegible row (Store.mem_of_mem_window hrow)
  rw [htest, Except.bind, List.filter_true, Table.mapM_readRow, if_pos hleft] at hselect
  rw [Query.rows_of_no_loads rfl]
  exact hselect

theorem Kept.count_query (hkept : e.Kept store t) (hlegible : ∀ row ∈ t.rows, t.legible row = true) :
    store.count e.query.source = .ok t.rows.length := by
  have hnames : ∀ p, store.prepare false e.query.source e.query.projection = .ok p →
      p.Tells store := by
    intro p hp
    obtain ⟨_, _, rfl⟩ := Store.of_prepare_rows hkept.plain hkept.read hp
    exact ⟨fun _ _ _ _ => rfl, fun _ _ _ _ => rfl⟩
  have hcount := Query.count_rows (q := e.query) rfl rfl hnames
    (hkept.rows_query hlegible none none)
  rw [hcount, Store.window_none, List.length_map]

/-- The unlimited page of a table holds its first rows, up to the size of the page. -/
theorem exec_unlimited_page (session : Session) (hkept : e.Kept session.store t)
    (hlegible : ∀ row ∈ t.rows, t.legible row = true) :
    ∃ events, (e.query.paginate .unlimited).exec session =
      (.ok (Paged.of ((t.rows.map t.recordOf).take Page.unlimitedSize.toNat) t.rows.length
        .unlimited), { session with events := events }) := by
  have hrows := hkept.rows_query hlegible (some Page.unlimited.size) (some Page.unlimited.offset)
  rw [Page.window_unlimited, List.map_take] at hrows
  exact Query.exec_paginate_of_rows .unlimited (hkept.count_query hlegible) hrows

end Entity

namespace Shop

/-- The query has a limit and an offset of its own, which give way to those of the page. -/
theorem unlimited_page_holds_three_customers :
    ∃ full between page after,
      secondOfThree.whole.fetchAll.exec { store := threeCustomers } = (.ok full, between) ∧
      full.length = 3 ∧
      (secondOfThree.paginate .unlimited).exec { store := threeCustomers } = (.ok page, after) ∧
      page.IsWhole full := by
  have hread : ((secondOfThree.whole.fetchAll.exec { store := threeCustomers }).1.toOption.any
      fun full => full.length == 3) = true := by
    decide +kernel
  obtain ⟨full, between, hfull, hlength⟩ := Run.exists_of_any hread
  have hthree : full.length = 3 := by simpa using hlength
  have hcount : threeCustomers.count secondOfThree.source = .ok 3 := by
    decide +kernel
  have hroom : (3 : Int) ≤ Page.unlimitedSize := by
    decide
  obtain ⟨page, after, hpage, hwhole⟩ := (Query.unlimited_page_whole_iff hfull).1.mpr
    ⟨by rw [hthree]; exact hroom, 3, hcount, hroom⟩
  exact ⟨full, between, page, after, hfull, hthree, hpage, hwhole⟩

/-- The table of the teams `a` under the keys from one on. -/
def numberedTeams (count : Nat) : Table where
  schema := teamSchema
  rows := (List.range count).map fun i : Nat => [.int (i + 1), .text "a"]
  lastKey := count

def withTeams (count : Nat) : Store where
  tables := [numberedTeams count]

theorem length_numberedTeams (count : Nat) : (numberedTeams count).rows.length = count := by
  rw [numberedTeams, List.length_map, List.length_range]

theorem kept_withTeams (count : Nat) : teams.Kept (withTeams count) (numberedTeams count) where
  plain := plain_teams.table
  own := by
    have hname : Text.sameName (numberedTeams count).schema.name teams.table = true :=
      Text.sameName_refl "teams"
    simp [Store.table, Store.table?, withTeams, hname]
  read := by
    have hother : Text.sameName teams.table "sqlite_sequence" = false := by
      decide +kernel
    have hkeys : (withTeams count).keyTable.schema.isCalled teams.table = false := by
      simpa [Store.keyTable, Schema.isCalled] using hother
    have hname : Text.sameName teams.table "teams" = true := Text.sameName_refl "teams"
    have hown : (numberedTeams count).schema.isCalled teams.table = true := by
      simp [numberedTeams, teamSchema, countedSchema, Schema.isCalled, hname]
    rw [Store.readable?, List.find?_cons_of_neg (by simp [hkeys])]
    exact List.find?_cons_of_pos (by simp [hown])
  narrow := show teamSchema.columns.length ≤ Store.limits.columns by decide
  wide := by
    intro row hmem
    obtain ⟨i, _, rfl⟩ := List.mem_map.mp hmem
    exact Nat.le_refl 2

theorem legible_numberedTeams (count : Nat) :
    ∀ row ∈ (numberedTeams count).rows, (numberedTeams count).legible row = true := by
  intro row hmem
  obtain ⟨i, _, rfl⟩ := List.mem_map.mp hmem
  rfl

/-- Of ten thousand teams the unlimited page misses the last one. -/
theorem unlimited_page_misses_last_team :
    ∃ full between page after,
      teams.query.fetchAll.exec { store := withTeams 10000 } = (.ok full, between) ∧
      full.length = 10000 ∧
      (teams.query.paginate .unlimited).exec { store := withTeams 10000 } = (.ok page, after) ∧
      page.items = full.take 9999 ∧ page.items.length = 9999 ∧
      page.lastPage = 2 ∧ page.hasNextPage = true := by
  have hkept := kept_withTeams 10000
  have hlegible := legible_numberedTeams 10000
  have hcount := length_numberedTeams 10000
  have hfetch : ∃ events, teams.query.fetchAll.exec { store := withTeams 10000 } =
      (.ok ((numberedTeams 10000).rows.map (numberedTeams 10000).recordOf),
        { store := withTeams 10000, events := events }) :=
    Query.exec_fetchAll_of_rows (hkept.rows_query hlegible none none)
  obtain ⟨fetched, hfull⟩ := hfetch
  obtain ⟨paged, hpage⟩ :=
    Entity.exec_unlimited_page { store := withTeams 10000 } hkept hlegible
  have hsize : Page.unlimitedSize.toNat = 9999 := by
    decide
  have hlength :
      ((numberedTeams 10000).rows.map (numberedTeams 10000).recordOf).length = 10000 := by
    rw [List.length_map, hcount]
  rw [hcount, hsize] at hpage
  generalize (numberedTeams 10000).rows.map (numberedTeams 10000).recordOf = full at *
  have hlast : Paged.lastPageOf 10000 9999 = 2 := by
    decide
  refine ⟨full, _, _, _, hfull, hlength, hpage, ?_, ?_, hlast, ?_⟩
  · rfl
  · show (full.take 9999).length = 9999
    rw [List.length_take, hlength]
    decide
  · exact (Paged.hasNextPage_first (by decide) (by decide) _).mpr (by decide)

/-- The test is on the name of the result. -/
def renamedTeam : Query where
  entity := teams
  columns := ["name as n"]
  criteria := [(.and, .compare "n" .eq (.text "a"))]

/-- A result that a test asks for by its name can be read, but not counted, so it is on no page. -/
theorem unlimited_page_of_renamed_team_fails :
    ((renamedTeam.fetchAll.exec { store := oneTeam }).1.map List.length) = .ok 1 ∧
    (((renamedTeam.paginate .unlimited).exec { store := oneTeam }).1.map fun page =>
      page.items.length) = .error (.storage .statement) := by
  decide +kernel

end Shop

end TableQuery
