import TableQuery.Proofs.ListedRows
import TableQuery.Proofs.TableRows

namespace TableQuery

open Sql

namespace Store

/-- Limit and offset leave out none of so many rows. -/
def KeepsAll (limit offset : Option Int) (count : Nat) : Prop :=
  (∀ n ∈ limit, n < 0 ∨ (count : Int) ≤ n) ∧ (offset.getD 0 ≤ 0 ∨ count = 0)

theorem length_window_eq_iff {α : Type} (limit offset : Option Int) (rows : List α) :
    (window limit offset rows).length = rows.length ↔ KeepsAll limit offset rows.length := by
  have hdropped : (rows.drop (offset.getD 0).toNat).length =
      rows.length - (offset.getD 0).toNat := List.length_drop
  unfold window KeepsAll
  dsimp only
  cases limit with
  | none =>
    rw [hdropped]
    simp only [Option.mem_def, reduceCtorEq, false_implies, implies_true, true_and]
    omega
  | some n =>
    simp only [Option.mem_def, Option.some.injEq, forall_eq']
    split
    next hnegative =>
      rw [hdropped]
      omega
    next hlimited =>
      rw [List.length_take, hdropped]
      omega

theorem window_eq_self {α : Type} {limit offset : Option Int} {rows : List α}
    (h : KeepsAll limit offset rows.length) : window limit offset rows = rows := by
  refine List.Sublist.eq_of_length ?_ ((length_window_eq_iff limit offset rows).mpr h)
  unfold window
  dsimp only
  split
  next =>
    split
    next => exact List.drop_sublist _ _
    next => exact (List.take_sublist _ _).trans (List.drop_sublist _ _)
  next => exact List.drop_sublist _ _

/-- A window of the rows in another order holds all of them where it leaves out none. -/
theorem window_perm_iff {α : Type} {limit offset : Option Int} {rows all : List α}
    (hall : all.Perm rows) :
    (window limit offset all).Perm rows ↔ KeepsAll limit offset rows.length := by
  rw [← hall.length_eq]
  refine ⟨fun h => ?_, fun h => ?_⟩
  · rw [← length_window_eq_iff, h.length_eq, hall.length_eq]
  · rw [window_eq_self h]
    exact hall

/-- Tuples of one row each are rows, in whatever order. -/
theorem exists_rows {all : List Tuple} {rows : List Row}
    (h : all.Perm (rows.map fun row => [row])) :
    ∃ order : List Row, order.Perm rows ∧ all = order.map fun row => [row] := by
  refine ⟨all.map fun tuple => tuple.headD [], ?_, ?_⟩
  · have hheads := h.map fun tuple => tuple.headD []
    have hsame : (rows.map fun row => [row]).map (fun tuple => tuple.headD []) = rows := by
      rw [List.map_map]
      exact List.map_id rows
    rwa [hsame] at hheads
  · rw [List.map_map]
    refine (List.map_id all).symm.trans (List.map_congr_left fun tuple hmem => ?_)
    obtain ⟨row, _, rfl⟩ := List.mem_map.mp (h.mem_iff.mp hmem)
    rfl

end Store

namespace Query

variable {q : Query} {session after : Session} {t : Table} {n : Nat}

/-- A delete is one statement; its clauses alone choose the rows. -/
theorem exec_delete (hjoins : q.joins = []) (session : Session) :
    ∃ events, q.delete.exec session =
      match session.store.delete q.entity.table q.criteria with
      | .ok (store, result) => (.ok result.count, ⟨store, events⟩)
      | .error fault => (.error (.storage fault), { session with events := events }) := by
  have hstatement : q.toDelete = .ok (.delete q.entity.table q.criteria) := by
    simp [toDelete, hjoins]
  unfold delete
  rw [Run.exec_bind, hstatement, Run.exec_ofInvalid]
  dsimp only [Except.mapError]
  rw [Run.exec_bind, Run.exec_emit]
  dsimp only
  rw [Run.exec_bind, Run.exec_write]
  refine ⟨session.events ++ [.statement (Statement.delete q.entity.table q.criteria).text], ?_⟩
  dsimp only
  cases session.store.delete q.entity.table q.criteria <;> rfl

theorem of_delete (h : q.delete.exec session = (.ok n, after)) :
    q.joins = [] ∧ ∃ result, session.store.delete q.entity.table q.criteria =
      .ok (after.store, result) ∧ n = result.count := by
  have hjoins : q.joins = [] := by
    obtain ⟨statement, _, hstatement, _⟩ := Run.of_bind_ok h
    obtain ⟨htoDelete, _⟩ := Run.of_ofInvalid hstatement
    unfold toDelete at htoDelete
    split at htoDelete
    next hempty => exact List.isEmpty_iff.mp hempty
    next => cases htoDelete
  obtain ⟨events, hexec⟩ := exec_delete hjoins session
  rw [h] at hexec
  cases hdelete : session.store.delete q.entity.table q.criteria with
  | error fault =>
    rw [hdelete] at hexec
    cases hexec
  | ok found =>
    rw [hdelete] at hexec
    cases hexec
    exact ⟨hjoins, found.2, rfl, rfl⟩

/-- The rows that meet the clauses of a query without joins are its tuples, where no clause asks for
a result by its name. -/
theorem tuples_of_rowTest {p : Store.Prepared} {test : Row → Bool} (hplain : IsPlain q.entity.table)
    (hread : session.store.readable? none q.entity.table = some t) (hjoins : q.joins = [])
    (hp : session.store.prepare false q.source q.projection = .ok p)
    (htells : p.Tells session.store) (htest : session.store.rowTest t q.criteria = .ok test) :
    p.tuples session.store = (t.rows.filter test).map fun row => [row] := by
  obtain ⟨parts⟩ := Store.preparedBy_of_prepare hp
  have hfirst : parts.first = (t.schema.name, t) :=
    Except.ok.inj (parts.named_first.symm.trans (Store.namedTable_plain hplain hread))
  have hothers : parts.others = [] := by
    have hnamed := parts.named_others
    have hsource : q.source.joins = [] := hjoins
    rw [hsource] at hnamed
    exact (Except.ok.inj hnamed).symm
  have hbare : p.scope.bare = ⟨[(t.schema.name, t.schema)], []⟩ := by
    rw [parts.scope_eq, hfirst, hothers]
    rfl
  -- the rows to delete are tested where no result has a name
  have hsame : test = fun row => p.test.all fun test =>
      session.store.holds p.scope.bare test [row] := by
    have hprepared : session.store.prepareTest p.scope.bare q.criteria = .ok p.test :=
      Store.prepareTest_bare parts.test_eq htells.1
    unfold Store.rowTest at htest
    dsimp only at htest
    rw [← hbare] at htest
    obtain ⟨_, hagain, hfits⟩ := Except.of_bind_ok htest
    rw [hprepared] at hagain
    cases hagain
    split at hfits
    next => cases hfits
    next =>
      cases hfits
      rfl
  have hnone : p.joined = [] := Store.joined_nil parts hjoins
  have hrows := Store.tuples_of_rows (p := { p with scope := p.scope.bare, columns := [] }) hnone
    session.store
  rw [← htells.tuples_bare [], hrows, hsame, parts.first_eq, hfirst]

/-- What a query deletes are the rows of its table that meet its clauses, whatever its limit and
offset, and nothing else changes. What it would have brought back is what limit and offset leave of
these rows in some order: all of them exactly where they leave out none. -/
theorem delete_effect (hplain : IsPlain q.entity.table)
    (hown : session.store.table q.entity.table = .ok t)
    (hread : session.store.readable? none q.entity.table = some t)
    (h : q.delete.exec session = (.ok n, after)) :
    ∃ test, session.store.rowTest t q.criteria = .ok test ∧ n = (t.rows.filter test).length ∧
      after.store = session.store.setTable (t.without test) ∧
      (∀ name, after.store.table? name =
        if Text.sameName q.entity.table name then some (t.without test)
        else session.store.table? name) ∧
      ∀ rs between, q.fetchAll.exec session = (.ok rs, between) →
        ∃ p, session.store.prepare false q.source q.projection = .ok p ∧
          (p.Tells session.store → ∃ (order : List Row) (shown : Row → Record),
            order.Perm (t.rows.filter test) ∧
            rs = (Store.window q.limit q.offset order).map shown ∧
            (∀ name, (∀ load ∈ q.loads, load.relation.name ≠ name) → ∀ row,
              (shown row).get? name = (Store.record p.scope p.columns [row]).get? name) ∧
            ((Store.window q.limit q.offset order).Perm (t.rows.filter test) ↔
              Store.KeepsAll q.limit q.offset n)) := by
  obtain ⟨hjoins, result, hdelete, rfl⟩ := of_delete h
  obtain ⟨own, test, hfound, htest, hafter, rfl⟩ := Store.of_delete hdelete
  rw [hown] at hfound
  cases hfound
  refine ⟨test, htest, rfl, hafter, fun name => ?_, fun rs between hfetch => ?_⟩
  · rw [hafter]
    have hschema : (t.without test).schema = t.schema := rfl
    exact Store.table?_setTable_of (Store.table_eq_ok.mp hown) hschema name
  · obtain ⟨p, tuples, shown, hp, htuples, rfl, hshown⟩ := of_rows (rows_of_fetchAll hfetch)
    refine ⟨p, hp, fun htells => ?_⟩
    obtain ⟨all, hall, rfl⟩ := Store.window_of_selected htuples
    rw [tuples_of_rowTest hplain hread hjoins hp htells htest] at hall
    obtain ⟨order, horder, rfl⟩ := Store.exists_rows hall
    refine ⟨order, fun row => shown [row], horder, ?_,
      fun name hname row => hshown name hname [row], Store.window_perm_iff horder⟩
    rw [Store.map_window, List.map_map]
    rfl

end Query

namespace Shop

def oneOfTwoTeams : Query where
  entity := teams
  limit := some 1

/-- One team is asked for, and both are deleted. -/
theorem limited_delete_takes_both_teams :
    ((oneOfTwoTeams.fetchAll.exec { store := twoTeams }).1.map List.length) = .ok 1 ∧
    (oneOfTwoTeams.delete.exec { store := twoTeams }).1.toOption = some 2 ∧
    ((oneOfTwoTeams.delete.exec { store := twoTeams }).2.store.tables.map Table.rows) = [[]] := by
  decide +kernel

def secondTeam : Query where
  entity := teams
  criteria := [(.and, .compare "name" .eq (.text "b"))]
  limit := some 1

def teamsOfTwo : Table :=
  { schema := teamSchema, rows := [[.int 1, .text "a"], [.int 2, .text "b"]] }

theorem delete_takes_second_team :
    ∃ after rs between, ∃ shown : Row → Record,
      secondTeam.delete.exec { store := twoTeams } = (.ok 1, after) ∧
      after.store.table? "teams" = some { schema := teamSchema, rows := [[.int 1, .text "a"]] } ∧
      secondTeam.fetchAll.exec { store := twoTeams } = (.ok rs, between) ∧
      rs = [shown [.int 2, .text "b"]] := by
  have hdeleted :
      ((secondTeam.delete.exec { store := twoTeams }).1.toOption.any (· == 1)) = true := by
    decide +kernel
  obtain ⟨n, after, hdelete, hone⟩ := Run.exists_of_any hdeleted
  have hfound : (secondTeam.fetchAll.exec { store := twoTeams }).1.toOption.any (fun _ => true) =
      true := by
    decide +kernel
  obtain ⟨rs, between, hfetch, _⟩ := Run.exists_of_any hfound
  have hplain : IsPlain "teams" := by
    decide +kernel
  have htable : twoTeams.table "teams" = .ok teamsOfTwo ∧
      twoTeams.readable? none "teams" = some teamsOfTwo := by
    decide +kernel
  have hrows : ∀ test, twoTeams.rowTest teamsOfTwo secondTeam.criteria = .ok test →
      teamsOfTwo.rows.filter test = [[.int 2, .text "b"]] ∧
      teamsOfTwo.without test = { schema := teamSchema, rows := [[.int 1, .text "a"]] } := by
    decide +kernel
  have htells : ∀ p, twoTeams.prepare false secondTeam.source secondTeam.projection = .ok p →
      p.Tells twoTeams := by
    decide +kernel
  have hteams : Text.sameName secondTeam.entity.table "teams" = true := by
    decide +kernel
  obtain ⟨test, htest, _, _, htables, hbrought⟩ :=
    @Query.delete_effect secondTeam { store := twoTeams } after teamsOfTwo n hplain htable.1 htable.2
      hdelete
  obtain ⟨hgone, hkept⟩ := hrows test htest
  obtain ⟨p, hp, hselected⟩ := hbrought rs between hfetch
  obtain ⟨order, shown, horder, hrs, _⟩ := hselected (htells p hp)
  rw [hgone] at horder
  rw [List.perm_singleton.mp horder] at hrs
  obtain rfl : n = 1 := by simpa using hone
  refine ⟨after, rs, between, shown, hdelete, ?_, hfetch, hrs⟩
  rw [htables "teams", if_pos hteams, hkept]

end Shop

end TableQuery
