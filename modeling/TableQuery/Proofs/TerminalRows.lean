import TableQuery.Proofs.ListedRows

namespace TableQuery

open Sql

namespace Query

/-- The query without limit and offset. -/
def whole (q : Query) : Query :=
  { q with limit := none, offset := none }

theorem exec_first (q : Query) (session : Session) :
    ∃ events, q.first.exec session =
      (((rows { q with limit := some 1 } session.store).map List.head?).mapError .storage,
        { session with events := events }) := by
  obtain ⟨events, hexec⟩ := exec_fetchAll { q with limit := some 1 } session
  refine ⟨events, ?_⟩
  unfold first
  rw [Run.exec_bind, hexec]
  cases rows { q with limit := some 1 } session.store <;> rfl

theorem exec_count (q : Query) (session : Session) :
    ∃ events, q.count.exec session =
      ((session.store.count q.source).mapError .storage, { session with events := events }) := by
  unfold count
  rw [Run.exec_bind, Run.exec_emit]
  exact ⟨_, Run.exec_read _ _⟩

theorem exec_anyRow (q : Query) (session : Session) :
    ∃ events, q.anyRow.exec session =
      ((session.store.anyRow q.source).mapError .storage, { session with events := events }) := by
  unfold anyRow
  rw [Run.exec_bind, Run.exec_emit]
  exact ⟨_, Run.exec_read _ _⟩

section

variable {q : Query} {session between : Session} {full : List Record}

/-- The count of a query is that of its rows without limit and offset. -/
theorem count_whole {store : Store} {p : Store.Prepared} (h : q.whole.rows store = .ok full)
    (hp : store.prepare false q.source q.projection = .ok p) (htells : p.Tells store) :
    store.count q.source = .ok full.length := by
  refine count_rows (q := q.whole) rfl rfl (fun p' hp' => ?_) h
  have hsame : Except.ok p = Except.ok p' := hp.symm.trans hp'
  exact Except.ok.inj hsame ▸ htells

/-- A query is counted, and asked for any row, as a whole. -/
theorem exec_counts {p : Store.Prepared} (h : q.whole.rows session.store = .ok full)
    (hp : session.store.prepare false q.source q.projection = .ok p)
    (htells : p.Tells session.store) :
    (∃ events, q.count.exec session = (.ok full.length, { session with events := events })) ∧
    ∃ events, q.anyRow.exec session =
      (if Store.sourceFits true p.test p.joined then .ok !full.isEmpty
        else .error (.storage .statement), { session with events := events }) := by
  have hcount := count_whole h hp htells
  have htuples : (p.tuples session.store).length = full.length := by
    rw [Store.count_eq hp htells] at hcount
    exact Except.ok.inj hcount
  have hempty : (p.tuples session.store).isEmpty = full.isEmpty := by
    rw [Bool.eq_iff_iff, List.isEmpty_iff_length_eq_zero, List.isEmpty_iff_length_eq_zero, htuples]
  obtain ⟨counted, hcounted⟩ := q.exec_count session
  obtain ⟨asked, hasked⟩ := q.exec_anyRow session
  refine ⟨⟨counted, by rw [hcounted, hcount]; rfl⟩, asked, ?_⟩
  rw [hasked, Store.anyRow_eq hp htells, hempty]
  split <;> rfl

/-- The terminal operations of a query agree with the list of all its rows: it is counted and asked
for any row whatever its limit and offset, if no test asks for a result by its name, and it brings
back what limit and offset leave of the list, if the keys of its loads tell related rows apart as
the rows themselves do. -/
theorem terminals_agree (hplain : ∀ load ∈ q.loads, IsPlainColumn load.relation.relatedKey)
    (h : q.whole.fetchAll.exec session = (.ok full, between)) :
    (∃ p, session.store.prepare false q.source q.projection = .ok p ∧ (p.Tells session.store →
      (∃ events, q.count.exec session = (.ok full.length, { session with events := events })) ∧
      ∃ events, q.anyRow.exec session =
        (if Store.sourceFits true p.test p.joined then .ok !full.isEmpty
          else .error (.storage .statement), { session with events := events }))) ∧
    ∃ found, session.store.select q.whole.toSelect = .ok found ∧
      (EagerLoad.AllTell session.store q.loads found →
        (∃ events, q.fetchAll.exec session =
          (.ok (Store.window q.limit q.offset full), { session with events := events })) ∧
        ∃ events, q.first.exec session =
          (.ok (full.drop (q.offset.getD 0).toNat).head?, { session with events := events })) := by
  have hrows := rows_of_fetchAll h
  obtain ⟨found, hfound, _⟩ := Except.of_bind_ok hrows
  obtain ⟨p, _, hp, _, _⟩ := Store.of_select hfound
  refine ⟨⟨p, hp, exec_counts hrows hp⟩, found, hfound, fun htell => ?_⟩
  have hwindow : ∀ limit, rows { q with limit := limit } session.store =
      .ok (Store.window limit q.offset full) := by
    refine fun limit => window_rows (q := q.whole) limit q.offset rfl rfl hplain
      (fun found' hfound' => ?_) hrows
    exact Except.ok.inj (hfound.symm.trans hfound') ▸ htell
  refine ⟨exec_fetchAll_of_rows (hwindow q.limit), ?_⟩
  obtain ⟨events, hfirst⟩ := exec_first q session
  rw [hwindow (some 1), Except.map, Except.mapError] at hfirst
  have hhead : (Store.window (some 1) q.offset full).head? =
      (full.drop (q.offset.getD 0).toNat).head? := by
    simp [Store.window, List.head?_take]
  exact ⟨events, by rw [hfirst, hhead]⟩

end

end Query

namespace Shop

def ownedAssets : Query where
  entity := assets
  columns := ["name"]
  loads := [⟨.belongsTo "owner" "customers" "owner_id" "id", ["name"]⟩]

/-- Which records have null for their owner. -/
def ownerless (rs : List Record) : List Bool :=
  rs.map fun row => row.contains "owner" && row.value "owner" = .null

/-- The second asset has an owner in the list of all, and none where the first is skipped. -/
theorem skipped_asset_takes_owner_away :
    ((ownedAssets.fetchAll.exec { store := likeOwners }).1.map ownerless) =
      .ok [false, false] ∧
    (((Query.fetchAll { ownedAssets with limit := some 1, offset := some 1 }).exec
      { store := likeOwners }).1.map ownerless) = .ok [true] ∧
    (((Query.first { ownedAssets with offset := some 1 }).exec
      { store := likeOwners }).1.map fun found => ownerless found.toList) = .ok [true] := by
  decide +kernel

/-- The name of a result hides a literal from the test, and no result is named where rows are
counted. -/
def namedTrue : Query where
  entity := teams
  columns := ["name as true"]
  criteria := [(.and, .compare "true" .eq (.text "a"))]

theorem count_misses_team_named_true :
    ((namedTrue.fetchAll.exec { store := oneTeam }).1.map List.length) = .ok 1 ∧
    (namedTrue.count.exec { store := oneTeam }).1.toOption = some 0 ∧
    (namedTrue.anyRow.exec { store := oneTeam }).1.toOption = some false := by
  decide +kernel

def secondOfThree : Query where
  entity := customers
  columns := ["name as shown"]
  criteria := [(.and, .compare "status" .eq (.int 1))]
  order := [⟨"name", .desc⟩]
  loads := [⟨.hasMany "orders" "orders" "customer_id" "id", ["total"]⟩]
  limit := some 1
  offset := some 1

theorem terminals_agree_on_three_customers :
    ∃ full after,
      secondOfThree.whole.fetchAll.exec { store := threeCustomers } = (.ok full, after) ∧
      full.length = 3 ∧
      (secondOfThree.count.exec { store := threeCustomers }).1.toOption = some 3 ∧
      (secondOfThree.anyRow.exec { store := threeCustomers }).1.toOption = some true ∧
      (secondOfThree.fetchAll.exec { store := threeCustomers }).1.toOption =
        some ((full.drop 1).take 1) ∧
      (secondOfThree.first.exec { store := threeCustomers }).1.toOption =
        some (full.drop 1).head? := by
  have hread : ((secondOfThree.whole.fetchAll.exec { store := threeCustomers }).1.toOption.any
      fun full => full.length == 3) = true := by
    decide +kernel
  obtain ⟨full, after, hfull, hlength⟩ := Run.exists_of_any hread
  have hplain : ∀ load ∈ secondOfThree.loads, IsPlainColumn load.relation.relatedKey := by
    have hkey : IsPlain "customer_id" := by
      decide +kernel
    intro load hmem
    rw [List.mem_singleton.mp hmem]
    exact .inl hkey
  have htells : ∀ p, threeCustomers.prepare false secondOfThree.source secondOfThree.projection =
      .ok p → p.Tells threeCustomers ∧ Store.sourceFits true p.test p.joined = true := by
    decide +kernel
  have hkeys : ∀ found, threeCustomers.select secondOfThree.whole.toSelect = .ok found →
      EagerLoad.AllTell threeCustomers secondOfThree.loads found := by
    decide +kernel
  obtain ⟨⟨p, hp, hwhole⟩, found, hfound, hpart⟩ := Query.terminals_agree hplain hfull
  obtain ⟨hnames, hfits⟩ := htells p hp
  obtain ⟨⟨_, hcount⟩, _, hany⟩ := hwhole hnames
  obtain ⟨⟨_, hfetch⟩, _, hfirst⟩ := hpart (hkeys found hfound)
  have hthree : full.length = 3 := by simpa using hlength
  have hsome : full.isEmpty = false := by
    cases full with
    | nil => cases hthree
    | cons row full => rfl
  rw [if_pos hfits, hsome] at hany
  refine ⟨full, after, hfull, hthree, ?_, ?_, ?_, ?_⟩
  · rw [hcount, hthree]
    rfl
  · rw [hany]
    rfl
  · rw [hfetch]
    rfl
  · rw [hfirst]
    rfl

end Shop

end TableQuery
