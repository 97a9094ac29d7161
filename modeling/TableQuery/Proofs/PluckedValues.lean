import Mathlib.Data.List.Nodup
import TableQuery.Proofs.InsertedRows
import TableQuery.Proofs.ListedRows
import TableQuery.Proofs.SortedRows
import TableQuery.Proofs.TableRows

namespace TableQuery

open Sql

namespace Schema

/-- A text names a cell of the rows of a table, by its column alone or behind the table. The cell is
shown under the name that the text gives to it, or else under the declared one. -/
def ShownAs (s : Schema) (written : String) (i : Nat) (shown : String) : Prop :=
  ∃ table name given, Identifier.read? written = some ⟨table, some name, given⟩ ∧
    reference? table name = some (.column table name) ∧ s.index? name = some i ∧
    given.getD (((s.cells[i]?).map Column.name).getD name) = shown

variable {s : Schema} {written shown : String} {i k : Nat}

theorem ShownAs.resultColumns {clock : Clock} {known : String} {columns : List Store.ResultColumn}
    (hattr : s.ShownAs written i shown)
    (h : Store.resultColumns clock ⟨[(known, s)], []⟩ written = .ok columns) :
    ∃ given, columns = [⟨shown, .cell ⟨0, i⟩, given, given⟩] ∧
      (given = true → written ≠ shown) := by
  obtain ⟨table, name, given, hread, hcolumn, hindex, rfl⟩ := hattr
  have hname : statementName written = .ok ⟨table, some name, given⟩ := by
    obtain ⟨found, hfound, _⟩ := Except.of_bind_ok h
    have hsame := (of_statementName hfound).symm.trans hread
    rw [hfound, Option.some.inj hsame]
  rcases Store.resultColumns_column hname hcolumn h with ⟨j, hj, rfl⟩ | ⟨hnone, _⟩
  · cases hindex.symm.trans hj
    refine ⟨given.isSome, rfl, fun hgiven => ?_⟩
    obtain ⟨other, rfl⟩ := Option.isSome_iff_exists.mp hgiven
    exact Identifier.ne_of_shown hread rfl
  · rw [hnone] at hindex
    cases hindex

theorem ShownAs.of_declares (hattr : s.ShownAs written i shown) (hplain : IsPlain written)
    (h : s.Declares written k) : shown = written ∧ i = k := by
  obtain ⟨table, name, given, hread, _, hindex, rfl⟩ := hattr
  rw [Identifier.read?_name hplain.1] at hread
  cases hread
  cases hindex.symm.trans h.index?_eq
  rw [h.cell]
  exact ⟨rfl, rfl⟩

end Schema

/-- The text of a key as a map has it. -/
def Row.keyText (k : Nat) (row : Row) : String :=
  (Value.ofJson (row.cell k).toJson).display

namespace Table

variable {t : Table} {k i : Nat}

/-- The map has an entry for each row, in the order of the keys, with the value of the row. -/
def Plucks (t : Table) (k i : Nat) (m : OrderedMap Json) : Prop :=
  ∃ sorted, Row.Sorts k t.rows sorted ∧
    m.entries = sorted.map fun row => (row.keyText k, (row.cell i).toJson)

/-- No two rows have the same key, none is without one, and all keys are integers or all texts. -/
structure KeyedApart (t : Table) (k : Nat) : Prop where
  distinct : (t.rows.map fun row => row.cell k).Nodup
  present : ∀ row ∈ t.rows, row.cell k ≠ .null
  alike : ∀ a ∈ t.rows, ∀ b ∈ t.rows, Cell.Alike ⟨none, a.cell k⟩ ⟨none, b.cell k⟩

instance (t : Table) (k : Nat) : Decidable (t.KeyedApart k) :=
  decidable_of_iff (_ ∧ _ ∧ _)
    ⟨fun h => ⟨h.1, h.2.1, h.2.2⟩, fun h => ⟨h.distinct, h.present, h.alike⟩⟩

theorem KeyedApart.nodup (h : t.KeyedApart k) : (t.rows.map (Row.keyText k)).Nodup := by
  refine List.Nodup.map_on (fun a ha b hb htext => ?_) (List.Nodup.of_map _ h.distinct)
  have hcell := ((h.alike a ha b hb).display_iff (h.present a ha) (h.present b hb)).mp htext
  exact List.inj_on_of_nodup_map h.distinct ha hb hcell

theorem Plucks.nodup {m : OrderedMap Json} (h : t.Plucks k i m) :
    (t.rows.map (Row.keyText k)).Nodup := by
  obtain ⟨sorted, hsorted, hentries⟩ := h
  have hkeys := m.nodup
  rw [hentries, List.map_map] at hkeys
  exact (hsorted.perm.map (Row.keyText k)).nodup_iff.mp hkeys

theorem Plucks.of_null {m : OrderedMap Json} (h : t.Plucks k i m)
    (hnull : ∀ entry ∈ m.entries, entry.2 = .null) :
    ∀ row ∈ t.rows, (row.cell i).toJson = .null := by
  obtain ⟨sorted, hsorted, hentries⟩ := h
  intro row hrow
  refine hnull (row.keyText k, (row.cell i).toJson) ?_
  rw [hentries]
  exact List.mem_map_of_mem (hsorted.perm.mem_iff.mpr hrow)

theorem plucks_ofList {sorted : List Row} {value : Row → Json} (hsorted : Row.Sorts k t.rows sorted)
    (hnodup : (t.rows.map (Row.keyText k)).Nodup)
    (hvalue : ∀ row ∈ t.rows, value row = (row.cell i).toJson) :
    t.Plucks k i (.ofList (sorted.map fun row => (row.keyText k, value row))) := by
  refine ⟨sorted, hsorted, ?_⟩
  rw [OrderedMap.entries_ofList]
  · refine List.map_congr_left fun row hrow => ?_
    rw [hvalue row (hsorted.perm.mem_iff.mp hrow)]
  · rw [List.map_map]
    exact (hsorted.perm.map (Row.keyText k)).nodup_iff.mpr hnodup

end Table

namespace Store

section

variable {store : Store} {t : Table} {table key attr shown : String} {k i : Nat} {p : Prepared}

/-- The result of the key of a table and one more of its cells. -/
def pairColumns (key : String) (k : Nat) (shown : String) (i : Nat) (given : Bool) :
    List ResultColumn :=
  [⟨key, .cell ⟨0, k⟩, false, false⟩, ⟨shown, .cell ⟨0, i⟩, given, given⟩]

theorem of_prepare_pair (htable : IsPlain table) (hread : store.readable? none table = some t)
    (hkey : IsPlain key) (hdeclares : t.schema.Declares key k)
    (hattr : t.schema.ShownAs attr i shown)
    (hp : store.prepare false ⟨table, [], []⟩ [key, attr] = .ok p) :
    ∃ names given, (given = true → attr ≠ shown) ∧
      p = ⟨⟨[(t.schema.name, t.schema)], names⟩, pairColumns key k shown i given, t, [], none⟩ := by
  obtain ⟨parts⟩ := preparedBy_of_prepare hp
  have hfirst : parts.first = (t.schema.name, t) :=
    Except.ok.inj (parts.named_first.symm.trans (namedTable_plain htable hread))
  have hothers : parts.others = [] := (Except.ok.inj parts.named_others).symm
  have hshown := parts.shown_eq
  rw [hfirst, hothers, List.mapM_cons, List.mapM_cons, List.mapM_nil] at hshown
  obtain ⟨own, hown, hshown⟩ := Except.of_bind_ok hshown
  obtain ⟨rest, hrest, hshown⟩ := Except.of_bind_ok hshown
  obtain ⟨other, hother, hrest⟩ := Except.of_bind_ok hrest
  cases hrest
  have hpair := (Except.ok.inj hshown).symm
  obtain ⟨given, rfl, hgiven⟩ := hattr.resultColumns hother
  have hkeyed : t.schema.ShownAs key k key :=
    ⟨none, key, none, Identifier.read?_name hkey.1, reference?_plain hkey, hdeclares.index?_eq, by
      rw [hdeclares.cell]
      rfl⟩
  obtain ⟨keyGiven, rfl, hkeyGiven⟩ := hkeyed.resultColumns hown
  -- a name that is given differs from the text that gives it, and the key is shown as it is written
  have hnot : keyGiven = false := by
    cases keyGiven with
    | false => rfl
    | true => exact absurd rfl (hkeyGiven rfl)
  subst hnot
  have htest : p.test = none := (Except.ok.inj parts.test_eq).symm
  have hcolumns : p.columns = pairColumns key k shown i given := by
    rw [parts.columns_eq, hpair]
    rfl
  refine ⟨p.scope.shown, given, hgiven, ?_⟩
  have hscope : p.scope = ⟨[(t.schema.name, t.schema)], p.scope.shown⟩ := by
    rw [parts.scope_eq, hfirst, hothers]
    rfl
  have hrows : p.first = t := by
    rw [parts.first_eq, hfirst]
  rw [← hcolumns, ← hscope, ← htest, ← hrows, ← joined_nil parts rfl]

/-- The key comes back under its name if no other cell takes the name. -/
theorem value_pair {names : List (String × Origin)} {given : Bool} (hfree : shown = key → i = k)
    (row : Row) :
    ((record ⟨[(t.schema.name, t.schema)], names⟩ (pairColumns key k shown i given) [row]).value
      key).display = row.keyText k := by
  have hvalue := Prepared.value_record
    ⟨⟨[(t.schema.name, t.schema)], names⟩, pairColumns key k shown i given, t, [], none⟩ key [row]
  rw [hvalue]
  by_cases hname : shown = key
  · obtain rfl := hfree hname
    subst hname
    simp [Prepared.shownCell, Prepared.shown?, pairColumns, Level.cell, Cell.value, Row.keyText]
  · simp [Prepared.shownCell, Prepared.shown?, pairColumns, Level.cell, Cell.value, Row.keyText,
      hname]

/-- The other cell is found under the name that it is shown under. -/
theorem get?_pair {names : List (String × Origin)} {given : Bool} (hkey : key = attr → shown = attr)
    (row : Row) :
    (record ⟨[(t.schema.name, t.schema)], names⟩ (pairColumns key k shown i given) [row]).get?
      attr = if attr = shown then some (row.cell i).toJson else none := by
  have hget := Prepared.get?_record
    ⟨⟨[(t.schema.name, t.schema)], names⟩, pairColumns key k shown i given, t, [], none⟩ attr [row]
  rw [hget]
  by_cases hname : attr = shown
  · simp [Prepared.shownCell, Prepared.shown?, pairColumns, Level.cell, hname]
  · have hother : key ≠ attr := fun h => hname (hkey h).symm
    simp [Prepared.shown?, pairColumns, hname, Ne.symm hname, hother]

end

end Store

section

variable {e : Entity} {attr shown : String} {t : Table} {k i : Nat} {session after : Session}
  {m : OrderedMap Json}

/-- The query for the keys and one more column. -/
def Entity.pluckQuery (e : Entity) (attr : String) : Query where
  entity := e
  columns := [e.primaryKey, attr]
  order := [⟨e.primaryKey, .asc⟩]

def Entity.pluckEntry (e : Entity) (attr : String) (row : Record) : String × Json :=
  ((row.value e.primaryKey).display, (row.get? attr).getD .null)

theorem Entity.of_pluck (h : (e.pluck attr).exec session = (.ok m, after)) :
    ∃ found, session.store.select (e.pluckQuery attr).toSelect = .ok found ∧
      m = .ofList (found.map (e.pluckEntry attr)) := by
  obtain ⟨q, between, hq, h⟩ := Run.of_bind_ok h
  obtain ⟨hcalls, hstore⟩ := Query.of_runCalls hq
  simp only [List.foldlM_cons, List.foldlM_nil] at hcalls
  obtain ⟨selected, hselected, hcalls⟩ := Except.of_bind_ok hcalls
  obtain ⟨ordered, hordered, hcalls⟩ := Except.of_bind_ok hcalls
  cases hcalls
  obtain ⟨rfl, _⟩ := Query.of_select hselected
  obtain ⟨rfl, _⟩ := Query.of_orderBy hordered
  obtain ⟨found, last, hfound, hmap⟩ := Run.of_bind_ok h
  cases hmap
  have hrows := Query.rows_of_fetchAll hfound
  rw [Query.rows_of_no_loads rfl, hstore] at hrows
  exact ⟨found, hrows, rfl⟩

section

variable (htable : IsPlain e.table) (hread : session.store.readable? none e.table = some t)
  (hkey : IsPlain e.primaryKey) (hdeclares : t.schema.Declares e.primaryKey k)
  (hattr : t.schema.ShownAs attr i shown) (h : (e.pluck attr).exec session = (.ok m, after))

include htable hread hkey hdeclares hattr h

/-- The rows of the table are read in the order of the sort key, with the key and the column. -/
theorem Entity.pluck_rows :
    ∃ names given cell, (given = true → attr ≠ shown) ∧
      Store.orderCell session.store ⟨[(t.schema.name, t.schema)], names⟩
        (Store.pairColumns e.primaryKey k shown i given) ⟨e.primaryKey, .asc⟩ = .ok cell ∧
      m = .ofList ((sortedBy (Store.tupleLe [(.asc, cell)]) (t.rows.map fun row => [row])).map
        fun tuple => e.pluckEntry attr (Store.record ⟨[(t.schema.name, t.schema)], names⟩
          (Store.pairColumns e.primaryKey k shown i given) tuple)) := by
  obtain ⟨found, hfound, rfl⟩ := Entity.of_pluck h
  obtain ⟨p, tuples, hp, htuples, rfl⟩ := Store.of_select hfound
  have hprojection : (e.pluckQuery attr).projection = [e.primaryKey, attr] := by
    unfold Query.projection
    dsimp only
    split
    next hempty => cases hempty
    next => split <;> rfl
  have hprepared : session.store.prepare false ⟨e.table, [], []⟩ [e.primaryKey, attr] = .ok p := by
    rw [← hprojection]
    exact hp
  obtain ⟨names, given, hgiven, rfl⟩ :=
    Store.of_prepare_pair htable hread hkey hdeclares hattr hprepared
  obtain ⟨cell, hcell, rfl⟩ := Store.sorted_of_selected rfl rfl rfl htuples
  have hrows := Store.tuples_of_rows (p := ⟨⟨[(t.schema.name, t.schema)], names⟩,
    Store.pairColumns e.primaryKey k shown i given, t, [], none⟩) rfl session.store
  simp only [Option.all_none, List.filter_true] at hrows
  refine ⟨names, given, cell, hgiven, hcell, ?_⟩
  rw [hrows, List.map_map]
  rfl

/-- Under a name that the column is not shown under nothing is plucked but nulls. -/
theorem Entity.pluck_null (hname : attr ≠ shown) :
    ∀ entry ∈ m.entries, entry.2 = .null := by
  obtain ⟨names, given, cell, _, _, rfl⟩ := pluck_rows htable hread hkey hdeclares hattr h
  intro entry hentry
  have hmem := OrderedMap.mem_of_mem_ofList hentry
  rw [sortedBy_map, List.map_map] at hmem
  obtain ⟨row, _, rfl⟩ := List.mem_map.mp hmem
  have hown : e.primaryKey = attr → shown = attr := by
    rintro rfl
    exact (hattr.of_declares hkey hdeclares).1
  simp only [Function.comp_apply, pluckEntry, Store.get?_pair hown, if_neg hname, Option.getD_none]

/-- The rows are plucked in the order of their keys, with the values of the column if that is shown
as it is asked for, unless it is given a name of the key. -/
theorem Entity.pluck_eq
    (hfree : Text.sameName shown e.primaryKey = true → attr = shown ∨ i = k) :
    ∃ sorted, Row.Sorts k t.rows sorted ∧ m = .ofList (sorted.map fun row =>
      (row.keyText k, if attr = shown then (row.cell i).toJson else .null)) := by
  obtain ⟨names, given, cell, hgiven, hcell, rfl⟩ := pluck_rows htable hread hkey hdeclares hattr h
  have hcells : ∀ row : Row, cell [row] = row.cell k := by
    refine Store.orderCell_own hkey hdeclares.index?_eq (fun column hmem hnamed hsame => ?_) hcell
    simp only [Store.pairColumns, List.mem_cons, List.not_mem_nil, or_false] at hmem
    rcases hmem with rfl | rfl
    · cases hnamed
    · rw [(hfree hsame).resolve_left (hgiven hnamed)]
  have hown : e.primaryKey = attr → shown = attr ∧ i = k := by
    rintro rfl
    exact hattr.of_declares hkey hdeclares
  -- what comes back under the name of the key is the key, though the column may be that
  have htaken : shown = e.primaryKey → i = k := by
    rintro rfl
    rcases hfree (Text.sameName_refl _) with hwritten | hi
    · exact (hown hwritten.symm).2
    · exact hi
  obtain ⟨sorted, hsorted, htuples⟩ := Store.sortedBy_rows hcells t.rows
  refine ⟨sorted, hsorted, ?_⟩
  rw [htuples, List.map_map]
  refine congrArg OrderedMap.ofList (List.map_congr_left fun row _ => ?_)
  simp only [Function.comp_apply, pluckEntry, Store.value_pair htaken,
    Store.get?_pair fun hname => (hown hname).1]
  split <;> rfl

end

/-- The values of a column are plucked by key exactly where the column is asked for by the name that
it is shown under and the keys have different texts. Behind the table, in other letters or under a
new name there are nulls instead, which are its values only where it has no others. -/
theorem Entity.pluck_gives_values_unless_renamed (htable : IsPlain e.table)
    (hread : session.store.readable? none e.table = some t) (hkey : IsPlain e.primaryKey)
    (hdeclares : t.schema.Declares e.primaryKey k) (hattr : t.schema.ShownAs attr i shown)
    (h : (e.pluck attr).exec session = (.ok m, after)) :
    (attr = shown → (t.Plucks k i m ↔ (t.rows.map (Row.keyText k)).Nodup)) ∧
    (attr ≠ shown → (∀ entry ∈ m.entries, entry.2 = .null) ∧
      ((Text.sameName shown e.primaryKey = true → i = k) →
        (t.Plucks k i m ↔ (t.rows.map (Row.keyText k)).Nodup ∧
          ∀ row ∈ t.rows, (row.cell i).toJson = .null))) ∧
    (t.KeyedApart k → (t.rows.map (Row.keyText k)).Nodup) := by
  refine ⟨fun hname => ⟨Table.Plucks.nodup, fun hnodup => ?_⟩, fun hname => ?_,
    Table.KeyedApart.nodup⟩
  · obtain ⟨sorted, hsorted, rfl⟩ :=
      pluck_eq htable hread hkey hdeclares hattr h fun _ => .inl hname
    exact Table.plucks_ofList hsorted hnodup fun row _ => if_pos hname
  · have hnull := pluck_null htable hread hkey hdeclares hattr h hname
    refine ⟨hnull, fun hfree => ⟨fun hplucks => ⟨hplucks.nodup, hplucks.of_null hnull⟩, ?_⟩⟩
    rintro ⟨hnodup, hvalues⟩
    obtain ⟨sorted, hsorted, rfl⟩ :=
      pluck_eq htable hread hkey hdeclares hattr h fun hsame => .inr (hfree hsame)
    exact Table.plucks_ofList hsorted hnodup fun row hrow => by rw [if_neg hname, hvalues row hrow]

end

namespace Shop

def storedTeams : Table where
  schema := teamSchema
  rows := [[.int 1, .text "a"], [.int 2, .text "b"]]

/-- The names of two teams by their keys, as they are stored. -/
theorem pluck_gives_team_names :
    ∃ m after, (teams.pluck "name").exec { store := twoTeams } = (.ok m, after) ∧
      storedTeams.Plucks 0 1 m ∧
      m.entries.map (fun entry => (entry.1, Value.ofJson entry.2)) =
        [("1", .text "a"), ("2", .text "b")] := by
  have hplucked : ((teams.pluck "name").exec { store := twoTeams }).1.toOption.any (fun m =>
      m.entries.map (fun entry => (entry.1, Value.ofJson entry.2)) =
        [("1", .text "a"), ("2", .text "b")]) = true := by
    decide +kernel
  obtain ⟨m, after, h, hentries⟩ := Run.exists_of_any hplucked
  have hdeclares : storedTeams.schema.Declares teams.primaryKey 0 := by
    decide
  have hattr : storedTeams.schema.ShownAs "name" 1 "name" :=
    ⟨none, "name", none, by decide +kernel, by rfl, by decide +kernel, by decide +kernel⟩
  have hkeys : storedTeams.KeyedApart 0 := by
    decide
  have hplucks := Entity.pluck_gives_values_unless_renamed plain_teams.table (by decide +kernel)
    plain_teams.key hdeclares hattr h
  exact ⟨m, after, h, (hplucks.1 rfl).mpr (hplucks.2.2 hkeys), of_decide_eq_true hentries⟩

/-- What is plucked from two teams, as values. -/
def pluckedTeams (attr : String) : Option (List (String × Value)) :=
  ((teams.pluck attr).exec { store := twoTeams }).1.toOption.map fun m =>
    m.entries.map fun entry => (entry.1, Value.ofJson entry.2)

/-- Behind the table, under a new name or in other letters the name of a team is lost, and under the
name of the key it takes the place of the key. -/
theorem pluck_loses_renamed_column :
    pluckedTeams "name" = some [("1", .text "a"), ("2", .text "b")] ∧
    pluckedTeams "teams.name" = some [("1", .null), ("2", .null)] ∧
    pluckedTeams "name as n" = some [("1", .null), ("2", .null)] ∧
    pluckedTeams "Name" = some [("1", .null), ("2", .null)] ∧
    pluckedTeams "name as id" = some [("a", .null), ("b", .null)] := by
  decide +kernel

end Shop

end TableQuery
