import TableQuery.Proofs.ShownColumns
import TableQuery.Repository.Read

namespace TableQuery

open Sql

namespace Identifier

theorem toNat_of_isNameCharacter {c : Char} (h : isNameCharacter c = true) : c.toNat < 128 := by
  have hcases : isNameStart c = true ∨ c.isDigit = true := by
    have halphanum : c.isAlphanum = (c.isAlpha || c.isDigit) := rfl
    simp only [isNameCharacter, isNameStart, halphanum, Bool.or_eq_true] at h ⊢
    rcases h with (h | h) | h
    · exact .inl (.inl h)
    · exact .inr h
    · exact .inl (.inr h)
  rcases hcases with hstart | hdigit
  · have hrange := toNat_of_isNameStart hstart
    omega
  · have hdigits : c.isDigit = (decide (c.val ≥ '0'.val) && decide (c.val ≤ '9'.val)) := rfl
    rw [hdigits, Bool.and_eq_true, decide_eq_true_iff, decide_eq_true_iff] at hdigit
    have hmost : c.toNat ≤ 57 := UInt32.le_iff_toNat_le.mp hdigit.2
    omega

theorem IsName.isNameCharacter {ns : List Char} (h : IsName ns) {c : Char} (hmem : c ∈ ns) :
    isNameCharacter c = true := by
  cases ns with
  | nil => exact h.elim
  | cons d ns =>
    rcases List.mem_cons.mp hmem with rfl | hmem
    · have hstart : isNameStart c = true := h.1
      have halphanum : c.isAlphanum = (c.isAlpha || c.isDigit) := rfl
      simp only [Identifier.isNameCharacter, isNameStart, halphanum, Bool.or_eq_true] at hstart ⊢
      rcases hstart with hstart | hstart
      · exact .inl (.inl hstart)
      · exact .inr hstart
    · exact h.2 c hmem

end Identifier

theorem all_ascii_of_plain {s : String} (h : IsPlain s) : s.toList.all (·.toNat < 128) = true :=
  List.all_eq_true.mpr fun _ hc =>
    decide_eq_true (Identifier.toNat_of_isNameCharacter (h.1.isNameCharacter hc))

theorem plainName_of_plain {s : String} (h : IsPlain s) : Sql.plainName s = true := by
  simp [Sql.plainName, h.2.1, Token.name?]

theorem statementName_plain {s : String} (h : IsPlain s) :
    statementName s = .ok ⟨none, some s, none⟩ := by
  unfold statementName
  rw [Identifier.read?_name h.1]
  simp [all_ascii_of_plain h, plainName_of_plain h]

theorem statementName_qualified {table name : String} (ht : IsPlain table) (hn : IsPlain name) :
    statementName (table ++ "." ++ name) = .ok ⟨some table, some name, none⟩ := by
  have hascii : (table ++ "." ++ name).toList.all (·.toNat < 128) = true := by
    have htext : (table ++ "." ++ name).toList = table.toList ++ '.' :: name.toList := by
      simp
    rw [htext, List.all_append, List.all_cons, all_ascii_of_plain ht, all_ascii_of_plain hn]
    decide
  unfold statementName
  rw [Identifier.read?_qualified ht.1 hn.1]
  simp only [hascii, plainName_of_plain ht, plainName_of_plain hn, Option.all_some,
    Option.all_none, Bool.true_or, Bool.and_self, ↓reduceIte]

/-- A text that names a column alone or behind a table. -/
def Names (written name : String) : Prop :=
  ∃ table, statementName written = .ok ⟨table, some name, none⟩ ∧
    reference? table name = some (.column table name)

/-- An item of a projection that gives its column no new name. -/
def IsItem (written : String) : Prop :=
  written = "*" ∨ ∃ name, Names written name

theorem names_plain {name : String} (h : IsPlain name) : Names name name :=
  ⟨none, statementName_plain h, reference?_plain h⟩

theorem names_qualified {table name : String} (ht : IsPlain table) (hn : IsPlain name) :
    Names (table ++ "." ++ name) name :=
  ⟨some table, statementName_qualified ht hn, reference?_plain ht⟩

/-- A table declares a column under a name that no other cell of its rows has. -/
structure Schema.Declares (s : Schema) (name : String) (k : Nat) : Prop where
  index : s.columnIndex? name = some k
  named : (s.columns[k]?).map Column.name = some name
  only : ∀ i, (s.cells[i]?).map Column.name = some name → i = k

namespace Schema

variable {s : Schema} {name : String} {k : Nat}

theorem declares_iff : s.Declares name k ↔
    s.columnIndex? name = some k ∧ (s.columns[k]?).map Column.name = some name ∧
      ∀ i < s.cells.length, (s.cells[i]?).map Column.name = some name → i = k := by
  constructor
  · exact fun h => ⟨h.index, h.named, fun i _ => h.only i⟩
  · rintro ⟨hindex, hnamed, honly⟩
    refine ⟨hindex, hnamed, fun i hname => ?_⟩
    obtain ⟨column, hcolumn, _⟩ := Option.map_eq_some_iff.mp hname
    exact honly i (List.getElem?_eq_some_iff.mp hcolumn).1 hname

instance : Decidable (s.Declares name k) :=
  decidable_of_iff _ declares_iff.symm

theorem cells_of_columns {i : Nat} {column : Column} (h : s.columns[i]? = some column) :
    s.cells[i]? = some column := by
  unfold cells
  split
  next => exact h
  next => rw [List.getElem?_append_left (List.getElem?_eq_some_iff.mp h).1, h]

theorem Declares.index?_eq (h : s.Declares name k) : s.index? name = some k := by
  simp [index?, h.index]

theorem Declares.cell (h : s.Declares name k) : (s.cells[k]?).map Column.name = some name := by
  obtain ⟨column, hcolumn, hname⟩ := Option.map_eq_some_iff.mp h.named
  rw [cells_of_columns hcolumn, Option.map_some, hname]

end Schema

namespace Store

section

variable {clock : Clock} {known name : String} {s : Schema} {k : Nat}

theorem resultColumns_star :
    resultColumns clock ⟨[(known, s)], []⟩ "*" = .ok (tableColumns 0 s) := by
  have hname : statementName "*" = .ok ⟨none, none, none⟩ :=
    Except.of_toOption (by decide +kernel)
  simp [resultColumns, hname, bind, Except.bind, pure, Except.pure]

theorem mem_tableColumns {column : ResultColumn} (h : column ∈ tableColumns 0 s) :
    ∃ i own, s.columns[i]? = some own ∧ column.name = own.name ∧ column.origin = .cell ⟨0, i⟩ := by
  obtain ⟨i, hi, rfl⟩ := List.mem_mapIdx.mp h
  exact ⟨i, s.columns[i], List.getElem?_eq_getElem hi, rfl, rfl⟩

/-- A name stands for a cell of the table, or for itself where the table has no such cell. It is shown
under the name that is given to it, or else under the one that is declared. -/
theorem resultColumns_column {written : String} {table shown : Option String}
    {columns : List ResultColumn} (hname : statementName written = .ok ⟨table, some name, shown⟩)
    (hcolumn : reference? table name = some (.column table name))
    (h : resultColumns clock ⟨[(known, s)], []⟩ written = .ok columns) :
    (∃ i, s.index? name = some i ∧ columns =
        [⟨shown.getD (((s.cells[i]?).map Column.name).getD name), .cell ⟨0, i⟩, shown.isSome,
          shown.isSome⟩]) ∨
      (s.index? name = none ∧
        ∃ d, columns = [⟨shown.getD name, .literal d, shown.isSome, shown.isSome⟩]) := by
  unfold resultColumns at h
  obtain ⟨i, hi, h⟩ := Except.of_bind_ok h
  rw [hname] at hi
  cases hi
  simp only [hcolumn] at h
  obtain ⟨found, hfound, h⟩ := Except.of_bind_ok h
  have hmissing : s.index? name = none → found = none := by
    intro hindex
    cases table <;> simp_all [Scope.origin, Scope.placesFrom]
  cases table with
  | none =>
    cases hindex : s.index? name with
    | none =>
      rw [hmissing hindex] at h
      cases hword : literalName? name with
      | none => simp [hword] at h
      | some d =>
        simp only [hword] at h
        cases h
        exact .inr ⟨rfl, d, rfl⟩
    | some i =>
      have hcell : found = some (.cell ⟨0, i⟩) := by
        simpa [Scope.origin, Scope.placesFrom, hindex, eq_comm] using hfound
      subst hcell
      cases h
      exact .inl ⟨i, rfl, rfl⟩
  | some table =>
    cases hindex : s.index? name with
    | none =>
      rw [hmissing hindex] at h
      cases h
    | some i =>
      by_cases hhere : Scope.isTable table known s = true
      · have hcell : found = some (.cell ⟨0, i⟩) := by
          simpa [Scope.origin, Scope.placesFrom, hindex, hhere, eq_comm] using hfound
        subst hcell
        cases h
        exact .inl ⟨i, rfl, rfl⟩
      · have hnone : found = none := by
          simpa [Scope.origin, Scope.placesFrom, hhere, eq_comm] using hfound
        subst hnone
        cases h

/-- Without a new name the name is shown as it is declared. -/
theorem resultColumns_named {written : String} {table : Option String}
    {columns : List ResultColumn} (hname : statementName written = .ok ⟨table, some name, none⟩)
    (hcolumn : reference? table name = some (.column table name))
    (h : resultColumns clock ⟨[(known, s)], []⟩ written = .ok columns) :
    (∃ i, s.index? name = some i ∧ columns =
        [⟨((s.cells[i]?).map Column.name).getD name, .cell ⟨0, i⟩, false, false⟩]) ∨
      (s.index? name = none ∧ ∃ d, columns = [⟨name, .literal d, false, false⟩]) :=
  resultColumns_column hname hcolumn h

/-- Among what a star or a name stands for, only the declared column goes by its name. -/
theorem origin_of_declared {written : String} {columns : List ResultColumn}
    (hdeclares : s.Declares name k) (hitem : IsItem written)
    (h : resultColumns clock ⟨[(known, s)], []⟩ written = .ok columns) {column : ResultColumn}
    (hmem : column ∈ columns) (hname : column.name = name) : column.origin = .cell ⟨0, k⟩ := by
  rcases hitem with rfl | ⟨other, table, hwritten, hcolumn⟩
  · rw [resultColumns_star] at h
    cases h
    obtain ⟨i, own, hown, hshown, horigin⟩ := mem_tableColumns hmem
    have hi : i = k := by
      refine hdeclares.only i ?_
      rw [Schema.cells_of_columns hown, Option.map_some, ← hshown, hname]
    rw [horigin, hi]
  · rcases resultColumns_named hwritten hcolumn h with ⟨i, hindex, rfl⟩ | ⟨hindex, d, rfl⟩
    -- the cell may have been named in other letters, but its declared name comes back
    · rw [List.mem_singleton.mp hmem] at hname ⊢
      have hi : i = k := by
        cases hcell : (s.cells[i]?).map Column.name with
        | some shown =>
          rw [hcell] at hname
          exact hdeclares.only i (hcell.trans (congrArg some hname))
        | none =>
          rw [hcell] at hname
          have hother : other = name := hname
          rw [hother, hdeclares.index?_eq] at hindex
          exact (Option.some.inj hindex).symm
      rw [hi]
    · rw [List.mem_singleton.mp hmem] at hname
      have hother : other = name := hname
      rw [hother, hdeclares.index?_eq] at hindex
      cases hindex

/-- A star or its name brings the declared column back under its name. -/
theorem exists_declared {written : String} {columns : List ResultColumn}
    (hdeclares : s.Declares name k) (hitem : written = "*" ∨ Names written name)
    (h : resultColumns clock ⟨[(known, s)], []⟩ written = .ok columns) :
    ∃ column ∈ columns, column.name = name := by
  rcases hitem with rfl | ⟨table, hwritten, hcolumn⟩
  · rw [resultColumns_star] at h
    cases h
    obtain ⟨own, hown, hname⟩ := Option.map_eq_some_iff.mp hdeclares.named
    obtain ⟨hk, rfl⟩ := List.getElem?_eq_some_iff.mp hown
    exact ⟨_, List.mem_mapIdx.mpr ⟨k, hk, rfl⟩, hname⟩
  · rcases resultColumns_named hwritten hcolumn h with ⟨i, hindex, rfl⟩ | ⟨hindex, d, rfl⟩
    · refine ⟨_, List.mem_cons_self, ?_⟩
      rw [hdeclares.index?_eq] at hindex
      cases hindex
      rw [hdeclares.cell]
      rfl
    · rw [hdeclares.index?_eq] at hindex
      cases hindex

end

theorem PreparedBy.showsOwn {store : Store} {source : Source} {columns : List String} {p : Prepared}
    {name : String} {k : Nat} (parts : PreparedBy store source columns p)
    (hjoins : source.joins = []) (hdeclares : p.first.schema.Declares name k)
    (hitems : ∀ written ∈ columns, IsItem written)
    (hshown : ∃ written ∈ columns, written = "*" ∨ Names written name) : p.ShowsOwn name := by
  have hothers : parts.others = [] := by
    have h := parts.named_others
    rw [hjoins] at h
    exact (Except.ok.inj h).symm
  have hcolumns := parts.shown_eq
  rw [hothers] at hcolumns
  obtain ⟨hforth, hback⟩ := Except.of_mapM_ok hcolumns
  rw [parts.first_eq] at hdeclares
  have horigin : ∀ column ∈ p.columns, column.name = name → column.origin = .cell ⟨0, k⟩ := by
    intro column hmem hname
    rw [parts.columns_eq] at hmem
    obtain ⟨found, hfound, hmem⟩ := List.mem_flatten.mp hmem
    obtain ⟨written, hwritten, h⟩ := hback found hfound
    exact origin_of_declared hdeclares (hitems written hwritten) h hmem hname
  have hexists : ∃ column ∈ p.columns, column.name = name := by
    obtain ⟨written, hwritten, hitem⟩ := hshown
    obtain ⟨found, hfound, h⟩ := hforth written hwritten
    obtain ⟨column, hmem, hname⟩ := exists_declared hdeclares hitem h
    rw [parts.columns_eq]
    exact ⟨column, List.mem_flatten.mpr ⟨found, hfound, hmem⟩, hname⟩
  have hplace : p.ownPlace? name = some ⟨0, k⟩ := by
    rw [Prepared.ownPlace?, parts.first_eq, hdeclares.index?_eq, Option.map_some]
  refine ⟨by rw [hplace]; rfl, ?_⟩
  cases hfind : p.shown? name with
  | none =>
    obtain ⟨column, hmem, hname⟩ := hexists
    have hnone := List.find?_eq_none.mp hfind column (List.mem_reverse.mpr hmem)
    exact absurd hname (by simpa using hnone)
  | some column =>
    have hmem := List.mem_reverse.mp (List.mem_of_find?_eq_some hfind)
    have hname := List.find?_some (show p.columns.reverse.find? _ = some column from hfind)
    rw [hplace, Option.map_some, Option.map_some,
      horigin column hmem (of_decide_eq_true hname)]

end Store

namespace Query

/-- A projection with the keys of loads that it does not bring back. -/
def withKeys (table : String) (loads : List EagerLoad) (columns : List String) : List String :=
  loads.foldl (fun columns load =>
    let key := load.relation.parentKey
    if columns.any (resultName · = key) then columns else columns ++ [table ++ "." ++ key]) columns

theorem withKeys_cons (table : String) (load : EagerLoad) (loads : List EagerLoad)
    (columns : List String) :
    withKeys table (load :: loads) columns = withKeys table loads
      (if columns.any (resultName · = load.relation.parentKey) then columns
        else columns ++ [table ++ "." ++ load.relation.parentKey]) :=
  rfl

section

variable {table : String} {loads : List EagerLoad} {columns : List String}

theorem of_mem_withKeys {column : String} (h : column ∈ withKeys table loads columns) :
    column ∈ columns ∨ ∃ load ∈ loads, column = table ++ "." ++ load.relation.parentKey := by
  induction loads generalizing columns with
  | nil => exact .inl h
  | cons load loads ih =>
    rw [withKeys_cons] at h
    rcases ih h with hown | ⟨other, hother, hcolumn⟩
    · split at hown
      next => exact .inl hown
      next =>
        rcases List.mem_append.mp hown with hown | hadded
        · exact .inl hown
        · exact .inr ⟨load, List.mem_cons_self, List.mem_singleton.mp hadded⟩
    · exact .inr ⟨other, List.mem_cons_of_mem _ hother, hcolumn⟩

end

variable {q : Query}

/-- A projection holds a star, columns of the query and parent keys of its loads. -/
theorem of_mem_projection {column : String} (h : column ∈ q.projection) :
    column = "*" ∨ column ∈ q.columns ∨
      ∃ load ∈ q.loads, column = q.entity.table ++ "." ++ load.relation.parentKey := by
  unfold projection at h
  dsimp only at h
  split at h
  next => exact .inl (List.mem_singleton.mp h)
  next =>
    split at h
    next => exact .inr (.inl h)
    next => exact .inr (of_mem_withKeys h)

end Query

end TableQuery
