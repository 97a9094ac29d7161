import TableQuery.Proofs.AttachedRows
import TableQuery.Proofs.KeptValues
import TableQuery.Proofs.LoadedParts
import TableQuery.Proofs.PlainProjection
import TableQuery.Shop

namespace TableQuery

open Sql

/-- The texts of the statements that a session has run. -/
def Session.statements (session : Session) : List String :=
  session.events.filterMap fun event =>
    match event with
    | .statement text => some text
    | _ => none

/-- A cell is null or an integer as a database keeps it. -/
def Datum.Counts (d : Datum) : Prop :=
  match d with
  | .null => True
  | .int n => isInt64 n = true
  | _ => False

instance Datum.decidableCounts : DecidablePred Datum.Counts
  | .null => isTrue trivial
  | .int n => inferInstanceAs (Decidable (isInt64 n = true))
  | .real _ | .text _ | .garbled _ | .blob _ => isFalse id

theorem Datum.Counts.cases {d : Datum} (h : d.Counts) :
    d = .null ∨ ∃ n, d = .int n ∧ isInt64 n = true := by
  cases d with
  | null => exact .inl rfl
  | int n => exact .inr ⟨n, rfl, h⟩
  | _ => exact h.elim

/-- A value is null or an integer. -/
def Value.Counts (v : Value) : Prop :=
  match v with
  | .null => True
  | .int _ => True
  | _ => False

instance Value.decidableCounts : DecidablePred Value.Counts
  | .null | .int _ => isTrue trivial
  | .text _ | .real _ | .bool _ => isFalse id

theorem Value.Counts.cases {v : Value} (h : v.Counts) : v = .null ∨ ∃ n, v = .int n := by
  cases v with
  | null => exact .inl rfl
  | int n => exact .inr ⟨n, rfl⟩
  | _ => exact h.elim

namespace EagerLoad

/-- The statement for the related rows of one key. -/
def toSelectOne (load : EagerLoad) (key : Value) : Select where
  columns := load.selectList
  source :=
    { table := load.relation.table
      criteria := [(.and, .compare load.relation.relatedKey .eq key)] }

/-- What a statement of its own gives a parent: all its rows for a relation to many; for a relation
to one its first row, or null where there is none. A parent without key makes no statement. -/
def alone (load : EagerLoad) (store : Store) (parent : Record) : Except StoreFault Json :=
  let key := parent.value load.relation.parentKey
  let rows := if key.isNull then .ok [] else store.select (load.toSelectOne key)
  rows.map fun rows =>
    match load.relation.kind, rows with
    | .many, rows => .list (rows.map Record.toJson)
    | .one, [] => .null
    | .one, first :: _ => first.toJson

theorem alone_eq_attached (load : EagerLoad) (store : Store) (parent : Record) :
    load.alone store parent =
      (if (parent.value load.relation.parentKey).isNull then .ok []
        else store.select (load.toSelectOne (parent.value load.relation.parentKey))).map
          (attached load.relation.kind) := by
  unfold alone
  dsimp only
  congr 1
  funext rows
  cases load.relation.kind <;> cases rows <;> rfl

/-- Only the key of the parent counts. -/
theorem alone_congr {load : EagerLoad} {parent other : Record} (store : Store)
    (h : other.value load.relation.parentKey = parent.value load.relation.parentKey) :
    load.alone store other = load.alone store parent := by
  rw [alone_eq_attached, alone_eq_attached, h]

/-- The related table shows plain columns, among them the one that its rows are matched by, and
that one holds integers or null. -/
structure Counts (load : EagerLoad) (store : Store) (related : Store.Prepared) (k : Nat) :
    Prop where
  prepared : store.prepare false { table := load.relation.table } load.selectList = .ok related
  key : IsPlain load.relation.relatedKey
  declared : related.first.schema.Declares load.relation.relatedKey k
  columns : ∀ column ∈ load.columns, column = "*" ∨ IsPlainColumn column
  cells : ∀ row ∈ related.first.rows, (Row.cell row k).Counts

/-- The key of a parent is an integer or null, or the parent has none. -/
def KeyCounts (load : EagerLoad) (parent : Record) : Prop :=
  (parent.value load.relation.parentKey).Counts

instance (load : EagerLoad) (parent : Record) : Decidable (load.KeyCounts parent) :=
  inferInstanceAs (Decidable (Value.Counts _))

theorem isItem_plain {column : String} (h : IsPlainColumn column) : IsItem column := by
  rcases h with h | ⟨table, name, rfl, htable, hname⟩
  · exact .inr ⟨column, names_plain h⟩
  · exact .inr ⟨name, names_qualified htable hname⟩

theorem selectList_items {load : EagerLoad} (hkey : IsPlain load.relation.relatedKey)
    (hcolumns : ∀ column ∈ load.columns, column = "*" ∨ IsPlainColumn column) :
    (∀ written ∈ load.selectList, IsItem written) ∧
      ∃ written ∈ load.selectList, written = "*" ∨ Names written load.relation.relatedKey := by
  have hitems : ∀ written ∈ load.columns, IsItem written := fun written hmem =>
    (hcolumns written hmem).elim .inl isItem_plain
  have hnames := names_plain hkey
  unfold selectList
  dsimp only
  split
  next => exact ⟨by simp [IsItem], "*", by simp, .inl rfl⟩
  next =>
    split
    next hcontains => exact ⟨hitems, _, by simpa using hcontains, .inr hnames⟩
    next =>
      refine ⟨fun written hmem => ?_, load.relation.relatedKey, by simp, .inr hnames⟩
      rcases List.mem_append.mp hmem with hmem | hmem
      · exact hitems written hmem
      · rw [List.mem_singleton.mp hmem]
        exact .inr ⟨_, hnames⟩

namespace Counts

variable {load : EagerLoad} {store : Store} {related : Store.Prepared} {k : Nat}

theorem showsOwn (h : load.Counts store related k) : related.ShowsOwn load.relation.relatedKey := by
  obtain ⟨parts⟩ := Store.preparedBy_of_prepare h.prepared
  obtain ⟨hitems, hshown⟩ := selectList_items h.key h.columns
  exact parts.showsOwn rfl h.declared hitems hshown

theorem relatedCell_datum (h : load.Counts store related k) (row : Row) :
    (load.relatedCell related row).datum = Row.cell row k := by
  have hplace : related.ownPlace? load.relation.relatedKey = some ⟨0, k⟩ := by
    rw [Store.Prepared.ownPlace?, h.declared.index?_eq, Option.map_some]
  rw [relatedCell, Store.Prepared.ownCell, hplace]
  rfl

/-- Keys are bound as they are read, so equal ones are the same integer. -/
theorem belongs_iff (h : load.Counts store related k) {row : Row}
    (hrow : row ∈ related.first.rows) {n : Int} (hn : isInt64 n = true) :
    load.Belongs related (.ofValue (.int n)) row ↔ Row.cell row k = .int n := by
  have halike : (load.relatedCell related row).Alike (.ofValue (.int n)) := by
    unfold Cell.Alike
    rw [h.relatedCell_datum]
    rcases (h.cells row hrow).cases with hcell | ⟨m, hcell, hm⟩
    · rw [hcell]
      trivial
    · rw [hcell]
      exact ⟨hm, hn⟩
  unfold Belongs
  rw [halike.equal_iff, h.relatedCell_datum]
  constructor
  · exact fun hequal => hequal.1
  · intro hcell
    exact ⟨hcell, by rw [hcell]; exact fun hnull => nomatch hnull⟩

theorem look_eq (h : load.Counts store related k) (row : Row) :
    (related.shownCell load.relation.relatedKey [row]).value =
      Value.ofJson (Row.cell row k).toJson := by
  rw [Store.Prepared.shownCell_of_showsOwn h.showsOwn, ← h.relatedCell_datum row]
  rfl

/-- A row matches a parent among others exactly where it belongs to the parent's own key. -/
theorem matches_iff (h : load.Counts store related k) {parents : List Record}
    (hparents : ∀ parent ∈ parents, load.KeyCounts parent) {parent : Record}
    (hparent : parent ∈ parents) {row : Row} (hrow : row ∈ related.first.rows) :
    load.Matches related (load.keys parents) (parent.value load.relation.parentKey) row ↔
      (parent.value load.relation.parentKey).isNull = false ∧
        load.Belongs related (.ofValue (parent.value load.relation.parentKey)) row := by
  have hkeys : ∀ key ∈ load.keys parents, ∃ n, key = .int n ∧ isInt64 n = true := by
    intro key hkey
    obtain ⟨hnull, other, hother, rfl⟩ := of_mem_keys hkey
    rcases (hparents other hother).cases with hvalue | ⟨n, hvalue⟩
    · rw [hvalue] at hnull
      cases hnull
    · exact ⟨n, hvalue, Record.isInt64_of_value hvalue⟩
  unfold Matches
  rw [Cell.member_eq_true_iff, h.look_eq]
  rcases (hparents parent hparent).cases with hvalue | ⟨n, hvalue⟩
  · rw [hvalue]
    simp [Value.isNull]
  · have hn := Record.isInt64_of_value hvalue
    rw [hvalue, h.belongs_iff hrow hn]
    refine and_congr_right fun _ => ⟨?_, ?_⟩
    · rintro ⟨⟨item, hitem, hequal⟩, hlook⟩
      obtain ⟨key, hkey, rfl⟩ := List.mem_map.mp hitem
      obtain ⟨m, rfl, hm⟩ := hkeys key hkey
      have hcell : Row.cell row k = .int m := (h.belongs_iff hrow hm).mp hequal
      rw [hcell] at hlook ⊢
      have hsame : Text.intText m = Text.intText n := by
        simpa [Datum.toJson, Value.ofJson, hm, Value.display] using hlook
      rw [Text.intText_injective hsame]
    · intro hcell
      obtain ⟨key, hkey, hsame⟩ := exists_key hparent (by rw [hvalue]; rfl)
      obtain ⟨m, rfl, hm⟩ := hkeys key hkey
      rw [hvalue] at hsame
      have hmn : m = n := Text.intText_injective hsame
      subst hmn
      refine ⟨⟨_, List.mem_map_of_mem hkey, (h.belongs_iff hrow hm).mpr hcell⟩, ?_⟩
      rw [hcell]
      simp [Datum.toJson, Value.ofJson, hm]

theorem tokens?_key (h : load.Counts store related k) :
    (tokens? load.relation.relatedKey).bind Sql.columnExpr? =
      some (.column none load.relation.relatedKey) := by
  have htokens : tokens? load.relation.relatedKey = some [.name load.relation.relatedKey] :=
    h.key.tokensFrom
  rw [htokens]
  exact reference?_plain h.key

theorem check_key (h : load.Counts store related k) :
    (Expr.column none load.relation.relatedKey).check store [⟨related.scope, []⟩] = .ok () := by
  obtain ⟨parts⟩ := Store.preparedBy_of_prepare h.prepared
  have horigin : related.scope.origin none load.relation.relatedKey =
      .ok (some (.cell ⟨0, k⟩)) := by
    simp [Scope.origin, parts.tables_eq rfl, Scope.placesFrom, h.declared.index?_eq]
  simp only [Expr.check, Env.lookup, horigin]
  rfl

/-- The columns of the load are prepared with a clause on the key as they are without. -/
theorem prepare_clause (h : load.Counts store related k) (clause : Clause) {e : Expr}
    (hchecked : clause.2.Checked) (hexpr : clause.2.expr? = some e)
    (hcheck : e.check store [⟨related.scope, []⟩] = .ok ())
    (hfits : Store.sourceFits false (some e) [] = true)
    (hvalues : clause.2.bindings.length ≤ Store.limits.values) :
    store.prepare false { table := load.relation.table, criteria := [clause] } load.selectList =
      .ok { related with test := some e } := by
  have htest := Store.prepareTest_clause store related.scope clause hchecked hexpr
  rw [if_neg (by omega), hcheck] at htest
  exact Store.prepare_of_test h.prepared rfl htest hfits

/-- The statement for one key finds the rows that belong to it, if they can be read. -/
theorem select_one (h : load.Counts store related k) {key : Value} (hnull : key.isNull = false) :
    store.select (load.toSelectOne key) =
      readWhere related fun row => load.Belongs related (.ofValue key) row := by
  have hplain : IsPlainColumn load.relation.relatedKey := .inl h.key
  -- equality with anything but null is read as a comparison with what is bound
  obtain ⟨hcompare, hvalues, hmeaning⟩ :
      (∀ e, Test.compareExpr .eq key e = .compare .eq e (.bound key)) ∧
        Test.compareValues .eq key = [key] ∧
        ∀ c, Test.compareMeaning .eq key c = Cell.compare .eq c (.ofValue key) := by
    cases key with
    | null => cases hnull
    | _ => exact ⟨fun _ => rfl, rfl, fun _ => rfl⟩
  have hexpr : (Test.compare load.relation.relatedKey .eq key).expr? =
      some (.compare .eq (.column none load.relation.relatedKey) (.bound key)) := by
    rw [Test.expr?, h.tokens?_key, Option.map_some, hcompare]
  have hcheck : (Expr.compare .eq (.column none load.relation.relatedKey) (.bound key)).check store
      [⟨related.scope, []⟩] = .ok () := by
    rw [Expr.check, h.check_key]
    rfl
  have hprepared := h.prepare_clause (.and, .compare load.relation.relatedKey .eq key)
    (IsPlainColumn.valid hplain) hexpr hcheck rfl (by simp [Test.bindings, hvalues, Store.limits])
  obtain ⟨parts⟩ := Store.preparedBy_of_prepare h.prepared
  have hrows := select_clause (.and, .compare load.relation.relatedKey .eq key) rfl rfl hplain
    trivial hprepared
  have hbelongs : ∀ row : Row, (Test.compare load.relation.relatedKey .eq key).meaning store
      [⟨related.scope, [row]⟩] = Cell.compare .eq (load.relatedCell related row) (.ofValue key) := by
    intro row
    rw [Test.meaning, hmeaning, parts.columnCell_eq rfl h.key h.showsOwn.1 row]
    rfl
  rw [toSelectOne, hrows]
  simp only [hbelongs]
  rfl

/-- What a statement of its own gives a parent are the rows that match it among other parents. -/
theorem alone_eq (h : load.Counts store related k) {parents : List Record}
    (hparents : ∀ parent ∈ parents, load.KeyCounts parent) {parent : Record}
    (hparent : parent ∈ parents) :
    load.alone store parent = (readWhere related fun row => load.Matches related (load.keys parents)
      (parent.value load.relation.parentKey) row).map (attached load.relation.kind) := by
  have hmatches := fun (row : Row) (hrow : row ∈ related.first.rows) =>
    h.matches_iff hparents hparent hrow
  rw [alone_eq_attached]
  cases hnull : (parent.value load.relation.parentKey).isNull with
  | true =>
    have hnone : (related.first.rows.filter fun row => load.Matches related (load.keys parents)
        (parent.value load.relation.parentKey) row) = [] := by
      refine List.filter_eq_nil_iff.mpr fun row hrow => ?_
      rw [decide_eq_true_iff, hmatches row hrow, hnull]
      exact fun hmatch => nomatch hmatch.1
    rw [readWhere, hnone]
    rfl
  | false =>
    have hsame : (related.first.rows.filter fun row => load.Matches related (load.keys parents)
        (parent.value load.relation.parentKey) row) =
          related.first.rows.filter fun row =>
            load.Belongs related (.ofValue (parent.value load.relation.parentKey)) row := by
      refine List.filter_congr fun row hrow => decide_eq_decide.mpr ?_
      rw [hmatches row hrow, hnull]
      exact and_iff_right rfl
    rw [readWhere, hsame, if_neg (by simp), h.select_one hnull]
    rfl

/-- A statement of its own succeeds for a parent where the rows that match it can be read. -/
theorem alone_ok_iff (h : load.Counts store related k) {parents : List Record}
    (hparents : ∀ parent ∈ parents, load.KeyCounts parent) {parent : Record}
    (hparent : parent ∈ parents) :
    (∃ value, load.alone store parent = .ok value) ↔ LegibleWhere related fun row =>
      load.Matches related (load.keys parents) (parent.value load.relation.parentKey) row := by
  rw [h.alone_eq hparents hparent]
  constructor
  · rintro ⟨value, hvalue⟩
    obtain ⟨rows, hrows, _⟩ := Except.of_map_ok hvalue
    exact (readWhere_eq_ok_iff.mp hrows).1
  · intro hlegible
    rw [readWhere_eq_ok_iff.mpr ⟨hlegible, rfl⟩]
    exact ⟨_, rfl⟩

/-- A row is sought by the keys of all parents where it matches one of them. -/
theorem seeks_iff_matches (h : load.Counts store related k) (test : Option Expr)
    {parents : List Record} (hparents : ∀ parent ∈ parents, load.KeyCounts parent) {row : Row}
    (hrow : row ∈ related.first.rows) :
    load.seeks { related with test := test } (load.keys parents) row = true ↔
      ∃ parent ∈ parents, load.Matches related (load.keys parents)
        (parent.value load.relation.parentKey) row := by
  obtain ⟨parts⟩ := Store.preparedBy_of_prepare h.prepared
  have hcell : load.soughtCell { related with test := test } row = load.relatedCell related row :=
    parts.columnCell_eq rfl h.key h.showsOwn.1 row
  rw [seeks_iff]
  constructor
  · rintro ⟨key, hkey, hmeets⟩
    obtain ⟨hnull, parent, hparent, rfl⟩ := of_mem_keys hkey
    rw [Meets, hcell] at hmeets
    exact ⟨parent, hparent, (h.matches_iff hparents hparent hrow).mpr ⟨hnull, hmeets⟩⟩
  · rintro ⟨parent, _, _, hmember, _⟩
    obtain ⟨item, hitem, hequal⟩ := Cell.member_eq_true_iff.mp hmember
    obtain ⟨key, hkey, rfl⟩ := List.mem_map.mp hitem
    exact ⟨key, hkey, by rw [Meets, hcell]; exact hequal⟩

/-- The rows of all parents are found unless they have more keys than a statement may bind, or a
row that matches one of them cannot be read. -/
theorem related_ok_iff (h : load.Counts store related k) {parents : List Record}
    (hparents : ∀ parent ∈ parents, load.KeyCounts parent) :
    (∃ found, load.related store parents = .ok found) ↔
      (load.keys parents).length ≤ Store.limits.values ∧
        ∀ parent ∈ parents, ∃ value, load.alone store parent = .ok value := by
  have hplain : IsPlainColumn load.relation.relatedKey := .inl h.key
  have hlegible : ∀ test, LegibleWhere { related with test := test }
      (load.seeks { related with test := test } (load.keys parents)) ↔
        ∀ parent ∈ parents, ∃ value, load.alone store parent = .ok value := by
    intro test
    constructor
    · intro hall parent hparent
      exact (h.alone_ok_iff hparents hparent).mpr fun row hrow hmatch =>
        hall row hrow ((h.seeks_iff_matches test hparents hrow).mpr
          ⟨parent, hparent, of_decide_eq_true hmatch⟩)
    · intro halone row hrow hseeks
      obtain ⟨parent, hparent, hmatch⟩ := (h.seeks_iff_matches test hparents hrow).mp hseeks
      exact (h.alone_ok_iff hparents hparent).mp (halone parent hparent) row hrow
        (decide_eq_true hmatch)
  by_cases hempty : load.keys parents = []
  · rw [← hlegible none]
    simp [EagerLoad.related, hempty, LegibleWhere, seeks, Cell.member]
  have hnonempty : (load.keys parents).isEmpty = false := by simpa using hempty
  have hexpr : (Test.member load.relation.relatedKey (load.keys parents) false).expr? =
      some (.member (.column none load.relation.relatedKey) ((load.keys parents).map .bound)
        false) := by
    rw [Test.expr?, hnonempty, h.tokens?_key]
    rfl
  have hbindings : (Test.member load.relation.relatedKey (load.keys parents) false).bindings =
      load.keys parents := by
    rw [Test.bindings]
  have hprepare : (load.keys parents).length ≤ Store.limits.values → ∃ test,
      store.prepare false (load.toSelect (load.keys parents)).source load.selectList =
        .ok { related with test := test } := by
    intro hfew
    have hcheck : (Expr.member (.column none load.relation.relatedKey)
        ((load.keys parents).map .bound) false).check store [⟨related.scope, []⟩] = .ok () := by
      rw [Expr.check, h.check_key]
      exact Store.checkItems_bound store _ _
    exact ⟨_, h.prepare_clause (.and, .member load.relation.relatedKey (load.keys parents) false)
      (IsPlainColumn.valid hplain) hexpr hcheck (Store.sourceFits_member _ _ _)
      (by rw [hbindings]; exact hfew)⟩
  constructor
  · rintro ⟨found, hfound⟩
    obtain ⟨p, hp, hread, _⟩ := of_related hplain hempty hfound
    obtain ⟨parts⟩ := Store.preparedBy_of_prepare hp
    have htest := Store.prepareTest_clause store p.scope
      (.and, .member load.relation.relatedKey (load.keys parents) false)
      (IsPlainColumn.valid hplain) hexpr
    have hprepared : store.prepareTest p.scope
        [(.and, .member load.relation.relatedKey (load.keys parents) false)] = .ok p.test :=
      parts.test_eq
    rw [hprepared, hbindings] at htest
    have hfew : (load.keys parents).length ≤ Store.limits.values := by
      by_contra hmany
      rw [if_pos (by omega)] at htest
      cases htest
    obtain ⟨test, hp'⟩ := hprepare hfew
    obtain rfl := Except.ok.inj (hp.symm.trans hp')
    exact ⟨hfew, (hlegible test).mp hread⟩
  · rintro ⟨hfew, halone⟩
    obtain ⟨test, hp⟩ := hprepare hfew
    have hselect := select_sought hplain hp
    rw [readWhere_eq_ok_iff.mpr ⟨(hlegible test).mpr halone, rfl⟩] at hselect
    exact ⟨_, by rw [EagerLoad.related, hnonempty]; exact hselect⟩

end Counts

/-- What a row has become of a parent: under the name of each relation stands what a statement of
its own would give the parent, and under other names all is as it was. -/
structure Given (loads : List EagerLoad) (store : Store) (parent row : Record) : Prop where
  related : ∀ load ∈ loads, ∃ value, load.alone store parent = .ok value ∧
    row.get? load.relation.name = some value
  others : ∀ name, (∀ load ∈ loads, load.relation.name ≠ name) → row.get? name = parent.get? name

/-- Loads whose relations have names of their own, and read keys that none of them writes over. -/
structure Apart (loads : List EagerLoad) : Prop where
  names : (loads.map fun load => load.relation.name).Nodup
  keys : ∀ load ∈ loads, ∀ other ∈ loads, other.relation.name ≠ load.relation.parentKey

theorem Apart.perm {loads loads' : List EagerLoad} (h : Apart loads) (hperm : loads.Perm loads') :
    Apart loads' where
  names := (hperm.map _).nodup h.names
  keys := fun load hload other hother =>
    h.keys load (hperm.mem_iff.mpr hload) other (hperm.mem_iff.mpr hother)

theorem Given.perm {loads loads' : List EagerLoad} {store : Store} {parent row : Record}
    (h : Given loads store parent row) (hperm : loads.Perm loads') :
    Given loads' store parent row where
  related := fun load hload => h.related load (hperm.mem_iff.mpr hload)
  others := fun name hname => h.others name fun load hload => hname load (hperm.mem_iff.mp hload)

/-- What is given to a parent decides each value of its row. -/
theorem Given.get?_eq {loads : List EagerLoad} {store : Store} {parent row row' : Record}
    (h : Given loads store parent row) (h' : Given loads store parent row') (name : String) :
    row.get? name = row'.get? name := by
  by_cases hload : ∃ load ∈ loads, load.relation.name = name
  · obtain ⟨load, hload, rfl⟩ := hload
    obtain ⟨value, halone, hrow⟩ := h.related load hload
    obtain ⟨value', halone', hrow'⟩ := h'.related load hload
    rw [hrow, hrow', Except.ok.inj (halone.symm.trans halone')]
  · have hname : ∀ load ∈ loads, load.relation.name ≠ name := fun load hmem hsame =>
      hload ⟨load, hmem, hsame⟩
    rw [h.others name hname, h'.others name hname]

section

variable {store : Store} {loads : List EagerLoad} {parents rows : List Record}

theorem given_of_attachAll (hcounts : ∀ load ∈ loads, ∃ related k, load.Counts store related k)
    (hapart : Apart loads) (hparents : ∀ load ∈ loads, ∀ parent ∈ parents, load.KeyCounts parent)
    (halone : ∀ load ∈ loads, ∀ parent ∈ parents, ∃ value, load.alone store parent = .ok value)
    (h : attachAll store loads parents = .ok rows) :
    List.Forall₂ (Given loads store) parents rows := by
  obtain ⟨change, hrows, hothers⟩ := map_of_attachAll h
  rw [hrows, List.forall₂_map_right_iff, List.forall₂_same]
  intro parent hparent
  refine ⟨fun load hload => ?_, fun name hname => hothers name hname parent⟩
  obtain ⟨related, k, hcount⟩ := hcounts load hload
  obtain ⟨before, later, hloads⟩ := List.append_of_mem hload
  have hbefore : ∀ other ∈ before, other.relation.name ≠ load.relation.parentKey := fun other hmem =>
    hapart.keys load hload other (by simp [hloads, hmem])
  have hlater : ∀ other ∈ later, other.relation.name ≠ load.relation.name := by
    have hnames := hapart.names
    rw [hloads, List.map_append, List.map_cons, List.nodup_append] at hnames
    have hfresh := (List.nodup_cons.mp hnames.2.1).1
    exact fun other hmem hsame => hfresh (hsame ▸ List.mem_map_of_mem hmem)
  rw [hloads] at h
  obtain ⟨change', hrows', hgiven⟩ :=
    get?_of_attachAll hbefore hlater hcount.key hcount.prepared hcount.showsOwn.1 h
  have hsame : change parent = change' parent :=
    List.map_inj_left.mp (hrows.symm.trans hrows') parent hparent
  obtain ⟨value, hvalue⟩ := halone load hload parent hparent
  have hread := hvalue
  rw [hcount.alone_eq (hparents load hload) hparent] at hread
  obtain ⟨found, hfound, rfl⟩ := Except.of_map_ok hread
  rw [(readWhere_eq_ok_iff.mp hfound).2] at hvalue
  exact ⟨_, hvalue, by rw [hsame, hgiven]⟩

/-- A load leaves the keys that other loads read. -/
theorem keys_attach {load other : EagerLoad} (hne : load.relation.name ≠ other.relation.parentKey)
    (found parents : List Record) :
    other.keys (parents.map (load.attach found)) = other.keys parents := by
  refine keys_map (fun parent => value_of_get? ?_) parents
  rw [attach, OrderedMap.get?_insert_of_ne (Ne.symm hne)]

/-- A load leaves what a statement of its own gives for other relations. -/
theorem alone_attach {load other : EagerLoad} (hne : load.relation.name ≠ other.relation.parentKey)
    (store : Store) (found : List Record) (parent : Record) :
    other.alone store (load.attach found parent) = other.alone store parent :=
  alone_congr store (value_of_get? (OrderedMap.get?_insert_of_ne (Ne.symm hne)))

theorem attachAll_ok_iff (hcounts : ∀ load ∈ loads, ∃ related k, load.Counts store related k)
    (hkeys : ∀ load ∈ loads, ∀ other ∈ loads, other.relation.name ≠ load.relation.parentKey)
    (hparents : ∀ load ∈ loads, ∀ parent ∈ parents, load.KeyCounts parent) :
    (∃ rows, attachAll store loads parents = .ok rows) ↔
      ∀ load ∈ loads, (load.keys parents).length ≤ Store.limits.values ∧
        ∀ parent ∈ parents, ∃ value, load.alone store parent = .ok value := by
  induction loads generalizing parents with
  | nil => simp [attachAll]
  | cons load loads ih =>
    obtain ⟨related, k, hcount⟩ := hcounts load List.mem_cons_self
    have hne : ∀ other ∈ loads, load.relation.name ≠ other.relation.parentKey := fun other hmem =>
      hkeys other (List.mem_cons_of_mem _ hmem) load List.mem_cons_self
    have hrest : ∀ found, (∃ rows, attachAll store loads (parents.map (load.attach found)) =
        .ok rows) ↔ ∀ other ∈ loads, (other.keys parents).length ≤ Store.limits.values ∧
          ∀ parent ∈ parents, ∃ value, other.alone store parent = .ok value := by
      intro found
      rw [ih (fun other hmem => hcounts other (List.mem_cons_of_mem _ hmem))
        (fun a ha b hb => hkeys a (List.mem_cons_of_mem _ ha) b (List.mem_cons_of_mem _ hb))]
      · refine forall₂_congr fun other hmem => ?_
        simp only [keys_attach (hne other hmem), List.forall_mem_map, alone_attach (hne other hmem)]
      · intro other hmem
        refine List.forall_mem_map.mpr fun parent hparent => ?_
        have hvalue : (load.attach found parent).value other.relation.parentKey =
            parent.value other.relation.parentKey :=
          value_of_get? (OrderedMap.get?_insert_of_ne (Ne.symm (hne other hmem)))
        rw [KeyCounts, hvalue]
        exact hparents other (List.mem_cons_of_mem _ hmem) parent hparent
    rw [List.forall_mem_cons, ← hcount.related_ok_iff (hparents load List.mem_cons_self)]
    constructor
    · rintro ⟨rows, hrows⟩
      obtain ⟨found, hfound, hrows⟩ := Except.of_bind_ok hrows
      exact ⟨⟨found, hfound⟩, (hrest found).mp ⟨rows, hrows⟩⟩
    · rintro ⟨⟨found, hfound⟩, hlater⟩
      obtain ⟨rows, hrows⟩ := (hrest found).mpr hlater
      exact ⟨rows, by rw [attachAll, hfound]; exact hrows⟩

end

/-- A load runs one statement, or none where no parent has a key. -/
theorem statements_run (load : EagerLoad) (parents : List Record) (session : Session) :
    ((load.run parents).exec session).2.statements = session.statements ++
      if (load.keys parents).isEmpty then [] else [(load.toSelect (load.keys parents)).text] := by
  have hload : ∀ session : Session, (Run.exec (if (load.keys parents).isEmpty then
        pure [] >>= fun related => pure (parents.map (load.attach related))
      else Run.select (load.toSelect (load.keys parents)) >>= fun related =>
        pure (parents.map (load.attach related))) session).2.statements = session.statements ++
      if (load.keys parents).isEmpty then [] else [(load.toSelect (load.keys parents)).text] := by
    intro session
    split
    next => exact (List.append_nil _).symm
    next =>
      rw [Run.exec_bind, Run.exec_select]
      cases session.store.select (load.toSelect (load.keys parents)) <;>
        exact List.filterMap_append
  unfold run
  dsimp only
  split
  next =>
    have hreport : ∀ events, Session.statements { session with events := session.events ++
        [.lacking load.relation.name load.relation.parentKey events] } = session.statements := by
      simp [Session.statements]
    rw [Run.exec_bind, Run.exec_emit]
    dsimp only
    rw [← hreport]
    exact hload _
  next => exact hload session

/-- Several loads run at most one statement each, in their order, for the keys of the parents as
they were before all of them. -/
theorem statements_runAll {loads : List EagerLoad}
    (hkeys : ∀ load ∈ loads, ∀ other ∈ loads, other.relation.name ≠ load.relation.parentKey)
    (parents : List Record) (session : Session) :
    ∃ texts, texts.Sublist (loads.map fun load => (load.toSelect (load.keys parents)).text) ∧
      ((runAll loads parents).exec session).2.statements = session.statements ++ texts := by
  have hfold : ∀ (parents : List Record) (session : Session), ∃ texts,
      texts.Sublist (loads.map fun load => (load.toSelect (load.keys parents)).text) ∧
      (Run.exec (loads.foldlM (fun parents load => load.run parents) parents)
        session).2.statements = session.statements ++ texts := by
    induction loads with
    | nil => exact fun parents session => ⟨[], List.nil_sublist _, (List.append_nil _).symm⟩
    | cons load loads ih =>
      intro parents session
      have hown := statements_run load parents session
      have hsub : (if (load.keys parents).isEmpty then []
          else [(load.toSelect (load.keys parents)).text]).Sublist
            [(load.toSelect (load.keys parents)).text] := by
        split
        next => exact List.nil_sublist _
        next => exact List.Sublist.refl _
      obtain ⟨events, hrun⟩ := exec_run load parents session
      rw [List.foldlM_cons, Run.exec_bind]
      rw [hrun] at hown ⊢
      cases hfound : load.related session.store parents with
      | error fault =>
        rw [hfound] at hown
        refine ⟨_, hsub.trans ?_, hown⟩
        exact List.singleton_sublist.mpr List.mem_cons_self
      | ok found =>
        rw [hfound] at hown
        have hlater : loads.map (fun other =>
            (other.toSelect (other.keys (parents.map (load.attach found)))).text) =
              loads.map fun other => (other.toSelect (other.keys parents)).text := by
          refine List.map_congr_left fun other hmem => ?_
          rw [keys_attach (hkeys other (List.mem_cons_of_mem _ hmem) load List.mem_cons_self)]
        obtain ⟨texts, htexts, hrest⟩ := ih
          (fun a ha b hb => hkeys a (List.mem_cons_of_mem _ ha) b (List.mem_cons_of_mem _ hb))
          (parents.map (load.attach found)) { session with events := events }
        rw [hlater] at htexts
        refine ⟨_, List.Sublist.append hsub htexts, ?_⟩
        rw [← List.append_assoc, ← hown]
        exact hrest
  unfold runAll
  split
  next => exact ⟨[], List.nil_sublist _, (List.append_nil _).symm⟩
  next => exact hfold parents session

theorem runAll_ok_iff (loads : List EagerLoad) (parents : List Record) (session : Session)
    (rows : List Record) : ((runAll loads parents).exec session).1 = .ok rows ↔
      attachAll session.store loads parents = .ok rows := by
  obtain ⟨events, hexec⟩ := exec_runAll loads parents session
  rw [hexec]
  cases attachAll session.store loads parents with
  | error fault => exact ⟨(nomatch ·), (nomatch ·)⟩
  | ok found =>
    constructor
    · intro h
      cases h
      rfl
    · intro h
      cases h
      rfl

theorem forall₂_of_common {α β : Type} {R R' : α → β → Prop} {S : β → β → Prop}
    (hS : ∀ a b b', R a b → R' a b' → S b b') {as : List α} {bs bs' : List β}
    (h : List.Forall₂ R as bs) (h' : List.Forall₂ R' as bs') : List.Forall₂ S bs bs' := by
  induction h generalizing bs' with
  | nil =>
    cases h'
    exact .nil
  | cons hab _ ih =>
    obtain _ | ⟨hab', hrest⟩ := h'
    exact .cons (hS _ _ _ hab hab') (ih hrest)

/-- Loads give each parent what a statement of its own per relation would give it, whatever their
order, with at most one statement for each load; they fail only where the parents have more keys
for one of them than a statement may bind, or where a statement of its own of some parent fails. -/
theorem runAll_gives_alone {loads : List EagerLoad} {parents : List Record} {session : Session}
    (hcounts : ∀ load ∈ loads, ∃ related k, load.Counts session.store related k)
    (hapart : Apart loads)
    (hparents : ∀ load ∈ loads, ∀ parent ∈ parents, load.KeyCounts parent) :
    ((runAll loads parents).exec session).2.store = session.store ∧
    (∃ texts, texts.Sublist (loads.map fun load => (load.toSelect (load.keys parents)).text) ∧
      ((runAll loads parents).exec session).2.statements = session.statements ++ texts) ∧
    ((∃ rows, ((runAll loads parents).exec session).1 = .ok rows) ↔
      ∀ load ∈ loads, (load.keys parents).length ≤ Store.limits.values ∧
        ∀ parent ∈ parents, ∃ value, load.alone session.store parent = .ok value) ∧
    ∀ rows, ((runAll loads parents).exec session).1 = .ok rows →
      List.Forall₂ (Given loads session.store) parents rows ∧
      ∀ loads', loads.Perm loads' → ∃ rows',
        ((runAll loads' parents).exec session).1 = .ok rows' ∧
        List.Forall₂ (fun row row' => ∀ name, row.get? name = row'.get? name) rows rows' := by
  obtain ⟨events, hexec⟩ := exec_runAll loads parents session
  have haccepted := attachAll_ok_iff hcounts hapart.keys hparents
  refine ⟨by rw [hexec], statements_runAll hapart.keys parents session, ?_, fun rows hrows => ?_⟩
  · simp only [runAll_ok_iff]
    exact haccepted
  · rw [runAll_ok_iff] at hrows
    have halone := fun load hload => (haccepted.mp ⟨rows, hrows⟩ load hload).2
    have hgiven := given_of_attachAll hcounts hapart hparents halone hrows
    refine ⟨hgiven, fun loads' hperm => ?_⟩
    have hcounts' : ∀ load ∈ loads', ∃ related k, load.Counts session.store related k :=
      fun load hmem => hcounts load (hperm.mem_iff.mpr hmem)
    have hapart' := hapart.perm hperm
    have hparents' : ∀ load ∈ loads', ∀ parent ∈ parents, load.KeyCounts parent :=
      fun load hmem => hparents load (hperm.mem_iff.mpr hmem)
    obtain ⟨rows', hrows'⟩ := (attachAll_ok_iff hcounts' hapart'.keys hparents').mpr
      fun load hmem => haccepted.mp ⟨rows, hrows⟩ load (hperm.mem_iff.mpr hmem)
    have hgiven' := given_of_attachAll hcounts' hapart' hparents'
      (fun load hmem => halone load (hperm.mem_iff.mpr hmem)) hrows'
    exact ⟨rows', (runAll_ok_iff ..).mpr hrows',
      forall₂_of_common (fun _ _ _ h h' => h.get?_eq (h'.perm hperm.symm)) hgiven hgiven'⟩

end EagerLoad

namespace Shop

/-- The first customer is in a team and has two orders, the second has neither. -/
def customersWithOrders : Store where
  tables :=
    [{ schema := teamSchema, rows := [[.int 1, .text "s"]] },
     { schema := orderSchema
       rows := [[.int 1, .int 1, .real .zero, .null], [.int 2, .int 1, .real .zero, .null]] }]

def ordersAndTeam : List EagerLoad :=
  [⟨.hasMany "orders" "orders" "customer_id" "id", ["total"]⟩,
   ⟨.belongsTo "team" "teams" "team_id" "id", ["*"]⟩]

/-- Two customers with their keys, the second without a team. -/
def customerRecords : List Record :=
  [.ofList [("id", .int 1), ("team_id", .int 1)], .ofList [("id", .int 2)]]

/-- Two customers get their orders and their team, in whatever order they are loaded. -/
theorem runAll_gives_orders_and_team :
    ∃ rows, ((EagerLoad.runAll ordersAndTeam customerRecords).exec
        { store := customersWithOrders }).1 = .ok rows ∧
      List.Forall₂ (EagerLoad.Given ordersAndTeam customersWithOrders) customerRecords rows ∧
      ∃ rows', ((EagerLoad.runAll ordersAndTeam.reverse customerRecords).exec
          { store := customersWithOrders }).1 = .ok rows' ∧
        List.Forall₂ (fun row row' => ∀ name, row.get? name = row'.get? name) rows rows' := by
  have hkeys : ∀ load ∈ ordersAndTeam, IsPlain load.relation.relatedKey := by
    decide +kernel
  have hcolumns : ∀ load ∈ ordersAndTeam, ∀ column ∈ load.columns,
      column = "*" ∨ IsPlain column := by
    decide +kernel
  have htables : ∀ load ∈ ordersAndTeam, ∃ k ∈ [0, 1], ((customersWithOrders.prepare false
      { table := load.relation.table } load.selectList).toOption.any fun related =>
        decide (related.first.schema.Declares load.relation.relatedKey k) &&
        decide (∀ row ∈ related.first.rows, (Row.cell row k).Counts)) = true := by
    decide +kernel
  have hcounts : ∀ load ∈ ordersAndTeam, ∃ related k,
      load.Counts customersWithOrders related k := by
    intro load hload
    obtain ⟨k, _, hk⟩ := htables load hload
    obtain ⟨related, hrelated, hk⟩ := (Option.any_eq_true _ _).mp hk
    obtain ⟨hdeclared, hcells⟩ := (Bool.and_eq_true _ _).mp hk
    exact ⟨related, k, Except.of_toOption hrelated, hkeys load hload, of_decide_eq_true hdeclared,
      fun column hmem => (hcolumns load hload column hmem).imp_right .inl,
      of_decide_eq_true hcells⟩
  have hapart : EagerLoad.Apart ordersAndTeam := ⟨by decide, by decide⟩
  have hparents : ∀ load ∈ ordersAndTeam, ∀ parent ∈ customerRecords, load.KeyCounts parent := by
    decide +kernel
  obtain ⟨_, _, haccepted, hgiven⟩ := @EagerLoad.runAll_gives_alone ordersAndTeam
    customerRecords { store := customersWithOrders } hcounts hapart hparents
  have hread : ∀ load ∈ ordersAndTeam,
      (load.keys customerRecords).length ≤ Store.limits.values ∧ ∀ parent ∈ customerRecords,
        (load.alone customersWithOrders parent).toOption.isSome = true := by
    decide +kernel
  obtain ⟨rows, hrows⟩ := haccepted.mpr fun load hload => ⟨(hread load hload).1,
    fun parent hparent => (Option.isSome_iff_exists.mp ((hread load hload).2 parent hparent)).imp
      fun _ => Except.of_toOption⟩
  obtain ⟨hall, hperm⟩ := hgiven rows hrows
  exact ⟨rows, hrows, hall, hperm _ (List.reverse_perm _).symm⟩

end Shop

end TableQuery
