import TableQuery.Proofs.ListedRows
import TableQuery.Proofs.TableRows

namespace TableQuery

open Sql

namespace Store

/-- A test without tests for related rows fits where it is not too high. -/
theorem sourceFits_alone {e : Expr} (hinner : ∀ base, e.innerFits base = true) :
    sourceFits false (some e) [] = decide (e.height ≤ Expr.greatestHeight) := by
  simp [sourceFits, sourceHeight, Expr.fits, hinner]

theorem sourceFits_nested {e : Expr} (hinner : ∀ base, e.innerFits base = true)
    (hlow : e.height < 100) : sourceFits true (some e) [] = true := by
  have hgreatest : Expr.greatestHeight = 1000 := rfl
  have hfits : max e.height 1 + 1 + e.height ≤ Expr.greatestHeight := by
    omega
  simp [sourceFits, sourceHeight, Expr.fits, hinner, hfits]

end Store

/-- The column has the value; null asks for no value. -/
def Table.Equals (t : Table) (name : String) (v : Value) (row : Row) : Bool :=
  match v with
  | .null => (t.cellOf name row).datum.isNull
  | v => Cell.compare .eq (t.cellOf name row) (.ofValue v) = some true

/-- A row has the values in the columns, null among them. -/
def Table.Agrees (t : Table) (pairs : List (String × Value)) (row : Row) : Bool :=
  pairs.all fun pair => t.Equals pair.1 pair.2 row

/-- The column has one of the values; null is no value. -/
def Table.Among (t : Table) (name : String) (values : List Value) (row : Row) : Bool :=
  values.any fun v => !v.isNull && t.Equals name v row

/-- The names are plain names of columns of the table. -/
def Table.Names (t : Table) (columns : List String) : Prop :=
  ∀ name ∈ columns, IsPlain name ∧ (t.schema.index? name).isSome

instance (t : Table) (columns : List String) : Decidable (t.Names columns) :=
  inferInstanceAs (Decidable (∀ _ ∈ columns, _))

/-- A column as it is written leads to a column of the table, which may have the table before it. -/
structure Table.Leads (t : Table) (written name : String) : Prop where
  plain : IsPlain name
  own : (t.schema.index? name).isSome
  written : written = name ∨
    ∃ table, IsPlain table ∧ t.schema.isCalled table = true ∧ written = table ++ "." ++ name

/-- Equalities as clauses. -/
def equalClauses (pairs : List (String × Value)) : Criteria :=
  (pairs.map fun pair => Test.compare pair.1 .eq pair.2).map (Prod.mk .and)

theorem Condition.compile_equalities (e : Entity) {pairs : List (String × Value)}
    (h : ∀ pair ∈ pairs, Identifier.valid pair.1 = true) :
    Condition.compile e (Condition.equalities pairs) = ⟨equalClauses pairs, [], none⟩ := by
  induction pairs with
  | nil => rfl
  | cons pair pairs ih =>
    have hvalid := h pair List.mem_cons_self
    have hrest := ih fun other hmem => h other (List.mem_cons_of_mem _ hmem)
    have hchecked : checkedName pair.1 = .ok pair.1 := by
      simp [checkedName, hvalid]
    rw [equalities, List.map_cons, compile, hchecked]
    simp only [bind, Except.bind, Predicate.clause]
    change Compiled.mk (_ :: (compile e (equalities pairs)).criteria)
      (compile e (equalities pairs)).skipped (compile e (equalities pairs)).fault = _
    rw [hrest]
    rfl

/-- The query of rows by values holds their equalities. -/
theorem Entity.exec_equalTo {e : Entity} {pairs : List (String × Value)}
    (h : ∀ pair ∈ pairs, Identifier.valid pair.1 = true) (session : Session) :
    (e.equalTo pairs []).exec session =
      (.ok { entity := e, criteria := equalClauses pairs }, session) := by
  have hcompiled := Condition.compile_equalities e h
  have hcriteria : Condition.criteria e (Condition.equalities pairs) =
      .ok (equalClauses pairs) := by
    rw [Condition.criteria, hcompiled]
  have hselect : (e.query.runCall (.select [])).exec session = (.ok e.query, session) := rfl
  have hfilter : (e.query.runCall (.filterBy (Condition.equalities pairs))).exec session =
      (.ok { entity := e, criteria := equalClauses pairs }, session) := by
    unfold Query.runCall
    dsimp only
    rw [Run.exec_bind]
    have hskipped : (Condition.compile e.query.entity (Condition.equalities pairs)).skipped =
        [] := congrArg Condition.Compiled.skipped hcompiled
    rw [hskipped]
    change (Run.ofInvalid ((Condition.criteria e (Condition.equalities pairs)).map
      e.query.addCriteria)).exec session = _
    rw [hcriteria, Run.exec_ofInvalid]
    rfl
  unfold equalTo Query.runCalls
  rw [List.foldlM_cons, Run.exec_bind, hselect]
  dsimp only
  rw [List.foldlM_cons, Run.exec_bind, hfilter]
  rfl

section

variable {store : Store} {t : Table} {written name : String} {v : Value}

theorem Table.equals_iff {row : Row} : t.Equals name v row = true ↔
    Test.compareMeaning .eq v (t.cellOf name row) = some true := by
  cases v with
  | null => simp [Table.Equals, Test.compareMeaning]
  | _ => exact decide_eq_true_iff

theorem Cell.compare_ofValue_null (c : Cell) : Cell.compare .eq c (.ofValue .null) ≠ some true := by
  have hnull : (Cell.ofValue .null).datum.isNull = true := rfl
  simp [Cell.compare, hnull]

theorem Table.among_iff {values : List Value} {row : Row} : t.Among name values row = true ↔
    Cell.member (t.cellOf name row) (values.map .ofValue) = some true := by
  rw [Cell.member_eq_true_iff, Table.Among, List.any_eq_true]
  simp only [List.mem_map, exists_exists_and_eq_and]
  refine exists_congr fun v => and_congr_right fun _ => ?_
  cases v with
  | null =>
    have hnull := Cell.compare_ofValue_null (t.cellOf name row)
    refine ⟨fun h => ?_, fun h => absurd h hnull⟩
    cases h
  | _ => exact decide_eq_true_iff

namespace Table.Leads

theorem of_name (hplain : IsPlain name) (hown : (t.schema.index? name).isSome) :
    t.Leads name name :=
  ⟨hplain, hown, .inl rfl⟩

theorem isPlainColumn (h : t.Leads written name) : IsPlainColumn written := by
  rcases h.written with rfl | ⟨table, htable, _, rfl⟩
  · exact .inl h.plain
  · exact .inr ⟨table, name, rfl, htable, h.plain⟩

theorem columnExpr?_name (hplain : IsPlain name) :
    (tokens? name).bind columnExpr? = some (.column none name) := by
  have htokens : tokens? name = some [.name name] := hplain.tokensFrom
  have hexpr : columnExpr? [.name name] = some (.column none name) := reference?_plain hplain
  rw [htokens, Option.bind_some, hexpr]

/-- What such a column is read as finds its cell, and is not high. -/
theorem exists_expr (h : t.Leads written name) :
    ∃ table, (tokens? written).bind columnExpr? = some (.column table name) ∧
      (Expr.column table name).height ≤ 2 ∧ ∀ shown rows,
        Env.lookup table name [⟨⟨[(t.schema.name, t.schema)], shown⟩, rows⟩] =
          .ok (t.cellOf name (rows[0]?.getD [])) := by
  rcases h.written with rfl | ⟨table, htable, hcalled, rfl⟩
  · exact ⟨none, columnExpr?_name h.plain, by simp [Expr.height],
      Table.lookup_own none (by simp) h.own⟩
  · have htokens : tokens? (table ++ "." ++ name) = some (Test.columnTokens table name) := by
      have htext : (table ++ "." ++ name).toList = table.toList ++ '.' :: name.toList := by
        simp
      unfold tokens?
      rw [htext]
      exact tokensFrom_qualified htable h.plain
    refine ⟨some table, ?_, by simp [Expr.height], ?_⟩
    · rw [htokens, Option.bind_some, columnExpr?_qualified htable]
    · exact Table.lookup_own (some table) (by simpa using hcalled) h.own

theorem columnCell (h : t.Leads written name) (shown : List (String × Origin)) (row : Row) :
    Env.columnCell [⟨⟨[(t.schema.name, t.schema)], shown⟩, [row]⟩] written =
      t.cellOf name row := by
  rcases h.written with rfl | ⟨table, htable, hcalled, rfl⟩
  · exact Table.columnCell_own h.plain h.own shown row
  · have hlookup := Table.lookup_own (some table) (by simpa using hcalled) h.own shown [row]
    simp only [Env.columnCell, Identifier.read?_qualified htable.1 h.plain.1, Env.cell, hlookup]
    rfl

end Table.Leads

/-- A test whose names are found, which looks for no related rows and is no zero. -/
structure Sql.Expr.Simple (store : Store) (t : Table) (e : Expr) : Prop where
  check : ∀ shown, e.check store [⟨⟨[(t.schema.name, t.schema)], shown⟩, []⟩] = .ok ()
  inner : ∀ base, e.innerFits base = true
  test : e ≠ .literal (.int 0)

namespace Sql.Expr.Simple

theorem both {a b : Expr} (ha : a.Simple store t) (hb : b.Simple store t) :
    (a.both b).Simple store t ∧ (a.both b).height = max a.height b.height + 1 := by
  have hand : a.both b = .and a b := by
    unfold Expr.both
    split
    next => exact absurd rfl ha.test
    next => exact absurd rfl hb.test
    next => rfl
  rw [hand]
  refine ⟨⟨fun shown => ?_, fun base => ?_, by simp⟩, by rw [Expr.height]⟩
  · rw [Expr.check, ha.check shown, hb.check shown]
    rfl
  · rw [Expr.innerFits, ha.inner base, hb.inner base]
    rfl

/-- An equality is one level higher than what it compares. -/
theorem equal {e : Expr} (he : e.Simple store t) (hpos : 1 ≤ e.height) (v : Value) :
    (Test.compareExpr .eq v e).Simple store t ∧
      (Test.compareExpr .eq v e).height = e.height + 1 := by
  have hcases : Test.compareExpr .eq v e = .isNull e false ∨
      Test.compareExpr .eq v e = .compare .eq e (.bound v) := by
    cases v with
    | null => exact .inl rfl
    | _ => exact .inr rfl
  rcases hcases with hnull | hvalue
  · rw [hnull]
    refine ⟨⟨fun shown => ?_, fun base => ?_, by simp⟩, by rw [Expr.height]⟩
    · rw [Expr.check, he.check]
    · rw [Expr.innerFits, he.inner]
  · rw [hvalue]
    refine ⟨⟨fun shown => ?_, fun base => ?_, by simp⟩, ?_⟩
    · rw [Expr.check, he.check]
      rfl
    · rw [Expr.innerFits, he.inner]
      rfl
    · have hbound : (Expr.bound v).height = 1 := by
        rw [Expr.height]
      rw [Expr.height, hbound]
      omega

theorem column {table : Option String}
    (hlookup : ∀ shown rows, Env.lookup table name [⟨⟨[(t.schema.name, t.schema)], shown⟩, rows⟩] =
      .ok (t.cellOf name (rows[0]?.getD []))) : (Expr.column table name).Simple store t := by
  refine ⟨fun shown => ?_, fun base => by rw [Expr.innerFits], by simp⟩
  rw [Expr.check, hlookup]
  rfl

end Sql.Expr.Simple

namespace Store

/-- An equality with one column can always be tested. -/
theorem prepareTest_equal (store : Store) (h : t.Leads written name) (v : Value) :
    ∃ e : Expr, e.Simple store t ∧ e.height ≤ 3 ∧
      store.prepareTest ⟨[(t.schema.name, t.schema)], []⟩ [(.and, .compare written .eq v)] =
        .ok (some e) := by
  obtain ⟨table, hexpr, hheight, hlookup⟩ := h.exists_expr
  have hcolumn : (Expr.column table name).Simple store t := .column hlookup
  have hpos : 1 ≤ (Expr.column table name).height := by
    rw [Expr.height]
    split <;> omega
  obtain ⟨hsimple, hequal⟩ := hcolumn.equal hpos v
  refine ⟨_, hsimple, by omega, ?_⟩
  have hread : (Test.compare written .eq v).expr? =
      some (Test.compareExpr .eq v (.column table name)) := by
    rw [Test.expr?, hexpr]
    rfl
  have hfew : ¬limits.values < (Test.compare written .eq v).bindings.length := by
    have hmost : limits.values = 32766 := rfl
    rw [Test.bindings, hmost]
    cases v <;> simp [Test.compareValues]
  rw [prepareTest_clause store _ (.and, .compare written .eq v)
    (IsPlainColumn.valid h.isPlainColumn) hread, if_neg hfew, hsimple.check]
  rfl

theorem rowTest_equal (store : Store) (h : t.Leads written name) (v : Value) :
    store.rowTest t [(.and, .compare written .eq v)] = .ok (t.Equals name v) := by
  obtain ⟨e, hsimple, hheight, he⟩ := prepareTest_equal store h v
  have hgreatest : Expr.greatestHeight = 1000 := rfl
  have hfits : sourceFits false (some e) [] = true := by
    rw [sourceFits_alone hsimple.inner, decide_eq_true_iff]
    omega
  rw [rowTest_of_prepareTest he, if_pos hfits]
  congr 1
  funext row
  rw [holds_of_clause (.and, .compare written .eq v) h.isPlainColumn trivial he, Test.meaning,
    h.columnCell, Bool.eq_iff_iff, decide_eq_true_iff, Table.equals_iff]

/-- A membership can be tested for as many values as a statement may have. -/
theorem rowTest_member (store : Store) (h : t.Leads written name) {values : List Value}
    (hne : values ≠ []) :
    store.rowTest t [(.and, .member written values false)] =
      if values.length ≤ limits.values then .ok (t.Among name values) else .error .statement := by
  obtain ⟨table, hexpr, _, hlookup⟩ := h.exists_expr
  have hnonempty : values.isEmpty = false := by simpa using hne
  have hread : (Test.member written values false).expr? =
      some (.member (.column table name) (values.map .bound) false) := by
    rw [Test.expr?, hnonempty, hexpr]
    rfl
  have hbindings : (Test.member written values false).bindings = values := by
    rw [Test.bindings]
  have hprepare := prepareTest_clause store ⟨[(t.schema.name, t.schema)], []⟩
    (.and, .member written values false) (IsPlainColumn.valid h.isPlainColumn) hread
  rw [hbindings] at hprepare
  by_cases hfew : values.length ≤ limits.values
  · have hcheck : Expr.check store [⟨⟨[(t.schema.name, t.schema)], []⟩, []⟩]
        (.member (.column table name) (values.map .bound) false) = .ok () := by
      have hcolumn : (Expr.column table name).Simple store t := .column hlookup
      have hitems := checkItems_bound store [⟨⟨[(t.schema.name, t.schema)], []⟩, []⟩] values
      rw [Expr.check, hcolumn.check]
      exact hitems
    rw [if_neg (Nat.not_lt.mpr hfew), hcheck] at hprepare
    rw [rowTest_of_prepareTest hprepare, if_pos (sourceFits_member table name values), if_pos hfew]
    congr 1
    funext row
    rw [holds_of_clause (.and, .member written values false) h.isPlainColumn trivial hprepare,
      Test.meaning, h.columnCell, Bool.eq_iff_iff, decide_eq_true_iff, Table.among_iff]
    rfl
  · rw [if_pos (Nat.not_le.mp hfew)] at hprepare
    rw [if_neg hfew]
    unfold rowTest
    simp only [hprepare, bind, Except.bind]

theorem expr?_name_equal (store : Store)
    (hname : IsPlain name ∧ (t.schema.index? name).isSome) (v : Value) :
    (Test.compare name .eq v).expr? = some (Test.compareExpr .eq v (.column none name)) ∧
      (Test.compareExpr .eq v (.column none name)).Simple store t ∧
      (Test.compareExpr .eq v (.column none name)).height = 2 := by
  obtain ⟨hplain, hown⟩ := hname
  have hcolumn : (Expr.column none name).Simple store t :=
    .column (Table.lookup_own none (by simp) hown)
  have hone : (Expr.column none name).height = 1 := by
    rw [Expr.height]
    rfl
  obtain ⟨hsimple, hequal⟩ := hcolumn.equal (Nat.le_of_eq hone.symm) v
  refine ⟨?_, hsimple, by omega⟩
  rw [Test.expr?, Table.Leads.columnExpr?_name hplain]
  rfl

/-- Each equality more makes a conjunction one level higher. -/
theorem chainFrom?_equalClauses {pairs : List (String × Value)}
    (hnames : t.Names (pairs.map Prod.fst)) {first : Expr} (hfirst : first.Simple store t)
    (hheight : 2 ≤ first.height) :
    ∃ e, chainFrom? none first (Criteria.exprs (equalClauses pairs)) = some e ∧
      e.Simple store t ∧ e.height = first.height + pairs.length := by
  induction pairs generalizing first with
  | nil => exact ⟨first, rfl, hfirst, rfl⟩
  | cons pair pairs ih =>
    obtain ⟨hread, hsimple, hequal⟩ := expr?_name_equal store (hnames pair.1 (by simp)) pair.2
    obtain ⟨hboth, hgrown⟩ := hfirst.both hsimple
    obtain ⟨e, he, hrest, hlast⟩ := ih (fun name hmem => hnames name (by simp [hmem])) hboth
      (by omega)
    refine ⟨e, ?_, hrest, ?_⟩
    · have hcons : Criteria.exprs (equalClauses (pair :: pairs)) =
          (.and, (Test.compare pair.1 .eq pair.2).expr?) ::
            Criteria.exprs (equalClauses pairs) := rfl
      rw [hcons, hread]
      exact he
    · rw [hlast, hgrown, List.length_cons]
      omega

variable {pairs : List (String × Value)}

theorem exists_equalExpr (store : Store) (hnames : t.Names (pairs.map Prod.fst))
    (hne : pairs ≠ []) :
    ∃ e, Criteria.expr? (equalClauses pairs) = some e ∧ e.Simple store t ∧
      e.height = pairs.length + 1 := by
  cases pairs with
  | nil => exact absurd rfl hne
  | cons pair pairs =>
    obtain ⟨hread, hsimple, hheight⟩ := expr?_name_equal store (hnames pair.1 (by simp)) pair.2
    have hothers : t.Names (pairs.map Prod.fst) := fun name hmem =>
      hnames name (List.mem_cons_of_mem _ hmem)
    obtain ⟨e, he, hrest, hlast⟩ :=
      chainFrom?_equalClauses hothers hsimple (Nat.le_of_eq hheight.symm)
    refine ⟨e, ?_, hrest, ?_⟩
    · have hcons : Criteria.expr? (equalClauses (pair :: pairs)) =
          (Test.compare pair.1 .eq pair.2).expr?.bind fun first =>
            chainFrom? none first (Criteria.exprs (equalClauses pairs)) := rfl
      rw [hcons, hread]
      exact he
    · rw [hlast, hheight, List.length_cons]
      omega

theorem length_bindings_equalClauses (pairs : List (String × Value)) :
    (Criteria.bindings (equalClauses pairs)).length ≤ pairs.length := by
  induction pairs with
  | nil => exact Nat.le_refl 0
  | cons pair pairs ih =>
    have hcons : Criteria.bindings (equalClauses (pair :: pairs)) =
        Test.compareValues .eq pair.2 ++ Criteria.bindings (equalClauses pairs) := rfl
    have hone : (Test.compareValues .eq pair.2).length ≤ 1 := by
      cases pair.2 <;> simp [Test.compareValues]
    rw [hcons, List.length_append, List.length_cons]
    omega

theorem checked_equalClauses (hnames : t.Names (pairs.map Prod.fst)) :
    Criteria.Checked (equalClauses pairs) := by
  refine Criteria.checked_iff.mpr fun clause hmem => ?_
  obtain ⟨test, htest, rfl⟩ := List.mem_map.mp hmem
  obtain ⟨pair, hpair, rfl⟩ := List.mem_map.mp htest
  exact IsPlainColumn.valid (.inl (hnames pair.1 (List.mem_map_of_mem hpair)).1)

/-- Equalities admit the rows that have their values. -/
theorem all_holds_equalClauses (hnames : t.Names (pairs.map Prod.fst)) {test : Option Expr}
    (htest : store.prepareTest ⟨[(t.schema.name, t.schema)], []⟩ (equalClauses pairs) = .ok test)
    (row : Row) : (test.all fun test =>
      store.holds ⟨[(t.schema.name, t.schema)], []⟩ test [row]) = t.Agrees pairs row := by
  have hall := Criteria.all_holds_iff_forall (checked_equalClauses hnames) htest [row]
  rw [Bool.eq_iff_iff, hall, List.forall_mem_map, Table.Agrees, List.all_eq_true]
  refine forall₂_congr fun pair hpair => ?_
  obtain ⟨hplain, hown⟩ := hnames pair.1 (List.mem_map_of_mem hpair)
  obtain ⟨e, he, htruth⟩ := Test.expr?_meaning (t := .compare pair.1 .eq pair.2) (.inl hplain)
  rw [Criteria.clauseTruth, he, Option.bind_some, htruth store _ trivial, Test.meaning,
    Table.columnCell_own hplain hown, Table.equals_iff]

/-- Equalities can be tested as long as their conjunction is not too high. -/
theorem rowTest_equalClauses (store : Store) (hnames : t.Names (pairs.map Prod.fst)) :
    store.rowTest t (equalClauses pairs) =
      if pairs.length < Expr.greatestHeight then .ok (t.Agrees pairs) else .error .statement := by
  by_cases hne : pairs = []
  · subst hne
    rfl
  have hclauses : equalClauses pairs ≠ [] := by
    simpa [equalClauses] using hne
  obtain ⟨e, he, hsimple, hheight⟩ := exists_equalExpr store hnames hne
  have htext : Criteria.text? (equalClauses pairs) = some (Criteria.text (equalClauses pairs)) := by
    simp [Criteria.text?, hclauses]
  have hprepare : store.prepareTest ⟨[(t.schema.name, t.schema)], []⟩ (equalClauses pairs) =
      if limits.values < (Criteria.bindings (equalClauses pairs)).length then .error .statement
      else .ok (some e) := by
    unfold prepareTest
    rw [htext]
    dsimp only
    rw [Criteria.readTest?_text hclauses (checked_equalClauses hnames), he]
    dsimp only
    rw [hsimple.check]
    rfl
  have hfits : sourceFits false (some e) [] = decide (pairs.length < Expr.greatestHeight) := by
    rw [sourceFits_alone hsimple.inner, hheight]
    rfl
  by_cases hmany : limits.values < (Criteria.bindings (equalClauses pairs)).length
  · have hlong : ¬pairs.length < Expr.greatestHeight := by
      have hbound := length_bindings_equalClauses pairs
      have hvalues : limits.values = 32766 := rfl
      have hgreatest : Expr.greatestHeight = 1000 := rfl
      omega
    rw [if_pos hmany] at hprepare
    rw [if_neg hlong]
    unfold rowTest
    simp only [hprepare, bind, Except.bind]
  · rw [if_neg hmany] at hprepare
    rw [rowTest_of_prepareTest hprepare, hfits]
    simp only [decide_eq_true_eq]
    split
    next =>
      congr 1
      funext row
      exact all_holds_equalClauses hnames hprepare row
    next => rfl

end Store

end

end TableQuery
