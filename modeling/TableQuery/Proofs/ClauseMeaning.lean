import TableQuery.Proofs.CriteriaReading
import TableQuery.Store.Eval

namespace TableQuery

open Sql

theorem truthAnd_true (t : Option Bool) : truthAnd t (some true) = t := by
  rcases t with _ | _ | _ <;> rfl

theorem truthAnd_assoc (a b c : Option Bool) :
    truthAnd (truthAnd a b) c = truthAnd a (truthAnd b c) := by
  rcases a with _ | _ | _ <;> rcases b with _ | _ | _ <;> rcases c with _ | _ | _ <;> rfl

theorem truthOr_false (t : Option Bool) : truthOr t (some false) = t := by
  rcases t with _ | _ | _ <;> rfl

theorem truthOr_assoc (a b c : Option Bool) :
    truthOr (truthOr a b) c = truthOr a (truthOr b c) := by
  rcases a with _ | _ | _ <;> rcases b with _ | _ | _ <;> rcases c with _ | _ | _ <;> rfl

theorem truthOr_eq_true {s t : Option Bool} :
    truthOr s t = some true ↔ s = some true ∨ t = some true := by
  rcases s with _ | _ | _ <;> rcases t with _ | _ | _ <;> simp [truthOr]

theorem truthAnd_eq_true {s t : Option Bool} :
    truthAnd s t = some true ↔ s = some true ∧ t = some true := by
  rcases s with _ | _ | _ <;> rcases t with _ | _ | _ <;> simp [truthAnd]

def truthAll (ts : List (Option Bool)) : Option Bool :=
  ts.foldr truthAnd (some true)

def truthAny (ts : List (Option Bool)) : Option Bool :=
  ts.foldr truthOr (some false)

theorem truthAll_append_singleton (ts : List (Option Bool)) (t : Option Bool) :
    truthAll (ts ++ [t]) = truthAnd (truthAll ts) t := by
  induction ts with
  | nil => rcases t with _ | _ | _ <;> rfl
  | cons s ts ih =>
    have hcons : ∀ us, truthAll (s :: us) = truthAnd s (truthAll us) := fun _ => rfl
    rw [List.cons_append, hcons, hcons, ih, truthAnd_assoc]

theorem truthAll_eq_true {ts : List (Option Bool)} :
    truthAll ts = some true ↔ ∀ t ∈ ts, t = some true := by
  induction ts with
  | nil => simp [truthAll]
  | cons t ts ih =>
    have hcons : truthAll (t :: ts) = truthAnd t (truthAll ts) := rfl
    rw [hcons, truthAnd_eq_true, ih, List.forall_mem_cons]

/-- The pieces of a list that is cut before each element behind an OR, with the first piece begun. -/
def piecesFrom {α : Type} (piece : List α) : List (Connector × α) → List (List α)
  | [] => [piece]
  | (.and, a) :: rest => piecesFrom (piece ++ [a]) rest
  | (.or, a) :: rest => piece :: piecesFrom [a] rest

/-- The pieces of a list that is cut before each element behind an OR, the first element aside. -/
def pieces {α : Type} : List (Connector × α) → List (List α)
  | [] => []
  | (_, a) :: rest => piecesFrom [a] rest

/-- Some piece of the clauses holds as a whole. No clauses test nothing. -/
def truthOfClauses (clauses : List (Connector × Option Bool)) : Option Bool :=
  if clauses.isEmpty then some true else truthAny ((pieces clauses).map truthAll)

/-- The cell that a name stands for; a name that leads nowhere is null. -/
def Env.cell (env : Env) (table : Option String) (name : String) : Cell :=
  (env.lookup table name).toOption.getD ⟨none, .null⟩

/-- The cell of a column that may have its table before it. -/
def Env.columnCell (env : Env) (column : String) : Cell :=
  match Identifier.read? column with
  | some ⟨table, some name, _⟩ => env.cell table name
  | _ => ⟨none, .null⟩

def Cell.ofValue (v : Value) : Cell :=
  ⟨none, .ofValue v⟩

/-- The day of a cell. -/
def Cell.day (store : Store) (c : Cell) : Cell :=
  ⟨none, dateOf store.clock.day c.datum⟩

/-- What a comparison says of two cells. -/
def Comparison.meaning (op : Comparison) (a b : Cell) : Option Bool :=
  match op with
  | eq => Cell.compare .eq a b
  | ne => Cell.compare .ne a b
  | gt => Cell.compare .gt a b
  | ge => Cell.compare .ge a b
  | lt => Cell.compare .lt a b
  | le => Cell.compare .le a b
  | like => Cell.like a.datum b.datum none
  | notLike => truthNot (Cell.like a.datum b.datum none)

namespace Test

/-- Equality with null asks whether there is a value. -/
def compareMeaning (op : Comparison) (value : Value) (c : Cell) : Option Bool :=
  match op, value with
  | .eq, .null => some c.datum.isNull
  | .ne, .null => some !c.datum.isNull
  | op, value => op.meaning c (.ofValue value)

def memberMeaning (values : List Value) (c : Cell) : Option Bool :=
  Cell.member c (values.map .ofValue)

def betweenMeaning (low high : Value) (c : Cell) : Option Bool :=
  Cell.between c (.ofValue low) (.ofValue high)

def containsMeaning (text : String) (c : Cell) : Option Bool :=
  Cell.like c.datum (.text (containsPattern text)) (some '\\')

/-- The row had entered by the day and, if it has left at all, did so on that day or later. -/
def activeOnMeaning (store : Store) (day : Value) (entry leave : Cell) : Option Bool :=
  let entered := Cell.compare .le (entry.day store) (.ofValue day)
  if leave.datum.isNull then entered
  else truthAnd entered (Cell.compare .ge (leave.day store) (.ofValue day))

end Test

/-- Some row of the relation that belongs to the row of the levels meets a test of its own. The key
of the row is looked up outside the relation's table. -/
def Relation.exists_ (store : Store) (env : Env) (parent : String) (r : Relation)
    (test : Env → Option Bool) : Option Bool :=
  (store.readable? none r.table).map fun found =>
    found.rows.any fun row =>
      let inner : Env := Expr.innerLevel r.table found.schema row :: env
      truthAnd (Cell.compare .eq (inner.cell (some r.table) r.relatedKey)
        (env.cell (some parent) r.parentKey)) (test inner) = some true

mutual

/-- What a test says of the rows of the levels. -/
def Test.meaning (store : Store) (env : Env) : Test → Option Bool
  | .raw _ _ => none
  | .compare column op value => Test.compareMeaning op value (env.columnCell column)
  | .member column values negated =>
    negatedIf negated (Test.memberMeaning values (env.columnCell column))
  | .between column low high negated =>
    negatedIf negated (Test.betweenMeaning low high (env.columnCell column))
  | .isNull column negated => some ((env.columnCell column).datum.isNull != negated)
  | .date column op value => op.meaning ((env.columnCell column).day store) (.ofValue value)
  | .contains column text => Test.containsMeaning text (env.columnCell column)
  | .activeOn table day =>
    Test.activeOnMeaning store day (env.cell (some table) "entry_at")
      (env.cell (some table) "leave_at")
  | .group clauses => truthOfClauses (Criteria.meanings store env clauses)
  | .has parent relation clauses =>
    relation.exists_ store env parent fun inner =>
      truthOfClauses (Criteria.meanings store inner clauses)

def Criteria.meanings (store : Store) (env : Env) :
    List (Connector × Test) → List (Connector × Option Bool)
  | [] => []
  | (connector, test) :: rest =>
    (connector, test.meaning store env) :: Criteria.meanings store env rest

end

/-- What clauses say of the rows of the levels. -/
def Criteria.meaning (store : Store) (env : Env) (criteria : Criteria) : Option Bool :=
  truthOfClauses (Criteria.meanings store env criteria)

mutual

/-- The columns are plain names, alone or behind a plain table. -/
def Test.Plain : Test → Prop
  | .raw _ _ => False
  | .compare column _ _ => IsPlainColumn column
  | .member column _ _ => IsPlainColumn column
  | .between column _ _ _ => IsPlainColumn column
  | .isNull column _ => IsPlainColumn column
  | .date column _ _ => IsPlainColumn column
  | .contains column _ => IsPlainColumn column
  | .activeOn table _ => IsPlain table
  | .group clauses => clauses ≠ [] ∧ Criteria.Plain clauses
  | .has parent relation clauses => IsPlain parent ∧ relation.Plain ∧ Criteria.Plain clauses

def Criteria.Plain : List (Connector × Test) → Prop
  | [] => True
  | (_, test) :: rest => test.Plain ∧ Criteria.Plain rest

end

/-- The table of a relation does not go by the name of the parent. -/
def Relation.Apart (store : Store) (parent : String) (r : Relation) : Prop :=
  ∀ found, store.readable? none r.table = some found →
    Scope.isTable parent r.table found.schema = false

mutual

/-- Relations lead to other tables than that of their parent. -/
def Test.Apart (store : Store) : Test → Prop
  | .group clauses => Criteria.Apart store clauses
  | .has parent relation clauses => relation.Apart store parent ∧ Criteria.Apart store clauses
  | _ => True

def Criteria.Apart (store : Store) : List (Connector × Test) → Prop
  | [] => True
  | (_, test) :: rest => test.Apart store ∧ Criteria.Apart store rest

end

namespace Identifier

theorem readName?_append {ns : List Char} (h : IsName ns) (rest : List Char)
    (hrest : ∀ c ∈ rest.head?, isNameCharacter c = false) :
    readName? (ns ++ rest) = some (String.ofList ns, rest) := by
  cases ns with
  | nil => exact h.elim
  | cons c ns =>
    have htake : rest.takeWhile isNameCharacter = [] := by
      cases rest with
      | nil => rfl
      | cons d rest => simp [hrest d rfl]
    have hdrop : rest.dropWhile isNameCharacter = rest := by
      cases rest with
      | nil => rfl
      | cons d rest => simp [hrest d rfl]
    have hall : ∀ d ∈ ns, isNameCharacter d = true := h.2
    simp [readName?, h.1, List.takeWhile_append_of_pos hall, List.dropWhile_append_of_pos hall,
      htake, hdrop]

theorem IsName.ne_star {ns : List Char} (h : IsName ns) (rest : List Char) :
    ns ++ rest ≠ ['*'] := by
  cases ns with
  | nil => exact h.elim
  | cons c ns =>
    intro heq
    have hc : c = '*' := (List.cons.inj heq).1
    have hstart : isNameStart c = true := h.1
    rw [hc] at hstart
    exact absurd hstart (by decide)

theorem read?_name {s : String} (h : IsName s.toList) : read? s = some ⟨none, some s, none⟩ := by
  have hread := readName?_append h [] (by simp)
  have hstar := h.ne_star []
  rw [List.append_nil] at hread hstar
  simp [read?, readCharacters?, hstar, hread, readShown?]

theorem read?_qualified {table name : String} (ht : IsName table.toList)
    (hn : IsName name.toList) :
    read? (table ++ "." ++ name) = some ⟨some table, some name, none⟩ := by
  have htext : (table ++ "." ++ name).toList = table.toList ++ '.' :: name.toList := by
    simp
  have htable := readName?_append ht ('.' :: name.toList) (by simp; decide)
  have hname := readName?_append hn [] (by simp)
  have hstar := ht.ne_star ('.' :: name.toList)
  rw [List.append_nil] at hname
  have hhead : ∀ more, name.toList ≠ '*' :: more := by
    intro more heq
    rw [heq] at hn
    exact absurd hn.1 (by decide)
  simp only [read?, readCharacters?, htext, hstar, htable, ↓reduceIte]
  simp [hname, readShown?]

end Identifier

theorem IsPlainColumn.valid {column : String} (h : IsPlainColumn column) :
    Identifier.valid column = true := by
  rcases h with h | ⟨table, name, rfl, ht, hn⟩
  · simp [Identifier.valid, Identifier.read?_name h.1]
  · simp [Identifier.valid, Identifier.read?_qualified ht.1 hn.1]

namespace Sql

theorem beginsQuery_plain {s : String} (h : IsPlain s) (ts : List Token) :
    beginsQuery (.name s :: ts) = false := by
  have hwords := h.2.2.2
  simp only [List.any_cons, List.any_nil, Bool.or_false, Bool.or_eq_false_iff] at hwords
  exact hwords.2.2

theorem columnExpr?_plain {column : String} (h : IsPlainColumn column) :
    ∃ table name ts, tokens? column = some ts ∧ columnExpr? ts = some (.column table name) ∧
      dayExpr? ts = some (.date (.column table name)) ∧
      (∀ more, beginsQuery (ts ++ more) = false) ∧
      ∀ env : Env, env.columnCell column = env.cell table name := by
  rcases h with h | ⟨table, name, rfl, ht, hn⟩
  · have hexpr : columnExpr? [.name column] = some (.column none column) :=
      reference?_plain h
    have hday : dayExpr? [.name column] = (columnExpr? [.name column]).map .date := rfl
    refine ⟨none, column, [.name column], h.tokensFrom, hexpr, ?_, beginsQuery_plain h,
      fun env => ?_⟩
    · rw [hday, hexpr]
      rfl
    · simp only [Env.columnCell, Identifier.read?_name h.1]
  · have htext : (table ++ "." ++ name).toList = table.toList ++ '.' :: name.toList := by
      simp
    refine ⟨some table, name, Test.columnTokens table name, ?_, columnExpr?_qualified ht name,
      dayExpr?_qualified ht name, fun more => beginsQuery_plain ht _, fun env => ?_⟩
    · unfold tokens?
      rw [htext]
      exact tokensFrom_qualified ht hn
    · simp only [Env.columnCell, Identifier.read?_qualified ht.1 hn.1]

namespace Expr

variable (store : Store) (env : Env)

/-- Whether an expression counts as true. -/
def truth (e : Expr) : Option Bool :=
  (e.eval store env).datum.truth

theorem eval_literal (d : Datum) : (literal d).eval store env = ⟨none, d⟩ :=
  rfl

theorem truth_and (a b : Expr) :
    (Expr.and a b).truth store env = truthAnd (a.truth store env) (b.truth store env) :=
  Datum.truth_ofTruth _

theorem truth_or (a b : Expr) :
    (Expr.or a b).truth store env = truthOr (a.truth store env) (b.truth store env) :=
  Datum.truth_ofTruth _

theorem truth_compare (r : Relator) (a b : Expr) :
    (Expr.compare r a b).truth store env = Cell.compare r (a.eval store env) (b.eval store env) :=
  Datum.truth_ofTruth _

theorem truth_isNull (e : Expr) (negated : Bool) :
    (Expr.isNull e negated).truth store env =
      some ((e.eval store env).datum.isNull != negated) :=
  Datum.truth_ofTruth (some _)

theorem truth_member (e : Expr) (items : List Expr) (negated : Bool) :
    (Expr.member e items negated).truth store env =
      negatedIf negated (Cell.member (e.eval store env) (evalItems store env items)) :=
  Datum.truth_ofTruth _

theorem truth_between (e low high : Expr) (negated : Bool) :
    (Expr.between e low high negated).truth store env =
      negatedIf negated
        (Cell.between (e.eval store env) (low.eval store env) (high.eval store env)) :=
  Datum.truth_ofTruth _

theorem truth_like (e pattern : Expr) (escape : Option Char) (negated : Bool) :
    (Expr.like e pattern escape negated).truth store env =
      negatedIf negated
        (Cell.like (e.eval store env).datum (pattern.eval store env).datum escape) :=
  Datum.truth_ofTruth _

theorem truth_caseOf (test value otherwise : Expr) :
    (Expr.caseOf [(test, value)] otherwise).truth store env =
      if test.truth store env = some true then value.truth store env
      else otherwise.truth store env := by
  have heval : (Expr.caseOf [(test, value)] otherwise).truth store env =
      ((if test.truth store env = some true then some (value.eval store env).datum
        else none).getD (otherwise.eval store env).datum).truth := rfl
  rw [heval]
  split <;> rfl

theorem truth_anyRow (table shown : String) (test : Expr) :
    (Expr.anyRow table shown test).truth store env =
      (store.readable? none table).map fun found => found.rows.any fun row =>
        test.truth store (innerLevel shown found.schema row :: env) = some true := by
  unfold truth
  rw [eval]
  cases store.readable? none table with
  | none => rfl
  | some found => exact Datum.truth_ofTruth (some _)

theorem truth_both (a b : Expr) :
    (a.both b).truth store env = truthAnd (a.truth store env) (b.truth store env) := by
  have hzero : (literal (.int 0)).truth store env = some false := rfl
  unfold both
  split
  next => rw [hzero]; rfl
  next =>
    rw [hzero]
    rcases truth store env a with _ | _ | _ <;> rfl
  next => exact truth_and store env a b

theorem truth_alternative (before : Option Expr) (e : Expr) :
    (alternative before e).truth store env =
      truthOr ((before.map (truth store env)).getD (some false)) (e.truth store env) := by
  cases before with
  | none =>
    rcases h : truth store env e with _ | _ | _ <;> simp [alternative, h, truthOr]
  | some before => exact truth_or store env before e

end Expr

/-- The expression of a chain is true where some piece of the chain is true as a whole. -/
theorem chainFrom?_truth (before : Option Expr) (e : Expr) (items : List (Connector × Expr)) :
    ∃ found, chainFrom? before e (items.map fun item => (item.1, some item.2)) = some found ∧
      ∀ store env piece, truthAll piece = e.truth store env →
        found.truth store env =
          truthOr ((before.map (Expr.truth store env)).getD (some false))
            (truthAny ((piecesFrom piece
              (items.map fun item => (item.1, item.2.truth store env))).map truthAll)) := by
  induction items generalizing before e with
  | nil =>
    refine ⟨alternative before e, rfl, fun store env piece hpiece => ?_⟩
    rw [Expr.truth_alternative]
    simp [piecesFrom, truthAny, hpiece, truthOr_false]
  | cons item items ih =>
    obtain ⟨connector, next⟩ := item
    cases connector with
    -- the clause goes on with the piece that `e` has read so far
    | and =>
      obtain ⟨found, hfound, htruth⟩ := ih before (e.both next)
      refine ⟨found, hfound, fun store env piece hpiece => ?_⟩
      refine htruth store env (piece ++ [next.truth store env]) ?_
      rw [truthAll_append_singleton, hpiece, Expr.truth_both]
    -- the piece is complete and joins the alternatives; `next` begins a piece of its own
    | or =>
      obtain ⟨found, hfound, htruth⟩ := ih (some (alternative before e)) next
      refine ⟨found, hfound, fun store env piece hpiece => ?_⟩
      have hnext := htruth store env [next.truth store env] (truthAnd_true _)
      rw [hnext, Option.map_some, Option.getD_some, Expr.truth_alternative, truthOr_assoc]
      simp [piecesFrom, truthAny, hpiece]

theorem chain?_truth {items : List (Connector × Expr)} (hne : items ≠ []) :
    ∃ found, chain? (items.map fun item => (item.1, some item.2)) = some found ∧
      ∀ store env, found.truth store env =
        truthOfClauses (items.map fun item => (item.1, item.2.truth store env)) := by
  cases items with
  | nil => simp at hne
  | cons item items =>
    obtain ⟨found, hfound, htruth⟩ := chainFrom?_truth none item.2 items
    refine ⟨found, hfound, fun store env => ?_⟩
    have h := htruth store env [item.2.truth store env] (truthAnd_true _)
    rw [h]
    simp only [truthOfClauses, pieces, List.map_cons, List.isEmpty_cons, Option.map_none,
      Option.getD_none]
    generalize truthAny _ = t
    rcases t with _ | _ | _ <;> rfl

end Sql

theorem Criteria.plain_iff {criteria : Criteria} :
    Criteria.Plain criteria ↔ ∀ clause ∈ criteria, clause.2.Plain := by
  induction criteria with
  | nil => simp [Criteria.Plain]
  | cons clause rest ih => simp [Criteria.Plain, ih]

theorem Test.Plain.checked {t : Test} (h : t.Plain) : t.Checked := by
  induction t using Test.nestedInduction with
  | raw => exact h.elim
  | activeOn => exact h
  | group clauses ih =>
    exact ⟨h.1, Criteria.checked_iff.mpr fun clause hmem =>
      ih clause hmem (Criteria.plain_iff.mp h.2 clause hmem)⟩
  | has parent relation clauses ih =>
    exact ⟨h.1, h.2.1, Criteria.checked_iff.mpr fun clause hmem =>
      ih clause hmem (Criteria.plain_iff.mp h.2.2 clause hmem)⟩
  | _ => exact IsPlainColumn.valid h

theorem Criteria.Plain.checked {criteria : Criteria} (h : Criteria.Plain criteria) :
    Criteria.Checked criteria :=
  Criteria.checked_iff.mpr fun clause hmem => (Criteria.plain_iff.mp h clause hmem).checked

theorem Criteria.tokens?_plain {criteria : Criteria} (hne : criteria ≠ [])
    (h : ∀ clause ∈ criteria, ∃ ts, clause.2.tokens? = some ts ∧
      ∀ more, beginsQuery (ts ++ more) = false) :
    ∃ ts, Criteria.tokens? criteria = some ts ∧ beginsQuery ts = false := by
  have hrest : ∀ rest : Criteria, (∀ clause ∈ rest, ∃ ts, clause.2.tokens? = some ts ∧
      ∀ more, beginsQuery (ts ++ more) = false) → ∃ ts, Criteria.restTokens? rest = some ts := by
    intro rest hall
    induction rest with
    | nil => exact ⟨[], rfl⟩
    | cons clause rest ih =>
      obtain ⟨ts, hts, _⟩ := hall clause (by simp)
      obtain ⟨us, hus⟩ := ih fun clause hmem => hall clause (by simp [hmem])
      exact ⟨clause.1.token :: ts ++ us, by simp [Criteria.restTokens?, hts, hus]⟩
  cases criteria with
  | nil => simp at hne
  | cons clause rest =>
    obtain ⟨ts, hts, hbegins⟩ := h clause (by simp)
    obtain ⟨us, hus⟩ := hrest rest fun clause hmem => h clause (by simp [hmem])
    exact ⟨ts ++ us, by simp [Criteria.tokens?, hts, hus], hbegins us⟩

theorem Test.tokens?_plain {t : Test} (h : t.Plain) :
    ∃ ts, t.tokens? = some ts ∧ ∀ more, beginsQuery (ts ++ more) = false := by
  have hcolumn : ∀ {column : String} (tail : List Token), IsPlainColumn column →
      ∃ ts, (Sql.tokens? column).map (· ++ tail) = some ts ∧
        ∀ more, beginsQuery (ts ++ more) = false := by
    intro column tail hplain
    obtain ⟨table, name, ts, hts, _, _, hbegins, _⟩ := columnExpr?_plain hplain
    exact ⟨ts ++ tail, by simp [hts], fun more => by rw [List.append_assoc]; exact hbegins _⟩
  induction t using Test.nestedInduction with
  | raw => exact h.elim
  | compare column op value => exact hcolumn _ h
  | member column values negated =>
    by_cases hv : values = []
    · exact ⟨emptyMemberTokens negated, by simp [Test.tokens?, hv], fun more => rfl⟩
    · simpa [Test.tokens?, hv] using hcolumn (memberTokens values.length negated) h
  | between column low high negated => exact hcolumn _ h
  | isNull column negated => exact hcolumn _ h
  | date column op value =>
    obtain ⟨table, name, ts, hts, _⟩ := columnExpr?_plain h
    have hdate : Text.sameName "DATE" "with" = false := by decide +kernel
    exact ⟨dateTokens ts op, by simp [Test.tokens?, hts], fun more => hdate⟩
  | contains column text => exact hcolumn _ h
  | activeOn table day => exact ⟨_, rfl, fun more => rfl⟩
  | group clauses ih =>
    obtain ⟨ts, hts, _⟩ := Criteria.tokens?_plain h.1 fun clause hmem =>
      ih clause hmem (Criteria.plain_iff.mp h.2 clause hmem)
    exact ⟨.left :: ts ++ [.right], by simp [Test.tokens?, hts], fun more => rfl⟩
  | has parent relation clauses ih =>
    by_cases hempty : clauses = []
    · exact ⟨hasTokens parent relation ++ [.right], by simp [Test.tokens?, hempty],
        fun more => rfl⟩
    · obtain ⟨ts, hts, _⟩ := Criteria.tokens?_plain hempty fun clause hmem =>
        ih clause hmem (Criteria.plain_iff.mp h.2.2 clause hmem)
      exact ⟨hasTokens parent relation ++ [.keyword .and, .left] ++ ts ++ [.right, .right],
        by simp [Test.tokens?, hempty, hts], fun more => rfl⟩

theorem Env.cell_apart (level : Level) (env : Env) {table : String}
    (h : ∀ entry ∈ level.scope.tables, Scope.isTable table entry.1 entry.2 = false)
    (name : String) : Env.cell (level :: env) (some table) name = env.cell (some table) name := by
  have hplaces : ∀ i, Scope.placesFrom (some table) name i level.scope.tables = [] := by
    intro i
    generalize level.scope.tables = tables at h
    induction tables generalizing i with
    | nil => rfl
    | cons entry tables ih =>
      have hentry := h entry (by simp)
      have hrest := ih (i + 1) fun entry hmem => h entry (by simp [hmem])
      simp [Scope.placesFrom, hentry, hrest]
  have horigin : level.scope.origin (some table) name = .ok none := by
    simp [Scope.origin, hplaces]
  simp only [Env.cell, Env.lookup, horigin]

theorem Datum.order_int (a b : Int) : (Datum.int a).order (.int b) = Ord.compare a b := by
  have hpos : 0 < Double.unitsPerOne := by decide +kernel
  have hrank : (Datum.int a).rank = (Datum.int b).rank := rfl
  have hlt : a * Double.unitsPerOne < b * Double.unitsPerOne ↔ a < b :=
    Int.mul_lt_mul_right hpos
  have heq : a * Double.unitsPerOne = b * Double.unitsPerOne ↔ a = b :=
    Int.mul_eq_mul_right_iff (Int.ne_of_gt hpos)
  simp only [order, hrank, units, Ord.compare, compareOfLessAndEq, hlt, heq]
  simp

theorem Comparison.truth_expr (op : Comparison) (store : Store) (env : Env) (a b : Expr) :
    (op.expr a b).truth store env = op.meaning (a.eval store env) (b.eval store env) := by
  cases op <;> simp [expr, meaning, Expr.truth_compare, Expr.truth_like, negatedIf]

theorem Sql.Expr.evalItems_bound (store : Store) (env : Env) (values : List Value) :
    evalItems store env (values.map .bound) = values.map .ofValue := by
  induction values with
  | nil => rfl
  | cons v values ih => exact congrArg (Datum.ofValue v :: ·) ih

namespace Test

theorem truth_compareExpr (op : Comparison) (value : Value) (store : Store) (env : Env) (e : Expr) :
    (compareExpr op value e).truth store env = compareMeaning op value (e.eval store env) := by
  by_cases heq : op = .eq ∧ value = .null
  · obtain ⟨rfl, rfl⟩ := heq
    simp [compareExpr, compareMeaning, Expr.truth_isNull]
  by_cases hne : op = .ne ∧ value = .null
  · obtain ⟨rfl, rfl⟩ := hne
    simp [compareExpr, compareMeaning, Expr.truth_isNull]
  have hexpr : compareExpr op value e = op.expr e (.bound value) := by
    unfold compareExpr
    split <;> simp_all
  have hmeaning : compareMeaning op value (e.eval store env) =
      op.meaning (e.eval store env) (.ofValue value) := by
    unfold compareMeaning
    split <;> simp_all
  rw [hexpr, hmeaning, Comparison.truth_expr]
  rfl

theorem truth_emptyMemberExpr (negated : Bool) (store : Store) (env : Env) :
    (emptyMemberExpr negated).truth store env = some negated := by
  rw [emptyMemberExpr, Expr.truth_compare, Expr.eval_literal, Expr.eval_literal]
  cases negated <;>
    simp [Cell.compare, Datum.isNull, Affinity.comparing, Datum.order_int, Relator.holds]

theorem truth_activeOnExpr (table : String) (day : Value) (store : Store) (env : Env) :
    (activeOnExpr table day).truth store env =
      activeOnMeaning store day (env.cell (some table) "entry_at")
        (env.cell (some table) "leave_at") := by
  have hentered : (enteredExpr table day).truth store env =
      Cell.compare .le ((env.cell (some table) "entry_at").day store) (.ofValue day) :=
    Expr.truth_compare ..
  have hleft : (leftExpr table day).truth store env =
      Cell.compare .ge ((env.cell (some table) "leave_at").day store) (.ofValue day) :=
    Expr.truth_compare ..
  have hcase : (activeOnExpr table day).truth store env =
      if (env.cell (some table) "leave_at").datum.isNull then
        (enteredExpr table day).truth store env
      else ((enteredExpr table day).both (leftExpr table day)).truth store env := by
    have htest : (Expr.isNull (.column (some table) "leave_at") true).truth store env =
        some ((env.cell (some table) "leave_at").datum.isNull != true) :=
      Expr.truth_isNull ..
    rw [activeOnExpr, Expr.truth_caseOf, htest]
    cases (env.cell (some table) "leave_at").datum.isNull <;> rfl
  rw [hcase, Expr.truth_both, hentered, hleft]
  rfl

theorem truth_keysEqual {parent : String} {relation : Relation} {store : Store} {found : Table}
    (hfound : store.readable? none relation.table = some found)
    (h : relation.Apart store parent) (row : Row) (env : Env) :
    (keysEqual parent relation).truth store
        (Expr.innerLevel relation.table found.schema row :: env) =
      Cell.compare .eq (Env.cell (Expr.innerLevel relation.table found.schema row :: env)
        (some relation.table) relation.relatedKey) (env.cell (some parent) relation.parentKey) := by
  have hentries : ∀ entry ∈ (Expr.innerLevel relation.table found.schema row).scope.tables,
      Scope.isTable parent entry.1 entry.2 = false := by
    simpa [Expr.innerLevel] using h found hfound
  have hcell := Env.cell_apart _ env hentries relation.parentKey
  rw [← hcell]
  exact Expr.truth_compare ..

theorem truth_anyRow {parent : String} {relation : Relation} {store : Store} {env : Env}
    {test : Expr} {meaning : Env → Option Bool}
    (h : ∀ found row, store.readable? none relation.table = some found →
      test.truth store (Expr.innerLevel relation.table found.schema row :: env) =
        truthAnd (Cell.compare .eq
          (Env.cell (Expr.innerLevel relation.table found.schema row :: env)
            (some relation.table) relation.relatedKey) (env.cell (some parent) relation.parentKey))
          (meaning (Expr.innerLevel relation.table found.schema row :: env))) :
    (Expr.anyRow relation.table relation.table test).truth store env =
      relation.exists_ store env parent meaning := by
  rw [Expr.truth_anyRow, Relation.exists_]
  cases hfound : store.readable? none relation.table with
  | none => rfl
  | some found => simp only [Option.map_some, h found _ hfound]

end Test

/-- The clauses of plain names are read, and what is read says what the clauses mean. -/
theorem Criteria.expr?_meaning {criteria : Criteria} (hne : criteria ≠ [])
    (h : ∀ clause ∈ criteria, ∃ e, clause.2.expr? = some e ∧ ∀ store env,
      clause.2.Apart store → e.truth store env = clause.2.meaning store env) :
    ∃ e, Criteria.expr? criteria = some e ∧ ∀ store env,
      Criteria.Apart store criteria → e.truth store env = Criteria.meaning store env criteria := by
  have hitems : ∀ criteria : Criteria, (∀ clause ∈ criteria, ∃ e, clause.2.expr? = some e ∧
      ∀ store env, clause.2.Apart store → e.truth store env = clause.2.meaning store env) →
      ∃ items : List (Connector × Expr),
        Criteria.exprs criteria = items.map (fun item => (item.1, some item.2)) ∧
        ∀ store env, Criteria.Apart store criteria →
          items.map (fun item => (item.1, item.2.truth store env)) =
            Criteria.meanings store env criteria := by
    intro criteria h
    induction criteria with
    | nil => exact ⟨[], rfl, fun _ _ _ => rfl⟩
    | cons clause rest ih =>
      obtain ⟨connector, test⟩ := clause
      obtain ⟨e, he, htruth⟩ := h (connector, test) (by simp)
      obtain ⟨items, hitems, hmeanings⟩ := ih fun clause hmem => h clause (by simp [hmem])
      refine ⟨(connector, e) :: items, ?_, fun store env hapart => ?_⟩
      · have he' : test.expr? = some e := he
        simp [Criteria.exprs, he', hitems]
      · have hown := htruth store env hapart.1
        simp [Criteria.meanings, hown, hmeanings store env hapart.2]
  obtain ⟨items, hexprs, hmeanings⟩ := hitems criteria h
  have hitemsne : items ≠ [] := by
    rintro rfl
    cases criteria with
    | nil => exact hne rfl
    | cons clause rest => simp [Criteria.exprs] at hexprs
  obtain ⟨e, he, htruth⟩ := chain?_truth hitemsne
  refine ⟨e, ?_, fun store env hapart => ?_⟩
  · rw [Criteria.expr?, hexprs, he]
  · rw [htruth, hmeanings store env hapart]
    rfl

theorem Test.expr?_meaning {t : Test} (ht : t.Plain) :
    ∃ e, t.expr? = some e ∧ ∀ store env,
      t.Apart store → e.truth store env = t.meaning store env := by
  induction t using Test.nestedInduction with
  | raw => exact ht.elim
  | compare column op value =>
    obtain ⟨table, name, ts, hts, hexpr, _, _, hcell⟩ := columnExpr?_plain ht
    refine ⟨compareExpr op value (.column table name), by simp [Test.expr?, hts, hexpr],
      fun store env _ => ?_⟩
    rw [truth_compareExpr, Test.meaning, hcell]
    rfl
  | member column values negated =>
    by_cases hv : values = []
    · refine ⟨emptyMemberExpr negated, by simp [Test.expr?, hv], fun store env _ => ?_⟩
      subst hv
      rw [truth_emptyMemberExpr, Test.meaning]
      cases negated <;> rfl
    · obtain ⟨table, name, ts, hts, hexpr, _, _, hcell⟩ := columnExpr?_plain ht
      refine ⟨.member (.column table name) (values.map .bound) negated,
        by simp [Test.expr?, hv, hts, hexpr], fun store env _ => ?_⟩
      rw [Expr.truth_member, Expr.evalItems_bound, Test.meaning, hcell]
      rfl
  | between column low high negated =>
    obtain ⟨table, name, ts, hts, hexpr, _, _, hcell⟩ := columnExpr?_plain ht
    refine ⟨.between (.column table name) (.bound low) (.bound high) negated,
      by simp [Test.expr?, hts, hexpr], fun store env _ => ?_⟩
    rw [Expr.truth_between, Test.meaning, hcell]
    rfl
  | isNull column negated =>
    obtain ⟨table, name, ts, hts, hexpr, _, _, hcell⟩ := columnExpr?_plain ht
    refine ⟨.isNull (.column table name) negated, by simp [Test.expr?, hts, hexpr],
      fun store env _ => ?_⟩
    rw [Expr.truth_isNull, Test.meaning, hcell]
    rfl
  | date column op value =>
    obtain ⟨table, name, ts, hts, _, hday, _, hcell⟩ := columnExpr?_plain ht
    refine ⟨op.expr (.date (.column table name)) (.bound value), by simp [Test.expr?, hts, hday],
      fun store env _ => ?_⟩
    rw [Comparison.truth_expr, Test.meaning, hcell]
    rfl
  | contains column text =>
    obtain ⟨table, name, ts, hts, hexpr, _, _, hcell⟩ := columnExpr?_plain ht
    refine ⟨.like (.column table name) (.bound (.text (containsPattern text))) (some '\\') false,
      by simp [Test.expr?, hts, hexpr], fun store env _ => ?_⟩
    rw [Expr.truth_like, Test.meaning, hcell]
    rfl
  | activeOn table day =>
    exact ⟨activeOnExpr table day, rfl, fun store env _ => truth_activeOnExpr table day store env⟩
  | group clauses ih =>
    obtain ⟨hne, hplain⟩ := ht
    obtain ⟨ts, hts, hbegins⟩ := Criteria.tokens?_plain hne fun clause hmem =>
      Test.tokens?_plain (Criteria.plain_iff.mp hplain clause hmem)
    obtain ⟨e, he, htruth⟩ := Criteria.expr?_meaning hne fun clause hmem =>
      ih clause hmem (Criteria.plain_iff.mp hplain clause hmem)
    refine ⟨e, ?_, fun store env hapart => ?_⟩
    · rw [Criteria.expr?] at he
      simp [Test.expr?, hts, hbegins, he]
    · rw [htruth store env hapart]
      rfl
  | has parent relation clauses ih =>
    obtain ⟨hparent, hrelation, hplain⟩ := ht
    by_cases hempty : clauses = []
    · subst hempty
      refine ⟨.anyRow relation.table relation.table (keysEqual parent relation),
        by simp [Test.expr?], fun store env hapart => ?_⟩
      rw [Test.meaning]
      refine truth_anyRow fun found row hfound => ?_
      rw [truth_keysEqual hfound hapart.1]
      exact (truthAnd_true _).symm
    · obtain ⟨ts, hts, hbegins⟩ := Criteria.tokens?_plain hempty fun clause hmem =>
        Test.tokens?_plain (Criteria.plain_iff.mp hplain clause hmem)
      obtain ⟨e, he, htruth⟩ := Criteria.expr?_meaning hempty fun clause hmem =>
        ih clause hmem (Criteria.plain_iff.mp hplain clause hmem)
      refine ⟨.anyRow relation.table relation.table ((keysEqual parent relation).both e), ?_,
        fun store env hapart => ?_⟩
      · rw [Criteria.expr?] at he
        simp [Test.expr?, hempty, hts, hbegins, he]
      · rw [Test.meaning]
        refine truth_anyRow fun found row hfound => ?_
        rw [Expr.truth_both, truth_keysEqual hfound hapart.1, htruth store _ hapart.2]
        rfl

end TableQuery
