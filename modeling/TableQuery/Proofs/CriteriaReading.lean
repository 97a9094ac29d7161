import TableQuery.Proofs.ClauseReading

namespace TableQuery

open Sql

namespace Test

/-- Tokens behind a column that are its test. -/
structure IsTail (tail : List Token) (test : Expr → Expr) : Prop where
  behind : ∃ next more, tail = next :: more ∧ next.isBehindColumn = true
  noTest : ∀ rest, NoTest (tail ++ rest)
  reads : TailReads tail test

theorem IsTail.readsAs {tail ts : List Token} {test : Expr → Expr} (h : IsTail tail test)
    (hts : ColumnTokens ts) : ReadsAs (ts ++ tail) ((columnExpr? ts).map test) := by
  obtain ⟨next, more, rfl, hnext⟩ := h.behind
  exact readsAs_column hts hnext h.noTest h.reads

theorem isTail_sign (op : Comparison) (v : Value) :
    IsTail (op.tokens ++ [.value v]) fun e => op.expr e (.bound v) where
  behind := by cases op <;> exact ⟨_, _, rfl, rfl⟩
  noTest := by
    intro rest
    cases op with
    | like => exact .like v rest
    | notLike => exact .not (.like v rest)
    | _ => exact .of_nothing rfl _
  reads := tailReads_sign op v

theorem isTail_null (negated : Bool) : IsTail (nullTokens negated) fun e => .isNull e negated where
  behind := ⟨_, _, rfl, rfl⟩
  noTest := fun _ => .of_nothing rfl _
  reads := tailReads_null negated

theorem isTail_between (low high : Value) (negated : Bool) :
    IsTail (notTokens negated ++ [.keyword .between, .value low, .keyword .and, .value high])
      fun e => .between e (.bound low) (.bound high) negated where
  behind := by cases negated <;> exact ⟨_, _, rfl, rfl⟩
  noTest := .negated rfl negated _
  reads := tailReads_between low high negated

theorem isTail_contains (v : Value) :
    IsTail [.keyword .like, .value v, .keyword .escape, .text "\\"] fun e =>
      .like e (.bound v) (some '\\') false where
  behind := ⟨_, _, rfl, rfl⟩
  noTest := fun _ => .like v _
  reads := tailReads_contains v

theorem isTail_member (v : Value) (vs : List Value) (negated : Bool) :
    IsTail (notTokens negated ++ .keyword .member :: .left :: (valueList (v :: vs) ++ [.right]))
      fun e => .member e ((v :: vs).map .bound) negated where
  behind := by cases negated <;> exact ⟨_, _, rfl, rfl⟩
  noTest := .negated rfl negated _
  reads := tailReads_member v vs negated

/-- A comparison of two numbers that stands for the membership in no list. -/
def emptyMemberExpr (negated : Bool) : Expr :=
  .compare .eq (.literal (.int (if negated then 1 else 0))) (.literal (.int 1))

def enteredExpr (table : String) (day : Value) : Expr :=
  .compare .le (.date (.column (some table) "entry_at")) (.bound day)

def leftExpr (table : String) (day : Value) : Expr :=
  .compare .ge (.date (.column (some table) "leave_at")) (.bound day)

def activeOnExpr (table : String) (day : Value) : Expr :=
  .caseOf [(.isNull (.column (some table) "leave_at") true,
    (enteredExpr table day).both (leftExpr table day))] (enteredExpr table day)

end Test

mutual

/-- The expression that the text of a test is read as, if it can be read. -/
def Test.expr? : Test → Option Expr
  | .raw _ _ => none
  | .compare column op value =>
    ((Sql.tokens? column).bind columnExpr?).map (Test.compareExpr op value)
  | .member column values negated =>
    if values.isEmpty then some (Test.emptyMemberExpr negated)
    else ((Sql.tokens? column).bind columnExpr?).map fun e => .member e (values.map .bound) negated
  | .between column low high negated =>
    ((Sql.tokens? column).bind columnExpr?).map fun e =>
      .between e (.bound low) (.bound high) negated
  | .isNull column negated =>
    ((Sql.tokens? column).bind columnExpr?).map fun e => .isNull e negated
  | .date column op value =>
    ((Sql.tokens? column).bind dayExpr?).map fun e => op.expr e (.bound value)
  | .contains column text =>
    ((Sql.tokens? column).bind columnExpr?).map fun e =>
      .like e (.bound (.text (containsPattern text))) (some '\\') false
  | .activeOn table day => some (Test.activeOnExpr table day)
  | .group clauses =>
    (Criteria.tokens? clauses).bind fun ts =>
      if beginsQuery ts then none else chain? (Criteria.exprs clauses)
  | .has parent relation clauses =>
    if clauses.isEmpty then
      some (.anyRow relation.table relation.table (keysEqual parent relation))
    else
      (Criteria.tokens? clauses).bind fun ts =>
        if beginsQuery ts then none
        else (chain? (Criteria.exprs clauses)).map fun e =>
          .anyRow relation.table relation.table ((keysEqual parent relation).both e)

/-- The expressions of clauses with their connectors. -/
def Criteria.exprs : List (Connector × Test) → List (Connector × Option Expr)
  | [] => []
  | (connector, test) :: rest => (connector, test.expr?) :: Criteria.exprs rest

end

/-- The expression that the text of clauses is read as. -/
def Criteria.expr? (criteria : Criteria) : Option Expr :=
  chain? (Criteria.exprs criteria)

namespace Sql

/-- Tokens, filled with the values, are read as the test; without tokens there is none. -/
def IsRead (ts : Option (List Token)) (vs : List Value) (e : Option Expr) : Prop :=
  match ts with
  | none => e = none
  | some ts => ∃ us, Fills ts vs us ∧ ReadsAs us e

/-- The same of clauses. -/
def AreRead (ts : Option (List Token)) (vs : List Value) (e : Option Expr) : Prop :=
  match ts with
  | none => e = none
  | some ts => ∃ us, Fills ts vs us ∧ ReadsAsClauses us e

theorem ColumnTokens.unmarked {ts : List Token} (h : ColumnTokens ts) : .mark ∉ ts := by
  have hword : ∀ {w : Token}, IsWord w → w ≠ .mark := by
    rintro w (⟨k, rfl⟩ | ⟨s, rfl⟩) <;> simp
  have hshown : ∀ {tail : List Token}, ShownTokens tail → .mark ∉ tail := by
    intro tail htail
    cases htail with
    | absent => simp
    | present hw => simp [(hword hw).symm]
  cases h with
  | star => simp
  | column hw htail => simp [(hword hw).symm, hshown htail]
  | qualified ht hw htail => simp [(hword ht).symm, (hword hw).symm, hshown htail]
  | tableStar ht htail => simp [(hword ht).symm, hshown htail]

theorem isRead_column {column : String} (hcolumn : Identifier.valid column = true)
    {tail filled : List Token} {vs : List Value} {test : Expr → Expr}
    (hfills : Fills tail vs filled) (h : Test.IsTail filled test) :
    IsRead ((tokens? column).map (· ++ tail)) vs
      (((tokens? column).bind columnExpr?).map test) := by
  cases hts : tokens? column with
  | none => rfl
  | some ts =>
    have hcols := columnTokens_of_valid hcolumn hts
    exact ⟨ts ++ filled, (Fills.of_unmarked hcols.unmarked).append hfills, h.readsAs hcols⟩

end Sql

theorem Comparison.unmarked_tokens (op : Comparison) : .mark ∉ op.tokens := by
  cases op <;> simp [tokens]

namespace Test

theorem fills_sign (op : Comparison) (v : Value) :
    Fills (op.tokens ++ [.mark]) [v] (op.tokens ++ [.value v]) :=
  (Fills.of_unmarked op.unmarked_tokens).append (.mark v)

theorem isRead_compare {column : String} (hcolumn : Identifier.valid column = true)
    (op : Comparison) (value : Value) :
    IsRead ((Sql.tokens? column).map (· ++ compareTokens op value)) (compareValues op value)
      (((Sql.tokens? column).bind columnExpr?).map (compareExpr op value)) := by
  by_cases heq : op = .eq ∧ value = .null
  · obtain ⟨rfl, rfl⟩ := heq
    exact isRead_column hcolumn (.of_unmarked (by simp [compareTokens])) (isTail_null false)
  by_cases hne : op = .ne ∧ value = .null
  · obtain ⟨rfl, rfl⟩ := hne
    exact isRead_column hcolumn (.of_unmarked (by simp [compareTokens])) (isTail_null true)
  have htokens : compareTokens op value = op.tokens ++ [.mark] := by
    unfold compareTokens
    split <;> simp_all
  have hvalues : compareValues op value = [value] := by
    unfold compareValues
    split <;> simp_all
  have hexpr : compareExpr op value = fun e => op.expr e (.bound value) := by
    funext e
    unfold compareExpr
    split <;> simp_all
  rw [htokens, hvalues, hexpr]
  exact isRead_column hcolumn (fills_sign op value) (isTail_sign op value)

theorem fills_notTokens (negated : Bool) : Fills (notTokens negated) [] (notTokens negated) :=
  .of_unmarked (by cases negated <;> simp [notTokens])

theorem isRead_member {column : String} (hcolumn : Identifier.valid column = true)
    (values : List Value) (negated : Bool) :
    IsRead (if values.isEmpty then some (emptyMemberTokens negated)
        else (Sql.tokens? column).map (· ++ memberTokens values.length negated)) values
      (if values.isEmpty then some (emptyMemberExpr negated)
        else ((Sql.tokens? column).bind columnExpr?).map fun e =>
          .member e (values.map .bound) negated) := by
  cases values with
  | nil =>
    refine ⟨emptyMemberTokens negated, .of_unmarked (by simp [emptyMemberTokens]), ?_⟩
    intro fuel rest hfuel hrest
    simp only [emptyMemberTokens, List.length_cons, List.length_nil] at hfuel
    obtain ⟨k, rfl⟩ : ∃ k, fuel = k + 4 := ⟨fuel - 4, by omega⟩
    have hread : readNot (k + 4) (emptyMemberTokens negated ++ rest) =
        (readMoreInequality (k + 1) (.literal (.int 1)) rest).bind fun found =>
          readTests (k + 2) (.compare .eq (.literal (.int (if negated then 1 else 0))) found.1)
            found.2 := rfl
    rw [hread, readMoreInequality_behind hrest, Option.bind_some, readTests_behind hrest]
    rfl
  | cons v vs =>
    refine isRead_column hcolumn ?_ (isTail_member v vs negated)
    have h := ((fills_notTokens negated).append ((Fills.of_unmarked
      (l := [.keyword .member, .left]) (by simp)).append ((fills_markList (v :: vs)).append
        (Fills.of_unmarked (l := [.right]) (by simp)))))
    simpa [memberTokens] using h

theorem isRead_date {column : String} (hcolumn : Identifier.valid column = true) (op : Comparison)
    (v : Value) :
    IsRead ((Sql.tokens? column).map fun ts => dateTokens ts op) [v]
      (((Sql.tokens? column).bind dayExpr?).map fun e => op.expr e (.bound v)) := by
  cases hts : Sql.tokens? column with
  | none => rfl
  | some ts =>
    have hcols := columnTokens_of_valid hcolumn hts
    refine ⟨_, ?_, readsAs_date hcols op v⟩
    have h := (Fills.of_unmarked (l := [.name "DATE", .left]) (by simp)).append
      ((Fills.of_unmarked hcols.unmarked).append
        ((Fills.of_unmarked (l := [.right]) (by simp)).append (fills_sign op v)))
    simpa [dateTokens] using h

end Test

theorem Sql.beginsQuery_bindMarks (ts : List Token) (vs : List Value) :
    beginsQuery (bindMarks ts vs) = beginsQuery ts := by
  cases ts with
  | nil => rfl
  | cons t ts => cases t <;> cases vs <;> rfl

theorem Sql.chainFrom?_none {before : Option Expr} {e : Expr}
    {items : List (Connector × Option Expr)} (h : ∃ item ∈ items, item.2 = none) :
    chainFrom? before e items = none := by
  induction items generalizing before e with
  | nil => simp at h
  | cons item items ih =>
    obtain ⟨connector, next⟩ := item
    cases next with
    | none => cases connector <;> rfl
    | some next =>
      have hrest : ∃ item ∈ items, item.2 = none := by simpa using h
      cases connector <;> exact ih hrest

namespace Criteria

theorem items_of_restTokens? {criteria : Criteria} {ts : List Token}
    (h : ∀ clause ∈ criteria, IsRead clause.2.tokens? clause.2.bindings clause.2.expr?)
    (hts : restTokens? criteria = some ts) :
    ∃ items : List Item, itemExprs items = exprs criteria ∧
      (∀ item ∈ items, ReadsAs item.tokens item.expr) ∧
      Fills ts (bindings criteria) (itemTokens items) := by
  induction criteria generalizing ts with
  | nil =>
    cases Option.some.inj hts
    exact ⟨[], rfl, by simp, .of_unmarked (by simp)⟩
  | cons clause criteria ih =>
    obtain ⟨connector, test⟩ := clause
    obtain ⟨own, hown, hmore⟩ := Option.bind_eq_some_iff.mp hts
    obtain ⟨more, hrest, rfl⟩ := Option.map_eq_some_iff.mp hmore
    obtain ⟨items, hexprs, hreads, hfills⟩ :=
      ih (fun clause hmem => h clause (by simp [hmem])) hrest
    have htest := h (connector, test) (by simp)
    simp only [hown] at htest
    obtain ⟨us, hus, hread⟩ := htest
    refine ⟨⟨connector, us, test.expr?⟩ :: items, ?_, ?_, ?_⟩
    · simp [itemExprs, exprs, ← hexprs]
    · simpa using ⟨hread, hreads⟩
    · have hconnector : Fills [connector.token] [] [connector.token] :=
        .of_unmarked (by cases connector <;> simp [Connector.token])
      exact hconnector.append (hus.append hfills)

theorem exprs_none {criteria : Criteria}
    (h : ∀ clause ∈ criteria, IsRead clause.2.tokens? clause.2.bindings clause.2.expr?)
    (hnone : restTokens? criteria = none) : ∃ item ∈ exprs criteria, item.2 = none := by
  induction criteria with
  | nil => simp [restTokens?] at hnone
  | cons clause criteria ih =>
    obtain ⟨connector, test⟩ := clause
    have htest := h (connector, test) (by simp)
    cases hown : test.tokens? with
    | none =>
      simp only [hown] at htest
      exact ⟨(connector, test.expr?), by simp [exprs], htest⟩
    | some own =>
      have hrest : restTokens? criteria = none := by
        simpa [restTokens?, hown] using hnone
      obtain ⟨item, hmem, hitem⟩ := ih (fun clause hmem => h clause (by simp [hmem])) hrest
      exact ⟨item, by simp [exprs, hmem], hitem⟩

theorem areRead {criteria : Criteria} (hne : criteria ≠ [])
    (h : ∀ clause ∈ criteria, IsRead clause.2.tokens? clause.2.bindings clause.2.expr?) :
    AreRead (tokens? criteria) (bindings criteria) (expr? criteria) := by
  cases criteria with
  | nil => simp at hne
  | cons clause criteria =>
    obtain ⟨connector, test⟩ := clause
    have htest := h (connector, test) (by simp)
    have hrest := fun clause hmem => h clause (List.mem_cons_of_mem (connector, test) hmem)
    have hchain : expr? ((connector, test) :: criteria) =
        test.expr?.bind fun first => chainFrom? none first (exprs criteria) := rfl
    cases hown : test.tokens? with
    | none =>
      simp only [hown] at htest
      have hexpr : test.expr? = none := htest
      simp [tokens?, hown, AreRead, hchain, hexpr]
    | some own =>
      simp only [hown] at htest
      obtain ⟨us, hus, hread⟩ := htest
      cases hmore : restTokens? criteria with
      | none =>
        have hnone := exprs_none hrest hmore
        simp [tokens?, hown, hmore, AreRead, hchain, chainFrom?_none hnone]
      | some more =>
        obtain ⟨items, hexprs, hreads, hfills⟩ := items_of_restTokens? hrest hmore
        have hfirst := readsAsClauses_chain ⟨connector, us, test.expr?⟩ items
          (by simpa using ⟨hread, hreads⟩)
        have hitems : chain? (itemExprs (⟨connector, us, test.expr?⟩ :: items)) =
            expr? ((connector, test) :: criteria) := by
          rw [hchain, ← hexprs]
          rfl
        rw [hitems] at hfirst
        have htokens : tokens? ((connector, test) :: criteria) = some (own ++ more) := by
          simp [tokens?, hown, hmore]
        rw [htokens]
        exact ⟨us ++ itemTokens items, hus.append hfills, hfirst⟩

end Criteria

namespace Sql

theorem ReadsAs.clauses {ts : List Token} {e : Option Expr} (h : ReadsAs ts e) :
    ReadsAsClauses ts e := by
  have hchain := readsAsClauses_chain ⟨.and, ts, e⟩ [] (by simpa using h)
  have hexpr : chain? (itemExprs [⟨.and, ts, e⟩]) = e := by
    cases e <;> rfl
  rw [hexpr] at hchain
  simpa [itemTokens] using hchain

theorem ReadsAs.and {ts us : List Token} {a : Expr} {b : Option Expr} (ha : ReadsAs ts (some a))
    (hb : ReadsAs us b) :
    ReadsAsClauses (ts ++ .keyword .and :: us) (b.map a.both) := by
  have hchain := readsAsClauses_chain ⟨.and, ts, some a⟩ [⟨.and, us, b⟩]
    (by simpa using ⟨ha, hb⟩)
  have hexpr : chain? (itemExprs [⟨.and, ts, some a⟩, ⟨.and, us, b⟩]) = b.map a.both := by
    cases b <;> rfl
  rw [hexpr] at hchain
  simpa [itemTokens, Connector.token] using hchain

theorem columnTokens_qualified (table name : String) :
    ColumnTokens (Test.columnTokens table name) :=
  .qualified (.inr ⟨_, rfl⟩) (.inr ⟨_, rfl⟩) .absent

theorem columnExpr?_qualified {table : String} (ht : IsPlain table) (name : String) :
    columnExpr? (Test.columnTokens table name) = some (.column (some table) name) := by
  have hcolumn : reference? (some table) name = some (.column (some table) name) :=
    reference?_plain ht
  simp [Test.columnTokens, columnExpr?, Token.name?, hcolumn]

theorem dayExpr?_qualified {table : String} (ht : IsPlain table) (name : String) :
    dayExpr? (Test.columnTokens table name) = some (.date (.column (some table) name)) := by
  have h : dayExpr? (Test.columnTokens table name) =
      (columnExpr? (Test.columnTokens table name)).map .date := rfl
  rw [h, columnExpr?_qualified ht]
  rfl

end Sql

namespace Test

theorem isRead_activeOn {table : String} (ht : IsPlain table) (day : Value) :
    IsRead (some (activeOnTokens table)) [day, day, day] (some (activeOnExpr table day)) := by
  have hcols := columnTokens_qualified table
  have hnull := (isTail_null true).readsAs (hcols "leave_at")
  rw [columnExpr?_qualified ht] at hnull
  have hentered := readsAs_date (hcols "entry_at") .le day
  rw [dayExpr?_qualified ht] at hentered
  have hleft := readsAs_date (hcols "leave_at") .ge day
  rw [dayExpr?_qualified ht] at hleft
  have hcase := readsAs_case hnull.clauses (hentered.and hleft) hentered.clauses
  refine ⟨_, ?_, readsAs_group hcase.clauses⟩
  have hdate : ∀ name op, Fills (dateTokens (columnTokens table name) op) [day]
      ([.name "DATE", .left] ++ columnTokens table name ++ [.right] ++ op.tokens ++
        [.value day]) := by
    intro name op
    have h := (Fills.of_unmarked (l := [.name "DATE", .left] ++ columnTokens table name ++ [.right])
      (by simp [columnTokens])).append (fills_sign op day)
    simpa [dateTokens] using h
  have hopen : Fills ([.left, .keyword .caseOf, .keyword .when] ++ columnTokens table "leave_at" ++
      nullTokens true ++ [.keyword .thenArm]) [] _ :=
    .of_unmarked (by simp [columnTokens, nullTokens, notTokens])
  have hand : Fills [.keyword .and] [] _ := .of_unmarked (by simp)
  have helse : Fills [.keyword .elseArm] [] _ := .of_unmarked (by simp)
  have hend : Fills [.keyword .endCase, .right] [] _ := .of_unmarked (by simp)
  have h := hopen.append ((hdate "entry_at" .le).append (hand.append
    ((hdate "leave_at" .ge).append (helse.append ((hdate "entry_at" .le).append hend)))))
  simpa [activeOnTokens] using h

theorem isRead_group {clauses : Criteria}
    (h : AreRead (Criteria.tokens? clauses) (Criteria.bindings clauses) (Criteria.expr? clauses)) :
    IsRead ((Criteria.tokens? clauses).map fun ts => .left :: ts ++ [.right])
      (Criteria.bindings clauses)
      ((Criteria.tokens? clauses).bind fun ts =>
        if beginsQuery ts then none else Criteria.expr? clauses) := by
  cases hts : Criteria.tokens? clauses with
  | none => rfl
  | some ts =>
    rw [hts] at h
    obtain ⟨us, hfills, hread⟩ := h
    refine ⟨.left :: us ++ [.right], ?_, ?_⟩
    · have hleft : Fills [.left] [] _ := .of_unmarked (by simp)
      have hright : Fills [.right] [] _ := .of_unmarked (by simp)
      simpa using hleft.append (hfills.append hright)
    · have hbegins : beginsQuery us = beginsQuery ts := hfills.eq ▸ beginsQuery_bindMarks ts _
      rw [Option.bind_some, ← hbegins]
      exact readsAs_group hread

theorem unmarked_hasTokens (parent : String) (relation : Relation) :
    .mark ∉ hasTokens parent relation := by
  simp [hasTokens, columnTokens]

theorem isRead_has {parent : String} {relation : Relation} {clauses : Criteria}
    (hp : IsPlain parent) (hr : relation.Plain)
    (h : clauses ≠ [] →
      AreRead (Criteria.tokens? clauses) (Criteria.bindings clauses) (Criteria.expr? clauses)) :
    IsRead (Test.has parent relation clauses).tokens? (Criteria.bindings clauses)
      (Test.has parent relation clauses).expr? := by
  have hkeys := readsAs_keysEqual hp hr
  have hopen := Fills.of_unmarked (unmarked_hasTokens parent relation)
  by_cases hempty : clauses = []
  · subst hempty
    refine ⟨hasTokens parent relation ++ [.right], ?_, ?_⟩
    · exact hopen.append (.of_unmarked (by simp))
    · have hread := readsAs_exists relation.table hkeys.clauses
      simpa [hasTokens, Test.expr?] using hread
  · have hgroup := isRead_group (h hempty)
    cases hts : Criteria.tokens? clauses with
    | none => simp [Test.tokens?, Test.expr?, hempty, hts, IsRead]
    | some ts =>
      rw [hts] at hgroup
      obtain ⟨us, hfills, hread⟩ := hgroup
      have hexists := readsAs_exists relation.table (hkeys.and hread)
      have htokens : (Test.has parent relation clauses).tokens? = some (hasTokens parent relation ++
          ([.keyword .and] ++ ((.left :: ts ++ [.right]) ++ [.right]))) := by
        simp [Test.tokens?, hempty, hts]
      have hexpr : (Test.has parent relation clauses).expr? =
          (((some ts).bind fun ts => if beginsQuery ts then none else Criteria.expr? clauses).map
            (keysEqual parent relation).both).map fun e =>
              .anyRow relation.table relation.table e := by
        simp only [Test.expr?, hempty, hts, Criteria.expr?, List.isEmpty_iff, ↓reduceIte,
          Option.bind_some]
        split <;> simp [Function.comp_def]
      rw [htokens, hexpr]
      have hand : Fills [.keyword .and] [] [.keyword .and] := .of_unmarked (by simp)
      have hclose : Fills [.right] [] [.right] := .of_unmarked (by simp)
      have hfilled := hopen.append (hand.append (hfills.append hclose))
      rw [List.nil_append, List.nil_append, List.append_nil] at hfilled
      refine ⟨_, hfilled, ?_⟩
      simpa [hasTokens] using hexists

end Test

theorem Test.isRead {t : Test} (ht : t.Checked) : IsRead t.tokens? t.bindings t.expr? := by
  induction t using Test.nestedInduction with
  | raw => exact ht.elim
  | compare column op value => exact isRead_compare ht op value
  | member column values negated => exact isRead_member ht values negated
  | between column low high negated =>
    have hfills := (fills_notTokens negated).append ((Fills.of_unmarked
      (l := [.keyword .between]) (by simp)).append ((Fills.mark low).append ((Fills.of_unmarked
        (l := [.keyword .and]) (by simp)).append (Fills.mark high))))
    exact isRead_column ht hfills (isTail_between low high negated)
  | isNull column negated =>
    have hfills : Fills (nullTokens negated) [] (nullTokens negated) :=
      .of_unmarked (by cases negated <;> simp [nullTokens, notTokens])
    exact isRead_column ht hfills (isTail_null negated)
  | date column op value => exact isRead_date ht op value
  | contains column text =>
    have hfills := (Fills.of_unmarked (l := [.keyword .like]) (by simp)).append
      ((Fills.mark (.text (containsPattern text))).append
        (Fills.of_unmarked (l := [.keyword .escape, .text "\\"]) (by simp)))
    exact isRead_column ht hfills (isTail_contains _)
  | activeOn table day => exact isRead_activeOn ht day
  | group clauses ih =>
    exact isRead_group (Criteria.areRead ht.1 fun clause hmem =>
      ih clause hmem (Criteria.checked_iff.mp ht.2 clause hmem))
  | has parent relation clauses ih =>
    exact isRead_has ht.1 ht.2.1 fun hne => Criteria.areRead hne fun clause hmem =>
      ih clause hmem (Criteria.checked_iff.mp ht.2.2 clause hmem)

/-- The text of clauses, with their values in the places of the placeholders, is read as the
expression of the clauses. -/
theorem Criteria.readTest?_text {criteria : Criteria} (hne : criteria ≠ [])
    (h : Criteria.Checked criteria) :
    readTest? (Criteria.text criteria) (Criteria.bindings criteria) = Criteria.expr? criteria := by
  have hread := Criteria.areRead hne fun clause hmem =>
    Test.isRead (Criteria.checked_iff.mp h clause hmem)
  unfold readTest?
  rw [Criteria.tokens?_text h]
  cases hts : Criteria.tokens? criteria with
  | none =>
    rw [hts] at hread
    have hnone : Criteria.expr? criteria = none := hread
    rw [hnone]
    rfl
  | some ts =>
    rw [hts] at hread
    obtain ⟨us, hfills, hread⟩ := hread
    have hagrees := hread (readingFuel us) [] (by simp only [readingFuel]; omega)
      (by simp [BehindClauses, BehindTest])
    rw [List.append_nil] at hagrees
    simp only [Option.bind_eq_bind, Option.bind_some, hfills.eq]
    -- a stuck reading leaves a token behind, so it is no reading of the whole text
    cases hexpr : Criteria.expr? criteria with
    | none =>
      rw [hexpr] at hagrees
      have hstuck : Stuck (readOr (readingFuel us) us) := hagrees
      split
      next e hfound =>
        obtain ⟨t, more, hnil, _⟩ := hstuck e [] hfound
        simp at hnil
      next => rfl
    | some e =>
      rw [hexpr] at hagrees
      have hsome : readOr (readingFuel us) us = some (e, []) := hagrees
      rw [hsome]

end TableQuery
