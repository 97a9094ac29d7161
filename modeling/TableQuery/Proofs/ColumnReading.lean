import TableQuery.Proofs.ClauseTokens

namespace TableQuery.Sql

theorem readOr_succ (fuel : Nat) (ts : List Token) :
    readOr (fuel + 1) ts = (readAnd fuel ts).bind fun found => readMoreOr fuel found.1 found.2 :=
  rfl

theorem readAnd_succ (fuel : Nat) (ts : List Token) :
    readAnd (fuel + 1) ts = (readNot fuel ts).bind fun found => readMoreAnd fuel found.1 found.2 :=
  rfl

theorem readInequality_succ (fuel : Nat) (ts : List Token) :
    readInequality (fuel + 1) ts =
      (readPrimary fuel ts).bind fun found => readMoreInequality fuel found.1 found.2 :=
  rfl

theorem readMoreInequality_cons (fuel : Nat) (e : Expr) (t : Token) (ts : List Token) :
    readMoreInequality (fuel + 1) e (t :: ts) =
      match inequality? t with
      | some relator =>
        (readPrimary fuel ts).bind fun found =>
          readMoreInequality fuel (.compare relator e found.1) found.2
      | none => some (e, t :: ts) :=
  rfl

theorem readMoreInequality_other {t : Token} (ht : inequality? t = none) (fuel : Nat) (e : Expr)
    (ts : List Token) : readMoreInequality (fuel + 1) e (t :: ts) = some (e, t :: ts) := by
  rw [readMoreInequality_cons, ht]

/-- A token that no reading goes on with. -/
def Token.isLoose : Token → Bool
  | .dot => true
  | .keyword .shown => true
  | .value _ => true
  | _ => false

theorem Token.isLoose_cases {t : Token} (ht : t.isLoose = true) :
    t = .dot ∨ t = .keyword .shown ∨ ∃ v, t = .value v := by
  unfold isLoose at ht
  split at ht
  next => exact .inl rfl
  next => exact .inr (.inl rfl)
  next v => exact .inr (.inr ⟨v, rfl⟩)
  next => simp at ht

/-- Nothing was read, or the reading came to a stand before a loose token. -/
def Stuck (found : Option (Expr × List Token)) : Prop :=
  ∀ e rest, found = some (e, rest) → ∃ t more, rest = t :: more ∧ t.isLoose = true

theorem stuck_none : Stuck none := by
  intro e rest h
  simp at h

theorem stuck_loose {t : Token} (ht : t.isLoose = true) (e : Expr) (more : List Token) :
    Stuck (some (e, t :: more)) := by
  intro e' rest h
  cases h
  exact ⟨t, more, rfl, ht⟩

theorem stuck_map_loose {t : Token} (ht : t.isLoose = true) (e : Option Expr) (more : List Token) :
    Stuck (e.map fun e => (e, t :: more)) := by
  cases e with
  | none => exact stuck_none
  | some e => exact stuck_loose ht e more

theorem Stuck.bind {found : Option (Expr × List Token)}
    {next : Expr × List Token → Option (Expr × List Token)} (h : Stuck found)
    (hnext : ∀ e t more, t.isLoose = true → Stuck (next (e, t :: more))) :
    Stuck (found.bind next) := by
  cases found with
  | none => exact stuck_none
  | some found =>
    obtain ⟨e, rest⟩ := found
    obtain ⟨t, more, rfl, ht⟩ := h e rest rfl
    exact hnext e t more ht

theorem stuck_readMoreInequality {t : Token} (ht : t.isLoose = true) (fuel : Nat) (e : Expr)
    (more : List Token) : Stuck (readMoreInequality fuel e (t :: more)) := by
  cases fuel with
  | zero => exact stuck_none
  | succ fuel =>
    have h : inequality? t = none := by
      rcases Token.isLoose_cases ht with rfl | rfl | ⟨v, rfl⟩ <;> rfl
    rw [readMoreInequality_other h]
    exact stuck_loose ht e more

theorem stuck_readTests {t : Token} (ht : t.isLoose = true) (fuel : Nat) (e : Expr)
    (more : List Token) : Stuck (readTests fuel e (t :: more)) := by
  cases fuel with
  | zero => exact stuck_none
  | succ fuel =>
    have h : readTests (fuel + 1) e (t :: more) = some (e, t :: more) := by
      rcases Token.isLoose_cases ht with rfl | rfl | ⟨v, rfl⟩ <;> rfl
    exact h ▸ stuck_loose ht e more

theorem stuck_readMoreAnd {t : Token} (ht : t.isLoose = true) (fuel : Nat) (e : Expr)
    (more : List Token) : Stuck (readMoreAnd fuel e (t :: more)) := by
  cases fuel with
  | zero => exact stuck_none
  | succ fuel =>
    have h : readMoreAnd (fuel + 1) e (t :: more) = some (e, t :: more) := by
      rcases Token.isLoose_cases ht with rfl | rfl | ⟨v, rfl⟩ <;> rfl
    exact h ▸ stuck_loose ht e more

theorem stuck_readMoreOr {t : Token} (ht : t.isLoose = true) (fuel : Nat) (e : Expr)
    (more : List Token) : Stuck (readMoreOr fuel e (t :: more)) := by
  cases fuel with
  | zero => exact stuck_none
  | succ fuel =>
    have h : readMoreOr (fuel + 1) e (t :: more) = some (e, t :: more) := by
      rcases Token.isLoose_cases ht with rfl | rfl | ⟨v, rfl⟩ <;> rfl
    exact h ▸ stuck_loose ht e more

/-- What was read is the expression, with the tokens behind it left; or the reading is stuck where
there is no expression. -/
def Agrees (found : Option (Expr × List Token)) (e : Option Expr) (rest : List Token) : Prop :=
  match e with
  | some e => found = some (e, rest)
  | none => Stuck found

/-- The expression that the tokens of a column stand for as one side of a test. -/
def columnExpr? : List Token → Option Expr
  | [column] =>
    if column = .keyword .null then some (.literal .null)
    else column.name?.bind (reference? none)
  | [table, .dot, column] =>
    table.name?.bind fun table => column.name?.bind (reference? (some table))
  | _ => none

/-- A token that can stand behind a column. -/
def Token.isBehindColumn : Token → Bool
  | .keyword .is => true
  | .keyword .not => true
  | .keyword .member => true
  | .keyword .between => true
  | .keyword .like => true
  | .eq => true
  | .ne => true
  | .lt => true
  | .le => true
  | .gt => true
  | .ge => true
  | .right => true
  | _ => false

theorem readColumn_alone {w next : Token} (hnext : next ≠ .dot) (more : List Token) :
    readColumn (w :: next :: more) =
      (w.name?.bind (reference? none)).map fun e => (e, next :: more) := by
  have h : readColumn (w :: next :: more) =
      w.name?.bind fun column => (reference? none column).bind fun e => some (e, next :: more) := by
    unfold readColumn
    split
    next h => simp_all
    next h => cases h; rfl
    next h => simp at h
  rw [h]
  cases w.name? with
  | none => rfl
  | some column => exact Option.map_eq_bind.symm

theorem readColumn_qualified (table column : Token) (rest : List Token) :
    readColumn (table :: .dot :: column :: rest) =
      (table.name?.bind fun table => column.name?.bind (reference? (some table))).map
        fun e => (e, rest) := by
  have h : readColumn (table :: .dot :: column :: rest) = table.name?.bind fun table =>
      column.name?.bind fun column => (reference? (some table) column).bind fun e =>
        some (e, rest) := rfl
  rw [h]
  cases table.name? with
  | none => rfl
  | some table =>
    cases column.name? with
    | none => rfl
    | some column => exact Option.map_eq_bind.symm

/-- A word is null, or else it begins a column, where nothing makes more of it. -/
theorem readPrimary_word {w next : Token} (hw : IsWord w) (hleft : next ≠ .left)
    (hwhen : next ≠ .keyword .when) (fuel : Nat) (more : List Token) :
    readPrimary (fuel + 1) (w :: next :: more) =
      if w = .keyword .null then some (.literal .null, next :: more)
      else readColumn (w :: next :: more) := by
  rcases hw with ⟨k, rfl⟩ | ⟨s, rfl⟩
  · have hcase : readCase fuel (next :: more) = none := by
      cases fuel with
      | zero => rfl
      | succ fuel => simp [readCase, hwhen]
    have hcolumn : readColumn (.keyword .caseOf :: next :: more) = none := by
      unfold readColumn
      split
      next h => cases h; rfl
      next h => cases h; rfl
      next h => simp at h
    cases k <;> simp [readPrimary, hcase, hcolumn, hleft]
  · simp [readPrimary, hleft]

theorem stuck_readPrimary_shown {w : Token} (hw : IsWord w) (fuel : Nat) (more : List Token) :
    Stuck (readPrimary (fuel + 1) (w :: .keyword .shown :: more)) := by
  rw [readPrimary_word hw (by simp) (by simp), readColumn_alone (by simp)]
  split
  next => exact stuck_loose rfl _ more
  next => exact stuck_map_loose rfl _ more

theorem readPrimary_qualified {t : Token} (ht : IsWord t) (c : Token) (fuel : Nat)
    (rest : List Token) :
    Agrees (readPrimary (fuel + 1) (t :: .dot :: c :: rest))
      (t.name?.bind fun table => c.name?.bind (reference? (some table))) rest := by
  rw [readPrimary_word ht (by simp) (by simp), readColumn_qualified]
  split
  next hnull =>
    subst hnull
    exact stuck_loose rfl _ _
  next =>
    cases t.name?.bind fun table => c.name?.bind (reference? (some table)) with
    | none => exact stuck_none
    | some e => rfl

/-- A column that stands for nothing leaves the reading stuck. -/
theorem readPrimary_column {ts : List Token} (hts : ColumnTokens ts) {next : Token}
    (hnext : next.isBehindColumn = true) (fuel : Nat) (more : List Token) :
    Agrees (readPrimary (fuel + 1) (ts ++ next :: more)) (columnExpr? ts) (next :: more) := by
  have hdot : next ≠ .dot := fun h => by simp [h, Token.isBehindColumn] at hnext
  have hleft : next ≠ .left := fun h => by simp [h, Token.isBehindColumn] at hnext
  have hwhen : next ≠ .keyword .when := fun h => by simp [h, Token.isBehindColumn] at hnext
  cases hts with
  | star =>
    have hread : readPrimary (fuel + 1) (.star :: next :: more) = none :=
      readColumn_alone hdot more
    exact hread ▸ stuck_none
  | @column w tail hw htail =>
    cases htail with
    | absent =>
      rw [List.cons_append, List.nil_append, readPrimary_word hw hleft hwhen]
      by_cases hnull : w = .keyword .null
      · subst hnull
        rfl
      · rw [if_neg hnull, readColumn_alone hdot]
        have hexpr : columnExpr? [w] = w.name?.bind (reference? none) := if_neg hnull
        rw [hexpr]
        cases w.name?.bind (reference? none) with
        | none => exact stuck_none
        | some e => rfl
    | @present v hv =>
      have hexpr : columnExpr? [w, .keyword .shown, v] = none := rfl
      rw [hexpr]
      exact stuck_readPrimary_shown hw fuel _
  | @qualified t w tail ht hw htail =>
    have hread := readPrimary_qualified ht w fuel (tail ++ next :: more)
    cases htail with
    | absent => exact hread
    | @present v hv =>
      have hexpr : columnExpr? [t, .dot, w, .keyword .shown, v] = none := rfl
      rw [hexpr]
      intro e rest h
      -- the name for the result is left over, which no reading goes on with
      cases hfound : t.name?.bind fun table => w.name?.bind (reference? (some table)) with
      | none => exact (hfound ▸ hread) e rest h
      | some found =>
        have hsome : _ = some (found, _) := hfound ▸ hread
        obtain ⟨_, rfl⟩ := Prod.mk.inj (Option.some.inj (hsome.symm.trans h))
        exact ⟨_, _, rfl, rfl⟩
  | @tableStar t tail ht htail =>
    have hread := readPrimary_qualified ht .star fuel (tail ++ next :: more)
    have hname : (t.name?.bind fun table =>
        Token.star.name?.bind (reference? (some table))) = none := by
      cases t.name? <;> rfl
    rw [hname] at hread
    have hexpr : columnExpr? (t :: .dot :: .star :: tail) = none := by
      cases htail with
      | absent => exact hname
      | present hv => rfl
    rw [hexpr]
    exact hread

theorem readNot_succ {t : Token} (ht : t ≠ .keyword .not) (fuel : Nat) (ts : List Token) :
    readNot (fuel + 1) (t :: ts) =
      (readInequality fuel (t :: ts)).bind fun found => readTests fuel found.1 found.2 := by
  unfold readNot
  split
  next h => exact absurd (List.cons.inj h).1 ht
  next => rfl

theorem readNot_not (fuel : Nat) (ts : List Token) :
    readNot (fuel + 1) (.keyword .not :: ts) =
      (readNot fuel ts).bind fun found => some (.not found.1, found.2) :=
  rfl

/-- A token that nothing begins with. -/
def Token.beginsNothing : Token → Bool
  | .keyword .is => true
  | .keyword .member => true
  | .keyword .between => true
  | .keyword .shown => true
  | .dot => true
  | .right => true
  | .eq => true
  | .ne => true
  | .lt => true
  | .le => true
  | .gt => true
  | .ge => true
  | _ => false

theorem readNot_nothing {t : Token} (ht : t.beginsNothing = true) (fuel : Nat) (ts : List Token) :
    readNot fuel (t :: ts) = none := by
  have hprimary : ∀ fuel, readPrimary fuel (t :: ts) = none := by
    intro fuel
    cases fuel with
    | zero => rfl
    | succ fuel =>
      have hname : t.name? = none := by
        unfold Token.beginsNothing at ht
        split at ht <;> simp_all [Token.name?]
      have hcolumn : readColumn (t :: ts) = none := by
        unfold readColumn
        split
        next h => cases h; simp [hname]
        next h => cases h; simp [hname]
        next h => simp at h
      unfold Token.beginsNothing at ht
      split at ht <;> simp_all [readPrimary]
  have hnot : t ≠ .keyword .not := fun h => by simp [h, Token.beginsNothing] at ht
  cases fuel with
  | zero => rfl
  | succ fuel =>
    rw [readNot_succ hnot]
    cases fuel with
    | zero => rfl
    | succ fuel => rw [readInequality_succ, hprimary, Option.bind_none, Option.bind_none]

/-- What stands behind a column is no test by itself. -/
def NoTest (ts : List Token) : Prop :=
  ∀ fuel, Stuck (readNot fuel ts)

theorem NoTest.of_nothing {t : Token} (ht : t.beginsNothing = true) (ts : List Token) :
    NoTest (t :: ts) := by
  intro fuel
  rw [readNot_nothing ht]
  exact stuck_none

theorem NoTest.not {ts : List Token} (h : NoTest ts) : NoTest (.keyword .not :: ts) := by
  intro fuel
  cases fuel with
  | zero => exact stuck_none
  | succ fuel =>
    rw [readNot_not]
    exact (h fuel).bind fun e t more ht => stuck_loose ht _ more

/-- The word of a pattern's test can be a column too, with the pattern left. -/
theorem NoTest.negated {t : Token} (ht : t.beginsNothing = true) (negated : Bool)
    (ts rest : List Token) : NoTest (Test.notTokens negated ++ t :: ts ++ rest) := by
  cases negated with
  | false => exact .of_nothing ht _
  | true => exact .not (.of_nothing ht _)

theorem NoTest.like (v : Value) (ts : List Token) :
    NoTest (.keyword .like :: .value v :: ts) := by
  intro fuel
  cases fuel with
  | zero => exact stuck_none
  | succ fuel =>
    rw [readNot_succ (by simp)]
    cases fuel with
    | zero => exact stuck_none
    | succ fuel =>
      rw [readInequality_succ]
      have hprimary : Stuck (readPrimary fuel (.keyword .like :: .value v :: ts)) := by
        cases fuel with
        | zero => exact stuck_none
        | succ fuel =>
          rw [readPrimary_word (.inl ⟨_, rfl⟩) (by simp) (by simp), readColumn_alone (by simp),
            if_neg (by simp)]
          exact stuck_map_loose (t := .value v) rfl _ ts
      exact (hprimary.bind fun e t more ht => stuck_readMoreInequality ht fuel e more).bind
        fun e t more ht => stuck_readTests ht _ e more

theorem Agrees.readNot {t : Token} (ht : t ≠ .keyword .not) {ts behind rest : List Token}
    {left : Option Expr} {fuel : Nat} {test : Expr → Expr}
    (hleft : Agrees (readPrimary (fuel + 1) (t :: ts)) left behind)
    (hread : ∀ e, ((readMoreInequality (fuel + 1) e behind).bind fun found =>
      readTests (fuel + 2) found.1 found.2) = some (test e, rest)) :
    Agrees (readNot (fuel + 3) (t :: ts)) (left.map test) rest := by
  rw [readNot_succ ht, readInequality_succ]
  cases left with
  | none =>
    have hstuck : Stuck (readPrimary (fuel + 1) (t :: ts)) := hleft
    exact (hstuck.bind fun e t more ht => stuck_readMoreInequality ht _ e more).bind
      fun e t more ht => stuck_readTests ht _ e more
  | some e =>
    have hsome : readPrimary (fuel + 1) (t :: ts) = some (e, behind) := hleft
    rw [hsome, Option.bind_some, hread]
    rfl

theorem readNot_column {ts : List Token} (hts : ColumnTokens ts) {next : Token}
    {more rest : List Token} (hnext : next.isBehindColumn = true) (hno : NoTest (next :: more))
    {fuel : Nat} {test : Expr → Expr}
    (hread : ∀ e, ((readMoreInequality (fuel + 1) e (next :: more)).bind fun found =>
      readTests (fuel + 2) found.1 found.2) = some (test e, rest)) :
    Agrees (readNot (fuel + 3) (ts ++ next :: more)) ((columnExpr? ts).map test) rest := by
  -- a column written `not` is taken for the negation, and no test stands behind it
  by_cases hnot : ts.head? = some (.keyword .not)
  · have hnone : columnExpr? ts = none ∧ ∃ us, ts = .keyword .not :: us ∧
        NoTest (us ++ next :: more) := by
      cases hts with
      | star => simp at hnot
      | column hw htail =>
        cases Option.some.inj hnot
        cases htail with
        | absent => exact ⟨rfl, _, rfl, hno⟩
        | present hv => exact ⟨rfl, _, rfl, .of_nothing rfl _⟩
      | qualified ht hw htail =>
        cases Option.some.inj hnot
        cases htail <;> exact ⟨rfl, _, rfl, .of_nothing rfl _⟩
      | tableStar ht htail =>
        cases Option.some.inj hnot
        cases htail <;> exact ⟨rfl, _, rfl, .of_nothing rfl _⟩
    obtain ⟨hexpr, us, rfl, hus⟩ := hnone
    rw [hexpr]
    exact hus.not _
  · have hne : ∃ t us, ts = t :: us ∧ t ≠ .keyword .not := by
      cases hts <;> simp_all
    obtain ⟨t, us, rfl, ht⟩ := hne
    exact Agrees.readNot ht (readPrimary_column hts hnext fuel more) hread

end TableQuery.Sql
