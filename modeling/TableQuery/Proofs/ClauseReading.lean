import TableQuery.Proofs.ColumnReading

namespace TableQuery

namespace Sql

/-- A token that can stand behind a whole test. -/
def Token.endsTest : Token → Bool
  | .keyword .and => true
  | .keyword .or => true
  | .keyword .thenArm => true
  | .keyword .elseArm => true
  | .keyword .endCase => true
  | .right => true
  | .comma => true
  | _ => false

theorem Token.endsTest_cases {t : Token} (ht : t.endsTest = true) :
    (∃ k, t = .keyword k ∧ (k = .and ∨ k = .or ∨ k = .thenArm ∨ k = .elseArm ∨ k = .endCase)) ∨
      t = .right ∨ t = .comma := by
  unfold endsTest at ht
  split at ht <;> simp_all

/-- Tokens that a test leaves when it stands before them. -/
def BehindTest (ts : List Token) : Prop :=
  ∀ t ∈ ts.head?, t.endsTest = true

theorem behindTest_cons {t : Token} {ts : List Token} :
    BehindTest (t :: ts) ↔ t.endsTest = true := by
  simp [BehindTest]

/-- Tokens that clauses leave when they stand before them. -/
def BehindClauses (ts : List Token) : Prop :=
  BehindTest ts ∧ ts.head? ≠ some (.keyword .and) ∧ ts.head? ≠ some (.keyword .or)

theorem BehindClauses.right (ts : List Token) : BehindClauses (.right :: ts) := by
  simp [BehindClauses, BehindTest, Token.endsTest]

theorem readMoreInequality_behind {ts : List Token} (h : BehindTest ts) (fuel : Nat) (e : Expr) :
    readMoreInequality (fuel + 1) e ts = some (e, ts) := by
  cases ts with
  | nil => rfl
  | cons t ts =>
    have ht := behindTest_cons.mp h
    have hnone : inequality? t = none := by
      rcases Token.endsTest_cases ht with ⟨k, rfl, _⟩ | rfl | rfl <;> rfl
    exact readMoreInequality_other hnone fuel e ts

theorem readTests_behind {ts : List Token} (h : BehindTest ts) (fuel : Nat) (e : Expr) :
    readTests (fuel + 1) e ts = some (e, ts) := by
  cases ts with
  | nil => rfl
  | cons t ts =>
    have ht := behindTest_cons.mp h
    rcases Token.endsTest_cases ht with ⟨k, rfl, hk⟩ | rfl | rfl
    · rcases hk with rfl | rfl | rfl | rfl | rfl <;> rfl
    · rfl
    · rfl

theorem readEscape_behind {ts : List Token} (h : BehindTest ts) :
    readEscape ts = some (none, ts) := by
  cases ts with
  | nil => rfl
  | cons t ts =>
    have ht := behindTest_cons.mp h
    rcases Token.endsTest_cases ht with ⟨k, rfl, hk⟩ | rfl | rfl
    · rcases hk with rfl | rfl | rfl | rfl | rfl <;> rfl
    · rfl
    · rfl

theorem readInequality_bound {ts : List Token} (h : BehindTest ts) (fuel : Nat) (v : Value) :
    readInequality (fuel + 2) (.value v :: ts) = some (.bound v, ts) := by
  rw [readInequality_succ]
  exact readMoreInequality_behind h fuel (.bound v)

theorem readMoreInequality_value {t : Token} {r : Relator} (ht : inequality? t = some r)
    {ts : List Token} (hts : BehindTest ts) (fuel : Nat) (e : Expr) (v : Value) :
    readMoreInequality (fuel + 2) e (t :: .value v :: ts) =
      some (.compare r e (.bound v), ts) := by
  have h : readMoreInequality (fuel + 2) e (t :: .value v :: ts) =
      readMoreInequality (fuel + 1) (.compare r e (.bound v)) ts := by
    rw [readMoreInequality_cons, ht]
    rfl
  rw [h, readMoreInequality_behind hts]

theorem equality?_cases {t : Token} {r : Relator} (ht : equality? t = some r) :
    t = .eq ∧ r = .eq ∨ t = .ne ∧ r = .ne := by
  unfold equality? at ht
  split at ht
  next => exact .inl ⟨rfl, (Option.some.inj ht).symm⟩
  next => exact .inr ⟨rfl, (Option.some.inj ht).symm⟩
  next => simp at ht

theorem readTests_value {t : Token} {r : Relator} (ht : equality? t = some r) {ts : List Token}
    (hts : BehindTest ts) (fuel : Nat) (e : Expr) (v : Value) :
    readTests (fuel + 3) e (t :: .value v :: ts) = some (.compare r e (.bound v), ts) := by
  have h : readTests (fuel + 3) e (t :: .value v :: ts) =
      (readInequality (fuel + 2) (.value v :: ts)).bind fun found =>
        readTests (fuel + 2) (.compare r e found.1) found.2 := by
    rcases equality?_cases ht with ⟨rfl, rfl⟩ | ⟨rfl, rfl⟩ <;> rfl
  rw [h, readInequality_bound hts, Option.bind_some, readTests_behind hts]

theorem readMoreAnd_other {ts : List Token} (h : ts.head? ≠ some (.keyword .and)) (fuel : Nat)
    (e : Expr) : readMoreAnd (fuel + 1) e ts = some (e, ts) := by
  unfold readMoreAnd
  split
  next => exact absurd rfl h
  next => rfl

theorem readMoreOr_other {ts : List Token} (h : ts.head? ≠ some (.keyword .or)) (fuel : Nat)
    (e : Expr) : readMoreOr (fuel + 1) e ts = some (e, ts) := by
  unfold readMoreOr
  split
  next => exact absurd rfl h
  next => rfl

theorem Stuck.clauses {found : Option (Expr × List Token)} (h : Stuck found)
    (conjoined joined : Nat) (f g : Expr → Expr) :
    Stuck ((found.bind fun found => readMoreAnd conjoined (f found.1) found.2).bind fun found =>
      readMoreOr joined (g found.1) found.2) :=
  (h.bind fun e _ more ht => stuck_readMoreAnd ht conjoined (f e) more).bind
    fun e _ more ht => stuck_readMoreOr ht joined (g e) more

theorem readOr_single {fuel : Nat} {e : Option Expr} {ts rest : List Token}
    (h : Agrees (readNot (fuel + 1) ts) e rest) (hrest : BehindClauses rest) :
    Agrees (readOr (fuel + 3) ts) e rest := by
  rw [readOr_succ, readAnd_succ]
  cases e with
  | none =>
    have hstuck : Stuck (readNot (fuel + 1) ts) := h
    exact hstuck.clauses _ _ id id
  | some e =>
    have hsome : readNot (fuel + 1) ts = some (e, rest) := h
    rw [hsome, Option.bind_some, readMoreAnd_other hrest.2.1, Option.bind_some,
      readMoreOr_other hrest.2.2]
    rfl

theorem readNot_value {ts : List Token} (h : BehindTest ts) (fuel : Nat) (v : Value) :
    readNot (fuel + 3) (.value v :: ts) = some (.bound v, ts) := by
  rw [readNot_succ (by simp), readInequality_bound h, Option.bind_some, readTests_behind h]

/-- The tokens of values with commas between them. -/
def valueList : List Value → List Token
  | [] => []
  | [v] => [.value v]
  | v :: w :: rest => .value v :: .comma :: valueList (w :: rest)

theorem length_lt_valueList (v : Value) (vs : List Value) :
    vs.length < (valueList (v :: vs)).length := by
  induction vs generalizing v with
  | nil => simp [valueList]
  | cons w vs ih =>
    have h := ih w
    simp only [valueList, List.length_cons] at h ⊢
    omega

theorem readItems_succ (fuel : Nat) (ts : List Token) :
    readItems (fuel + 1) ts = (readOr fuel ts).bind fun found =>
      match found.2 with
      | .comma :: rest =>
        (readItems fuel rest).bind fun items => some (found.1 :: items.1, items.2)
      | .right :: rest => some ([found.1], rest)
      | _ => none :=
  rfl

theorem readItems_valueList (v : Value) (vs : List Value) (fuel : Nat) (rest : List Token) :
    readItems (vs.length + fuel + 6) (valueList (v :: vs) ++ .right :: rest) =
      some ((v :: vs).map .bound, rest) := by
  have hvalue : ∀ fuel (v : Value) (t : Token) (ts : List Token), BehindClauses (t :: ts) →
      readOr (fuel + 5) (.value v :: t :: ts) = some (.bound v, t :: ts) := by
    intro fuel v t ts h
    exact readOr_single (e := some (.bound v)) (readNot_value h.1 fuel v) h
  induction vs generalizing v with
  | nil =>
    have h := hvalue fuel v .right rest (.right rest)
    have hread := readItems_succ (fuel + 5) (.value v :: .right :: rest)
    rw [h] at hread
    simpa [valueList] using hread
  | cons w vs ih =>
    have h := hvalue (vs.length + fuel + 1) v .comma (valueList (w :: vs) ++ .right :: rest)
      (by simp [BehindClauses, BehindTest, Token.endsTest])
    have hread := readItems_succ (vs.length + fuel + 6)
      (.value v :: .comma :: (valueList (w :: vs) ++ .right :: rest))
    have hlength : (w :: vs).length + fuel + 6 = vs.length + fuel + 7 := by
      simp only [List.length_cons]
      omega
    rw [h] at hread
    rw [hlength]
    simpa [valueList, ih w] using hread

end Sql

open Sql

/-- The expression of a comparison of two sides. -/
def Comparison.expr (op : Comparison) (a b : Expr) : Expr :=
  match op with
  | eq => .compare .eq a b
  | ne => .compare .ne a b
  | gt => .compare .gt a b
  | ge => .compare .ge a b
  | lt => .compare .lt a b
  | le => .compare .le a b
  | like => .like a b none false
  | notLike => .like a b none true

namespace Test

def compareExpr (op : Comparison) (value : Value) (e : Expr) : Expr :=
  match op, value with
  | .eq, .null => .isNull e false
  | .ne, .null => .isNull e true
  | op, value => op.expr e (.bound value)

/-- What is read behind the left side of a test, whatever the left side is. -/
def TailReads (tail : List Token) (test : Expr → Expr) : Prop :=
  ∀ fuel rest e, 8 * tail.length ≤ fuel + 8 → BehindTest rest →
    ((readMoreInequality (fuel + 1) e (tail ++ rest)).bind fun found =>
      readTests (fuel + 2) found.1 found.2) = some (test e, rest)

/-- The words of tests that can be negated. -/
def isNegatable : Token → Bool
  | .keyword .member => true
  | .keyword .between => true
  | .keyword .like => true
  | _ => false

theorem isNegatable_cases {t : Token} (ht : isNegatable t = true) :
    t = .keyword .member ∨ t = .keyword .between ∨ t = .keyword .like := by
  unfold isNegatable at ht
  split at ht <;> simp_all

theorem TailReads.negatable {t : Token} (ht : isNegatable t = true) {tail : List Token}
    {test : Expr → Expr} (negated : Bool)
    (h : ∀ fuel rest e, 8 * tail.length ≤ fuel → BehindTest rest →
      readNegatable (fuel + 1) e negated (t :: tail ++ rest) = some (test e, rest)) :
    TailReads (notTokens negated ++ t :: tail) test := by
  intro fuel rest e hfuel hrest
  have hother : inequality? t = none := by
    rcases isNegatable_cases ht with rfl | rfl | rfl <;> rfl
  cases negated with
  | false =>
    have hneg := h fuel rest e (by simp [notTokens] at hfuel; omega) hrest
    have hread : readTests (fuel + 2) e (t :: tail ++ rest) =
        (readNegatable (fuel + 1) e false (t :: tail ++ rest)).bind fun found =>
          readTests (fuel + 1) found.1 found.2 := by
      rcases isNegatable_cases ht with rfl | rfl | rfl <;> rfl
    simp only [notTokens, Bool.false_eq_true, ↓reduceIte, List.nil_append, List.cons_append]
    rw [readMoreInequality_other hother, Option.bind_some]
    rwa [hneg, Option.bind_some, readTests_behind hrest] at hread
  | true =>
    have hneg := h fuel rest e (by simp [notTokens] at hfuel; omega) hrest
    have hread : readTests (fuel + 2) e (.keyword .not :: (t :: tail ++ rest)) =
        (readNegatable (fuel + 1) e true (t :: tail ++ rest)).bind fun found =>
          readTests (fuel + 1) found.1 found.2 := rfl
    simp only [notTokens, ↓reduceIte, List.cons_append, List.nil_append]
    rw [readMoreInequality_other rfl, Option.bind_some]
    rwa [hneg, Option.bind_some, readTests_behind hrest] at hread

theorem tailReads_like (v : Value) (negated : Bool) :
    TailReads (notTokens negated ++ [.keyword .like, .value v]) fun e =>
      .like e (.bound v) none negated := by
  refine TailReads.negatable rfl negated fun fuel rest e hfuel hrest => ?_
  obtain ⟨k, rfl⟩ : ∃ k, fuel = k + 2 := ⟨fuel - 2, by simp at hfuel; omega⟩
  have h : readNegatable (k + 3) e negated (.keyword .like :: .value v :: rest) =
      (readInequality (k + 2) (.value v :: rest)).bind fun found =>
        (readEscape found.2).bind fun escape =>
          some (.like e found.1 escape.1 negated, escape.2) := rfl
  simpa [readInequality_bound hrest, readEscape_behind hrest] using h

theorem tailReads_sign (op : Comparison) (v : Value) :
    TailReads (op.tokens ++ [.value v]) fun e => op.expr e (.bound v) := by
  have hequal : ∀ {t : Token} {r : Relator}, equality? t = some r →
      TailReads [t, .value v] fun e => .compare r e (.bound v) := by
    intro t r ht fuel rest e hfuel hrest
    have hother : inequality? t = none := by
      rcases equality?_cases ht with ⟨rfl, _⟩ | ⟨rfl, _⟩ <;> rfl
    obtain ⟨k, rfl⟩ : ∃ k, fuel = k + 1 := ⟨fuel - 1, by simp at hfuel; omega⟩
    simp only [List.cons_append, List.nil_append]
    rw [readMoreInequality_other hother, Option.bind_some, readTests_value ht hrest]
  have hunequal : ∀ {t : Token} {r : Relator}, inequality? t = some r →
      TailReads [t, .value v] fun e => .compare r e (.bound v) := by
    intro t r ht fuel rest e hfuel hrest
    obtain ⟨k, rfl⟩ : ∃ k, fuel = k + 1 := ⟨fuel - 1, by simp at hfuel; omega⟩
    simp only [List.cons_append, List.nil_append]
    rw [readMoreInequality_value ht hrest, Option.bind_some, readTests_behind hrest]
  cases op with
  | eq => exact hequal rfl
  | ne => exact hequal rfl
  | gt => exact hunequal rfl
  | ge => exact hunequal rfl
  | lt => exact hunequal rfl
  | le => exact hunequal rfl
  | like => exact tailReads_like v false
  | notLike => exact tailReads_like v true

theorem tailReads_null (negated : Bool) : TailReads (nullTokens negated) fun e =>
    .isNull e negated := by
  intro fuel rest e hfuel hrest
  have hread : readTests (fuel + 2) e (nullTokens negated ++ rest) =
      readTests (fuel + 1) (.isNull e negated) rest := by
    cases negated <;> rfl
  have hmore : readMoreInequality (fuel + 1) e (nullTokens negated ++ rest) =
      some (e, nullTokens negated ++ rest) := readMoreInequality_other rfl _ _ _
  rw [hmore, Option.bind_some, hread, readTests_behind hrest]

theorem tailReads_between (low high : Value) (negated : Bool) :
    TailReads (notTokens negated ++ [.keyword .between, .value low, .keyword .and, .value high])
      fun e => .between e (.bound low) (.bound high) negated := by
  refine TailReads.negatable rfl negated fun fuel rest e hfuel hrest => ?_
  obtain ⟨k, rfl⟩ : ∃ k, fuel = k + 2 := ⟨fuel - 2, by simp at hfuel; omega⟩
  have h : readNegatable (k + 3) e negated
        (.keyword .between :: .value low :: .keyword .and :: .value high :: rest) =
      (readInequality (k + 2) (.value high :: rest)).bind fun found =>
        some (.between e (.bound low) found.1 negated, found.2) := rfl
  simpa [readInequality_bound hrest] using h

theorem tailReads_contains (v : Value) :
    TailReads [.keyword .like, .value v, .keyword .escape, .text "\\"] fun e =>
      .like e (.bound v) (some '\\') false := by
  refine TailReads.negatable rfl false fun fuel rest e hfuel hrest => ?_
  obtain ⟨k, rfl⟩ : ∃ k, fuel = k + 2 := ⟨fuel - 2, by simp at hfuel; omega⟩
  rfl

theorem tailReads_member (v : Value) (vs : List Value) (negated : Bool) :
    TailReads (notTokens negated ++
        .keyword .member :: .left :: (valueList (v :: vs) ++ [.right]))
      fun e => .member e ((v :: vs).map .bound) negated := by
  refine TailReads.negatable rfl negated fun fuel rest e hfuel hrest => ?_
  have hlength := length_lt_valueList v vs
  obtain ⟨k, rfl⟩ : ∃ k, fuel = vs.length + k + 6 :=
    ⟨fuel - vs.length - 6, by simp at hfuel; omega⟩
  have hhead : ∃ more, valueList (v :: vs) = .value v :: more := by
    cases vs <;> exact ⟨_, rfl⟩
  obtain ⟨more, hmore⟩ := hhead
  have h : readNegatable (vs.length + k + 7) e negated
        (.keyword .member :: .left :: (valueList (v :: vs) ++ .right :: rest)) =
      (readItems (vs.length + k + 6) (valueList (v :: vs) ++ .right :: rest)).bind fun found =>
        some (e.memberOf found.1 negated, found.2) := by
    rw [hmore]
    rfl
  rw [readItems_valueList] at h
  simpa [Expr.memberOf] using h

end Test

namespace Sql

/-- Placeholders in tokens, filled with values of their number. -/
def Fills (ts : List Token) (vs : List Value) (us : List Token) : Prop :=
  ∀ rest ws, bindMarks (ts ++ rest) (vs ++ ws) = us ++ bindMarks rest ws

theorem Fills.append {ts ts' us us' : List Token} {vs vs' : List Value} (h : Fills ts vs us)
    (h' : Fills ts' vs' us') : Fills (ts ++ ts') (vs ++ vs') (us ++ us') := by
  intro rest ws
  rw [List.append_assoc, List.append_assoc, List.append_assoc, h, h']

theorem Fills.mark (v : Value) : Fills [.mark] [v] [.value v] :=
  fun _ _ => rfl

theorem Fills.of_unmarked {l : List Token} (h : .mark ∉ l) : Fills l [] l := by
  induction l with
  | nil => exact fun _ _ => rfl
  | cons t ts ih =>
    intro rest ws
    have ht : t ≠ .mark := fun ht => h (by simp [ht])
    have hrest := ih (fun hmem => h (List.mem_cons_of_mem t hmem)) rest ws
    rw [List.nil_append] at hrest
    simp only [List.cons_append, List.nil_append]
    rw [bindMarks, hrest]
    · exact fun _ => ht
    · exact fun _ _ _ => ht

theorem Fills.eq {ts us : List Token} {vs : List Value} (h : Fills ts vs us) :
    bindMarks ts vs = us := by
  have := h [] []
  simpa [bindMarks] using this

theorem fills_markList (vs : List Value) : Fills (markList vs.length) vs (valueList vs) := by
  induction vs with
  | nil => exact .of_unmarked (by simp [markList])
  | cons v vs ih =>
    cases vs with
    | nil => exact .mark v
    | cons w vs =>
      have h := (Fills.mark v).append ((Fills.of_unmarked (l := [.comma]) (by simp)).append ih)
      exact h

/-- Tokens that are read as a test, or that leave the reading stuck where there is none. -/
def ReadsAs (ts : List Token) (e : Option Expr) : Prop :=
  ∀ fuel rest, 8 * ts.length ≤ fuel → BehindTest rest → Agrees (readNot fuel (ts ++ rest)) e rest

/-- The same of clauses. -/
def ReadsAsClauses (ts : List Token) (e : Option Expr) : Prop :=
  ∀ fuel rest, 8 * ts.length + 3 ≤ fuel → BehindClauses rest →
    Agrees (readOr fuel (ts ++ rest)) e rest

theorem readsAs_column {ts : List Token} (hts : ColumnTokens ts) {next : Token} {more : List Token}
    {test : Expr → Expr} (hnext : next.isBehindColumn = true)
    (hno : ∀ rest, NoTest (next :: more ++ rest)) (htail : Test.TailReads (next :: more) test) :
    ReadsAs (ts ++ next :: more) ((columnExpr? ts).map test) := by
  intro fuel rest hfuel hrest
  have hpos : 0 < ts.length := by
    cases hts <;> simp
  obtain ⟨k, rfl⟩ : ∃ k, fuel = k + 3 := ⟨fuel - 3, by simp at hfuel; omega⟩
  rw [List.append_assoc]
  refine readNot_column hts hnext (hno rest) fun e => ?_
  refine htail k rest e ?_ hrest
  simp only [List.length_append] at hfuel
  omega

/-- What stands in parentheses must end with the second one. -/
def closed? (found : Expr × List Token) : Option (Expr × List Token) :=
  match found.2 with
  | .right :: rest => some (found.1, rest)
  | _ => none

theorem Agrees.close {found : Option (Expr × List Token)} {e : Option Expr} {rest : List Token}
    (h : Agrees found e (.right :: rest)) : Agrees (found.bind closed?) e rest := by
  cases e with
  | none =>
    have hstuck : Stuck found := h
    refine hstuck.bind fun e t more ht => ?_
    have hnone : closed? (e, t :: more) = none := by
      rcases Token.isLoose_cases ht with rfl | rfl | ⟨v, rfl⟩ <;> rfl
    exact hnone ▸ stuck_none
  | some e =>
    have hsome : found = some (e, .right :: rest) := h
    rw [hsome]
    rfl

theorem Agrees.map {found : Option (Expr × List Token)} {e : Option Expr} {rest : List Token}
    (h : Agrees found e rest) (f : Expr → Expr) :
    Agrees (found.bind fun found => some (f found.1, found.2)) (e.map f) rest := by
  cases e with
  | none =>
    have hstuck : Stuck found := h
    exact hstuck.bind fun e t more ht => stuck_loose ht _ more
  | some e =>
    have hsome : found = some (e, rest) := h
    rw [hsome]
    rfl

theorem readPrimary_group (fuel : Nat) (ts : List Token) :
    readPrimary (fuel + 1) (.left :: ts) =
      if beginsQuery ts then none else (readOr fuel ts).bind closed? :=
  rfl

/-- The day of a column, or the present day where the parentheses hold no column. -/
def dayExpr? : List Token → Option Expr
  | [.star] => some (.present .day)
  | [.keyword .quantifier] => some (.present .day)
  | ts => (columnExpr? ts).map .date

theorem readPrimary_date (fuel : Nat) (ts : List Token) :
    readPrimary (fuel + 1) (.name "DATE" :: .left :: ts) =
      match ts with
      | .star :: .right :: rest => some (.present .day, rest)
      | .keyword .quantifier :: .right :: rest => some (.present .day, rest)
      | .right :: rest => some (.present .day, rest)
      | ts => (readOr fuel ts).bind fun found =>
        match found.2 with
        | .right :: rest => some (.date found.1, rest)
        | _ => none := by
  have hname : Text.sameName "DATE" "DATE" = true := by decide +kernel
  exact if_pos (e := none) hname

theorem readPrimary_present (fuel : Nat) {t : Token} (ht : t = .star ∨ t = .keyword .quantifier)
    (rest : List Token) : readPrimary (fuel + 1) (.name "DATE" :: .left :: t :: .right :: rest) =
      some (.present .day, rest) := by
  rw [readPrimary_date]
  rcases ht with rfl | rfl <;> rfl

theorem readPrimary_day (fuel : Nat) {ts : List Token} (hright : ts.head? ≠ some .right)
    (hstar : ts.take 2 ≠ [.star, .right]) (hall : ts.take 2 ≠ [.keyword .quantifier, .right]) :
    readPrimary (fuel + 1) (.name "DATE" :: .left :: ts) =
      ((readOr fuel ts).bind closed?).bind fun found => some (.date found.1, found.2) := by
  rw [readPrimary_date]
  split
  next => simp at hstar
  next => simp at hall
  next => simp at hright
  next =>
    cases readOr fuel ts with
    | none => rfl
    | some found =>
      obtain ⟨e, rest⟩ := found
      cases rest with
      | nil => rfl
      | cons t rest => cases t <;> rfl

theorem agrees_day {ts : List Token} (hts : ColumnTokens ts) (fuel : Nat) (rest : List Token) :
    Agrees (readPrimary (fuel + 7) (.name "DATE" :: .left :: (ts ++ .right :: rest)))
      (dayExpr? ts) rest := by
  by_cases hpresent : ts = [.star] ∨ ts = [.keyword .quantifier]
  · rcases hpresent with rfl | rfl
    · exact readPrimary_present _ (.inl rfl) rest
    · exact readPrimary_present _ (.inr rfl) rest
  · have hday : dayExpr? ts = (columnExpr? ts).map .date := by
      unfold dayExpr?
      split <;> simp_all
    have hheads : (ts ++ .right :: rest).head? ≠ some .right ∧
        (ts ++ .right :: rest).take 2 ≠ [.star, .right] ∧
        (ts ++ .right :: rest).take 2 ≠ [.keyword .quantifier, .right] := by
      cases hts with
      | star => simp at hpresent
      | @column w tail hw htail =>
        have hword : w ≠ .right ∧ w ≠ .star := by
          rcases hw with ⟨k, rfl⟩ | ⟨s, rfl⟩ <;> simp
        cases htail <;> simp_all
      | @qualified t w tail ht hw htail =>
        rcases ht with ⟨k, rfl⟩ | ⟨s, rfl⟩ <;> simp
      | @tableStar t tail ht htail =>
        rcases ht with ⟨k, rfl⟩ | ⟨s, rfl⟩ <;> simp
    have hread : ∀ e, ((readMoreInequality (fuel + 2) e (.right :: rest)).bind fun found =>
        readTests (fuel + 3) found.1 found.2) = some (id e, .right :: rest) := by
      intro e
      rw [readMoreInequality_behind (BehindClauses.right rest).1, Option.bind_some,
        readTests_behind (BehindClauses.right rest).1]
      rfl
    have hno := NoTest.of_nothing (t := .right) rfl rest
    have hnot := readNot_column hts rfl hno hread
    have hor := readOr_single hnot (.right rest)
    rw [readPrimary_day _ hheads.1 hheads.2.1 hheads.2.2, hday]
    simpa using hor.close.map .date

theorem Agrees.readNot_alone {t : Token} {ts rest : List Token} {e : Option Expr} {fuel : Nat}
    (h : Agrees (readPrimary (fuel + 1) (t :: ts)) e rest) (ht : t ≠ .keyword .not)
    (hrest : BehindTest rest) : Agrees (Sql.readNot (fuel + 3) (t :: ts)) e rest := by
  have htests : ∀ e, ((readMoreInequality (fuel + 1) e rest).bind fun found =>
      readTests (fuel + 2) found.1 found.2) = some (id e, rest) := by
    intro e
    rw [readMoreInequality_behind hrest, Option.bind_some, readTests_behind hrest]
    rfl
  simpa using h.readNot ht htests

/-- The alternatives before, if there are any, with one more. -/
def alternative (before : Option Expr) (e : Expr) : Expr :=
  match before with
  | none => e
  | some before => .or before e

/-- The expression of clauses behind alternatives and a conjunction that goes on. -/
def chainFrom? (before : Option Expr) (e : Expr) : List (Connector × Option Expr) → Option Expr
  | [] => some (alternative before e)
  | (.and, next) :: rest => next.bind fun next => chainFrom? before (e.both next) rest
  | (.or, next) :: rest => next.bind fun next => chainFrom? (some (alternative before e)) next rest

/-- The expression of clauses: alternatives of conjunctions, each cut off before an OR. -/
def chain? : List (Connector × Option Expr) → Option Expr
  | [] => none
  | (_, first) :: rest => first.bind fun first => chainFrom? none first rest

/-- A clause by its tokens and its expression. -/
structure Item where
  connector : Connector
  tokens : List Token
  expr : Option Expr

/-- The tokens of clauses, each behind its connector. -/
def itemTokens : List Item → List Token
  | [] => []
  | item :: rest => item.connector.token :: item.tokens ++ itemTokens rest

def itemExprs (items : List Item) : List (Connector × Option Expr) :=
  items.map fun item => (item.connector, item.expr)

theorem behindTest_itemTokens (items : List Item) {rest : List Token} (h : BehindTest rest) :
    BehindTest (itemTokens items ++ rest) := by
  cases items with
  | nil => exact h
  | cons item items =>
    refine behindTest_cons.mpr ?_
    cases item.connector <;> rfl

/-- The clauses behind a first one are read one after another: those that are joined by AND into
the conjunction, the others as alternatives. -/
theorem agrees_chainFrom {items : List Item} (h : ∀ item ∈ items, ReadsAs item.tokens item.expr)
    {rest : List Token} (hrest : BehindClauses rest) {conjoined joined : Nat}
    (hconjoined : 8 * (itemTokens items).length + 1 ≤ conjoined)
    (hjoined : 8 * (itemTokens items).length + 1 ≤ joined) (before : Option Expr) (e : Expr) :
    Agrees ((readMoreAnd conjoined e (itemTokens items ++ rest)).bind fun found =>
        readMoreOr joined (alternative before found.1) found.2)
      (chainFrom? before e (itemExprs items)) rest := by
  -- each item costs both readers less fuel than its tokens leave
  induction items generalizing conjoined joined before e with
  | nil =>
    obtain ⟨c, rfl⟩ : ∃ c, conjoined = c + 1 := ⟨conjoined - 1, by omega⟩
    obtain ⟨j, rfl⟩ : ∃ j, joined = j + 1 := ⟨joined - 1, by omega⟩
    simp only [itemTokens, List.nil_append]
    rw [readMoreAnd_other hrest.2.1, Option.bind_some, readMoreOr_other hrest.2.2]
    rfl
  | cons item items ih =>
    obtain ⟨connector, ts, next⟩ := item
    simp only [itemTokens, List.length_cons, List.length_append] at hconjoined hjoined
    have hitem : ReadsAs ts next := h ⟨connector, ts, next⟩ (by simp)
    have hmore := behindTest_itemTokens items hrest.1
    have hrestItems := fun {c j} => @ih (fun item hmem => h item (by simp [hmem])) c j
    obtain ⟨c, rfl⟩ : ∃ c, conjoined = c + 1 := ⟨conjoined - 1, by omega⟩
    simp only [itemTokens, List.cons_append, List.append_assoc]
    cases connector with
    | and =>
      have hread : readMoreAnd (c + 1) e (.keyword .and :: (ts ++ (itemTokens items ++ rest))) =
          (readNot c (ts ++ (itemTokens items ++ rest))).bind fun found =>
            readMoreAnd c (e.both found.1) found.2 := rfl
      have hnext := hitem c _ (by omega) hmore
      rw [Connector.token, hread]
      cases next with
      | none =>
        have hstuck : Stuck (readNot c (ts ++ (itemTokens items ++ rest))) := hnext
        exact hstuck.clauses _ _ e.both (alternative before)
      | some next =>
        have hsome : readNot c (ts ++ (itemTokens items ++ rest)) =
          some (next, itemTokens items ++ rest) := hnext
        rw [hsome, Option.bind_some]
        exact hrestItems (by omega) (by omega) before (e.both next)
    | or =>
      obtain ⟨j, rfl⟩ : ∃ j, joined = j + 2 := ⟨joined - 2, by omega⟩
      have hread : readMoreOr (j + 2) (alternative before e)
            (.keyword .or :: (ts ++ (itemTokens items ++ rest))) =
          (readAnd (j + 1) (ts ++ (itemTokens items ++ rest))).bind fun found =>
            readMoreOr (j + 1) (.or (alternative before e) found.1) found.2 := rfl
      have hnext := hitem j _ (by omega) hmore
      rw [Connector.token, readMoreAnd_other (by simp), Option.bind_some, hread, readAnd_succ]
      cases next with
      | none =>
        have hstuck : Stuck (readNot j (ts ++ (itemTokens items ++ rest))) := hnext
        exact hstuck.clauses _ _ id (.or (alternative before e))
      | some next =>
        have hsome : readNot j (ts ++ (itemTokens items ++ rest)) =
          some (next, itemTokens items ++ rest) := hnext
        rw [hsome, Option.bind_some]
        exact hrestItems (by omega) (by omega) (some (alternative before e)) next

theorem readsAsClauses_chain (first : Item) (items : List Item)
    (h : ∀ item ∈ first :: items, ReadsAs item.tokens item.expr) :
    ReadsAsClauses (first.tokens ++ itemTokens items) (chain? (itemExprs (first :: items))) := by
  intro fuel rest hfuel hrest
  rw [List.length_append] at hfuel
  obtain ⟨k, rfl⟩ : ∃ k, fuel = k + 2 := ⟨fuel - 2, by omega⟩
  have hfirst := h first (by simp) k (itemTokens items ++ rest) (by omega)
    (behindTest_itemTokens items hrest.1)
  rw [List.append_assoc, readOr_succ, readAnd_succ]
  have hchain : chain? (itemExprs (first :: items)) =
      first.expr.bind fun e => chainFrom? none e (itemExprs items) := rfl
  rw [hchain]
  cases hexpr : first.expr with
  | none =>
    rw [hexpr] at hfirst
    have hstuck : Stuck (readNot k (first.tokens ++ (itemTokens items ++ rest))) := hfirst
    exact hstuck.clauses _ _ id id
  | some e =>
    rw [hexpr] at hfirst
    have hsome : readNot k (first.tokens ++ (itemTokens items ++ rest)) =
      some (e, itemTokens items ++ rest) := hfirst
    rw [hsome, Option.bind_some, Option.bind_some]
    exact agrees_chainFrom (fun item hmem => h item (by simp [hmem])) hrest (by omega) (by omega)
      none e

/-- Clauses in parentheses. A word that begins a query makes one of them. -/
theorem readsAs_group {ts : List Token} {e : Option Expr} (h : ReadsAsClauses ts e) :
    ReadsAs (.left :: ts ++ [.right]) (if beginsQuery ts then none else e) := by
  intro fuel rest hfuel hrest
  simp only [List.cons_append, List.length_cons, List.length_append, List.length_nil] at hfuel
  obtain ⟨k, rfl⟩ : ∃ k, fuel = k + 3 := ⟨fuel - 3, by omega⟩
  have hbegins : beginsQuery (ts ++ .right :: rest) = beginsQuery ts := by
    cases ts with
    | nil => rfl
    | cons t ts => cases t <;> rfl
  have hread : Agrees (readPrimary (k + 1) (.left :: (ts ++ .right :: rest)))
      (if beginsQuery ts then none else e) rest := by
    rw [readPrimary_group, hbegins]
    split
    next => exact stuck_none
    next => exact (h k _ (by omega) (.right rest)).close
  simpa using hread.readNot_alone (by simp) hrest

theorem readsAs_date {ts : List Token} (hts : ColumnTokens ts) (op : Comparison) (v : Value) :
    ReadsAs ([.name "DATE", .left] ++ ts ++ [.right] ++ op.tokens ++ [.value v])
      ((dayExpr? ts).map fun e => op.expr e (.bound v)) := by
  intro fuel rest hfuel hrest
  simp only [List.length_append, List.length_cons, List.length_nil] at hfuel
  have hpos : 0 < ts.length := by
    cases hts <;> simp
  obtain ⟨k, rfl⟩ : ∃ k, fuel = k + 9 := ⟨fuel - 9, by omega⟩
  have hread := agrees_day hts k (op.tokens ++ [.value v] ++ rest)
  have htests := Agrees.readNot (t := .name "DATE") (by simp) hread fun e =>
    Test.tailReads_sign op v (k + 6) rest e
      (by simp only [List.length_append, List.length_cons, List.length_nil]; omega) hrest
  simpa using htests

theorem reference?_plain {table : Option String} {name : String} (h : IsPlain (table.getD name)) :
    reference? table name = some (.column table name) := by
  have hwords : ["cast", "raise"].any (Text.sameName (table.getD name)) = false := by
    have hall := h.2.2.2
    simp only [List.any_cons, List.any_nil, Bool.or_false, Bool.or_eq_false_iff] at hall ⊢
    exact ⟨hall.1, hall.2.1⟩
  unfold reference?
  dsimp only
  rw [hwords, h.2.2.1]
  rfl

theorem readPrimary_plain {table : String} (h : IsPlain table) (name : String) (fuel : Nat)
    (rest : List Token) :
    readPrimary (fuel + 1) (.name table :: .dot :: .name name :: rest) =
      some (.column (some table) name, rest) := by
  have hread := readPrimary_qualified (t := .name table) (.inr ⟨_, rfl⟩) (.name name) fuel rest
  have hcolumn : reference? (some table) name = some (.column (some table) name) :=
    reference?_plain h
  simp only [Token.name?, Option.bind_some, hcolumn] at hread
  exact hread

/-- The test that a related row belongs to a row. -/
def keysEqual (parent : String) (relation : Relation) : Expr :=
  .compare .eq (.column (some relation.table) relation.relatedKey)
    (.column (some parent) relation.parentKey)

theorem readsAs_keysEqual {parent : String} {relation : Relation} (hp : IsPlain parent)
    (hr : relation.Plain) :
    ReadsAs (Test.columnTokens relation.table relation.relatedKey ++ [.eq] ++
      Test.columnTokens parent relation.parentKey) (some (keysEqual parent relation)) := by
  intro fuel rest hfuel hrest
  simp only [Test.columnTokens, List.length_append, List.length_cons, List.length_nil] at hfuel
  obtain ⟨k, rfl⟩ : ∃ k, fuel = k + 4 := ⟨fuel - 4, by omega⟩
  have hleft : Agrees (readPrimary (k + 2) (.name relation.table :: .dot ::
      .name relation.relatedKey :: .eq :: .name parent :: .dot :: .name relation.parentKey :: rest))
      (some (.column (some relation.table) relation.relatedKey))
      (.eq :: .name parent :: .dot :: .name relation.parentKey :: rest) :=
    readPrimary_plain hr.1 _ _ _
  have htests : ∀ e, ((readMoreInequality (k + 2) e
      (.eq :: .name parent :: .dot :: .name relation.parentKey :: rest)).bind fun found =>
        readTests (k + 3) found.1 found.2) =
      some (.compare .eq e (.column (some parent) relation.parentKey), rest) := by
    intro e
    have hread : readTests (k + 3) e
          (.eq :: .name parent :: .dot :: .name relation.parentKey :: rest) =
        (readInequality (k + 2) (.name parent :: .dot :: .name relation.parentKey :: rest)).bind
          fun found => readTests (k + 2) (.compare .eq e found.1) found.2 := rfl
    rw [readMoreInequality_other rfl, Option.bind_some, hread, readInequality_succ,
      readPrimary_plain hp, Option.bind_some, readMoreInequality_behind hrest, Option.bind_some,
      readTests_behind hrest]
  exact Agrees.readNot (by simp) hleft htests

theorem readPrimary_exists (fuel : Nat) (table : String) (ts : List Token) :
    readPrimary (fuel + 1) (.keyword .exists_ :: .left :: .keyword .select :: .number (.int 1) ::
        .keyword .source :: .name table :: .keyword .test :: ts) =
      ((readOr fuel ts).bind closed?).bind fun found =>
        some (.anyRow table table found.1, found.2) := by
  have hread : readPrimary (fuel + 1) (.keyword .exists_ :: .left :: .keyword .select ::
        .number (.int 1) :: .keyword .source :: .name table :: .keyword .test :: ts) =
      (readOr fuel ts).bind fun found =>
        match found.2 with
        | .right :: rest => some (.anyRow table table found.1, rest)
        | _ => none := rfl
  rw [hread]
  cases readOr fuel ts with
  | none => rfl
  | some found =>
    obtain ⟨e, rest⟩ := found
    cases rest with
    | nil => rfl
    | cons t rest => cases t <;> rfl

theorem readsAs_exists (table : String) {ts : List Token} {e : Option Expr}
    (h : ReadsAsClauses ts e) :
    ReadsAs ([.keyword .exists_, .left, .keyword .select, .number (.int 1), .keyword .source,
        .name table, .keyword .test] ++ ts ++ [.right])
      (e.map fun e => .anyRow table table e) := by
  intro fuel rest hfuel hrest
  simp only [List.length_append, List.length_cons, List.length_nil] at hfuel
  obtain ⟨k, rfl⟩ : ∃ k, fuel = k + 3 := ⟨fuel - 3, by omega⟩
  have hread : Agrees (readPrimary (k + 1) (.keyword .exists_ :: .left :: .keyword .select ::
      .number (.int 1) :: .keyword .source :: .name table :: .keyword .test ::
        (ts ++ .right :: rest))) (e.map fun e => .anyRow table table e) rest := by
    rw [readPrimary_exists]
    exact (h k _ (by omega) (.right rest)).close.map _
  simpa using hread.readNot_alone (by simp) hrest

theorem readsAs_case {tests values others : List Token} {test value other : Expr}
    (htest : ReadsAsClauses tests (some test)) (hvalue : ReadsAsClauses values (some value))
    (hother : ReadsAsClauses others (some other)) :
    ReadsAs ([.keyword .caseOf, .keyword .when] ++ tests ++ [.keyword .thenArm] ++ values ++
        [.keyword .elseArm] ++ others ++ [.keyword .endCase])
      (some (.caseOf [(test, value)] other)) := by
  intro fuel rest hfuel hrest
  simp only [List.length_append, List.length_cons, List.length_nil] at hfuel
  obtain ⟨k, rfl⟩ : ∃ k, fuel = k + 4 := ⟨fuel - 4, by omega⟩
  have hwhen : readOr k (tests ++ .keyword .thenArm :: (values ++ .keyword .elseArm ::
      (others ++ .keyword .endCase :: rest))) = some (test, _) :=
    htest k _ (by omega) (by simp [BehindClauses, BehindTest, Token.endsTest])
  have hthen : readOr k (values ++ .keyword .elseArm :: (others ++ .keyword .endCase :: rest)) =
      some (value, _) :=
    hvalue k _ (by omega) (by simp [BehindClauses, BehindTest, Token.endsTest])
  have helse : readOr k (others ++ .keyword .endCase :: rest) = some (other, _) :=
    hother k _ (by omega) (by simp [BehindClauses, BehindTest, Token.endsTest])
  have hread : readCase (k + 1) (.keyword .when :: (tests ++ .keyword .thenArm :: (values ++
      .keyword .elseArm :: (others ++ .keyword .endCase :: rest)))) =
        some (.caseOf [(test, value)] other, rest) := by
    simp [readCase, hwhen, hthen, helse]
  have hprimary : Agrees (readPrimary (k + 2) (.keyword .caseOf :: .keyword .when :: (tests ++
      .keyword .thenArm :: (values ++ .keyword .elseArm :: (others ++ .keyword .endCase :: rest)))))
        (some (.caseOf [(test, value)] other)) rest := hread
  simpa using hprimary.readNot_alone (by simp) hrest

end Sql

end TableQuery
