import TableQuery.Proofs.FreeNames

namespace TableQuery

open Sql

/-- A level of a statement that names no results. -/
def Scope.bare (s : Scope) : Scope :=
  ⟨s.tables, []⟩

/-- No name among these is that of a result alone. -/
def Scope.Tells (s : Scope) (names : List (Option String × String)) : Prop :=
  ∀ name ∈ names, s.origin name.1 name.2 = s.bare.origin name.1 name.2

instance (s : Scope) (names : List (Option String × String)) : Decidable (s.Tells names) :=
  inferInstanceAs (Decidable (∀ name ∈ names, _ = _))

namespace Scope.Tells

variable {s : Scope} {as bs : List (Option String × String)}

theorem left (h : s.Tells (as ++ bs)) : s.Tells as :=
  fun name hmem => h name (List.mem_append_left _ hmem)

theorem right (h : s.Tells (as ++ bs)) : s.Tells bs :=
  fun name hmem => h name (List.mem_append_right _ hmem)

theorem agreeOn (h : s.Tells as) (rows : List Row) :
    Env.AgreeOn [⟨s, rows⟩] [⟨s.bare, rows⟩] as := by
  intro name hmem
  rw [Env.lookup, Env.lookup, h name hmem]
  rfl

theorem columnTable?_eq {table : Option String} {name : String} (h : s.Tells [(table, name)]) :
    Store.columnTable? s (.column table name) = Store.columnTable? s.bare (.column table name) := by
  have horigin : s.origin table name = s.bare.origin table name := h _ List.mem_cons_self
  rw [Store.columnTable?, Store.columnTable?, horigin]

end Scope.Tells

namespace Store

variable {store : Store} {s : Scope}

theorem asksFor_bare {e : Expr} (h : s.Tells (e.names store)) (position : Nat) :
    asksFor s position e = asksFor s.bare position e := by
  fun_induction asksFor s position e with
  | case1 table name =>
    rw [asksFor, ← Scope.Tells.columnTable?_eq h]
  | case2 e ih =>
    rw [asksFor, ih h]
  | case3 a b iha ihb =>
    rw [asksFor, iha h.left, ihb h.right]
  | case4 a b iha ihb =>
    rw [asksFor, iha h.left, ihb h.right]
  | case5 r a b iha ihb =>
    rw [asksFor, iha h.left, ihb h.right]
  | case6 e items negated ih =>
    rw [asksFor, ih h.left]
  | case7 e low high negated ihe ihlow ihhigh =>
    rw [asksFor, ihe h.left, ihlow h.right.left, ihhigh h.right.right]
  | case8 =>
    simp [asksFor, *]

theorem needsRow_bare {e : Expr} (h : s.Tells (e.names store)) (position : Nat) :
    needsRow s position e = needsRow s.bare position e := by
  -- the last operand of a conjunction is judged by a function of its own, so both are followed
  have hboth := needsRow.mutual_induct
    (fun e => s.Tells (e.names store) → needsRow s position e = needsRow s.bare position e)
    (fun e => s.Tells (e.names store) → lastNeedsRow s position e = lastNeedsRow s.bare position e)
  refine (hboth ?_ ?_ ?_ ?_ ?_).1 e h
  · intro e h
    have he : s.Tells (e.names store) := h
    rw [needsRow, needsRow, asksFor_bare he]
  · intro a b iha ihb h
    rw [needsRow, needsRow, iha h.left, ihb h.right]
  · intro e hnull hand h
    rw [needsRow.eq_3 s position e hnull hand, needsRow.eq_3 s.bare position e hnull hand,
      asksFor_bare h]
  · intro a b iha ihb h
    rw [lastNeedsRow, lastNeedsRow, iha h.left, ihb h.right]
  · intro e hand h
    rw [lastNeedsRow.eq_2 s position e hand, lastNeedsRow.eq_2 s.bare position e hand,
      asksFor_bare h]

/-- The tests that choose the rows of a source ask for no result by its name. -/
def TellsTests (store : Store) (s : Scope) (test : Option Expr) (joined : List Joined) : Prop :=
  (∀ e ∈ test.toList, s.Tells (e.names store)) ∧
    ∀ e ∈ joined.map Joined.test, s.Tells (e.names store)

instance (store : Store) (s : Scope) (test : Option Expr) (joined : List Joined) :
    Decidable (TellsTests store s test joined) :=
  inferInstanceAs (Decidable (_ ∧ _))

theorem tests_reduceAt (s : Scope) (test : Option Expr) (joined : List Joined) (position : Nat) :
    (reduceAt s test joined position).map Joined.test = joined.map Joined.test := by
  unfold reduceAt
  dsimp only
  split
  next =>
    rw [List.map_map]
    refine List.map_congr_left fun j _ => ?_
    rw [Function.comp_apply]
    split <;> rfl
  next => rfl

theorem tests_reduced (s : Scope) (test : Option Expr) (joined : List Joined) :
    (reduced s test joined).map Joined.test = joined.map Joined.test := by
  have hfold : ∀ (positions : List Nat) (joined : List Joined),
      (positions.foldl (reduceAt s test) joined).map Joined.test = joined.map Joined.test := by
    intro positions
    induction positions with
    | nil => exact fun _ => rfl
    | cons position positions ih =>
      intro joined
      rw [List.foldl_cons, ih, tests_reduceAt]
  exact hfold _ joined

section

variable {test : Option Expr} {joined : List Joined}

theorem TellsTests.reduceAt_eq (h : TellsTests store s test joined) (position : Nat) :
    reduceAt s test joined position = reduceAt s.bare test joined position := by
  have htest : test.any (needsRow s position) = test.any (needsRow s.bare position) := by
    cases test with
    | none => rfl
    | some e => exact needsRow_bare (h.1 e (by simp)) position
  have hjoined : (joined.any fun j => j.kind = .inner && asksFor s position j.test) =
      joined.any fun j => j.kind = .inner && asksFor s.bare position j.test := by
    rw [Bool.eq_iff_iff, List.any_eq_true, List.any_eq_true]
    refine exists_congr fun j => and_congr_right fun hmem => ?_
    rw [asksFor_bare (h.2 _ (List.mem_map_of_mem hmem))]
  unfold reduceAt
  rw [htest, hjoined]

theorem TellsTests.reduced_eq (h : TellsTests store s test joined) :
    reduced s test joined = reduced s.bare test joined := by
  have hfold : ∀ (positions : List Nat) (joined : List Joined), TellsTests store s test joined →
      positions.foldl (reduceAt s test) joined = positions.foldl (reduceAt s.bare test) joined := by
    intro positions
    induction positions with
    | nil => exact fun _ _ => rfl
    | cons position positions ih =>
      intro joined h
      rw [List.foldl_cons, List.foldl_cons, ← h.reduceAt_eq]
      exact ih _ ⟨h.1, by rw [tests_reduceAt]; exact h.2⟩
  exact hfold _ joined h

end

theorem prepareJoin_bare {position : Nat} {table : Table} {join : Join} {j : Joined}
    (h : prepareJoin store s position table join = .ok j) (htells : s.Tells (j.test.names store)) :
    prepareJoin store s.bare position table join = .ok j := by
  unfold prepareJoin at h ⊢
  obtain ⟨a, ha, h⟩ := Except.of_bind_ok h
  obtain ⟨b, hb, h⟩ := Except.of_bind_ok h
  obtain ⟨_, hcheck, h⟩ := Except.of_bind_ok h
  cases h
  have hnames : s.Tells (a.names store ++ b.names store) := htells
  have hreach : ∀ {e : Expr}, s.Tells (e.names store) →
      columnTable? s.bare e = columnTable? s e := by
    intro e h
    cases e with
    | column table name => exact (Scope.Tells.columnTable?_eq h).symm
    | _ => rfl
  have hsame := ((Expr.compare .eq a b).agree store (htells.agreeOn [])).2
  rw [hsame] at hcheck
  rw [ha, hb]
  change ((Expr.compare .eq a b).check store [⟨s.bare, []⟩] >>= _) = _
  rw [hcheck, hreach hnames.left, hreach hnames.right]
  rfl

theorem prepareJoins_bare {position : Nat} {others : List (String × Table)} {joins : List Join}
    {joined : List Joined} (h : prepareJoins store s position others joins = .ok joined)
    (htells : ∀ e ∈ joined.map Joined.test, s.Tells (e.names store)) :
    prepareJoins store s.bare position others joins = .ok joined := by
  induction joins generalizing position others joined with
  | nil =>
    cases others <;> exact h
  | cons join joins ih =>
    cases others with
    | nil => exact h
    | cons other others =>
      obtain ⟨j, hj, h⟩ := Except.of_bind_ok h
      obtain ⟨rest, hrest, h⟩ := Except.of_bind_ok h
      cases h
      have hfirst := prepareJoin_bare hj (htells _ List.mem_cons_self)
      have hlater := ih hrest fun e hmem => htells e (List.mem_cons_of_mem _ hmem)
      rw [prepareJoins, hfirst]
      change (prepareJoins store s.bare (position + 1) others joins >>= _) = _
      rw [hlater]
      rfl

theorem prepareTest_bare {criteria : Criteria} {test : Option Expr}
    (h : store.prepareTest s criteria = .ok test) (htells : ∀ e ∈ test.toList, s.Tells (e.names store)) :
    store.prepareTest s.bare criteria = .ok test := by
  unfold prepareTest at h ⊢
  split at h
  next => exact h
  next text htext =>
    dsimp only at h ⊢
    split at h
    next => cases h
    next e hread =>
      split at h
      next => cases h
      next hvalues =>
        obtain ⟨_, hcheck, rfl⟩ := Except.of_map_ok h
        have hsame := (e.agree store ((htells e (by simp)).agreeOn [])).2
        rw [hsame] at hcheck
        rw [if_neg hvalues, hcheck]
        rfl

def Prepared.Tells (store : Store) (p : Prepared) : Prop :=
  TellsTests store p.scope p.test p.joined

instance (store : Store) (p : Prepared) : Decidable (p.Tells store) :=
  inferInstanceAs (Decidable (TellsTests _ _ _ _))

/-- Without its projection such a source is prepared alike. -/
theorem prepare_bare {nested : Bool} {source : Source} {columns : List String} {p : Prepared}
    (h : store.prepare nested source columns = .ok p) (htells : p.Tells store) :
    store.prepare nested source [] = .ok { p with scope := p.scope.bare, columns := [] } := by
  obtain ⟨⟨parts⟩, hreach, hlimits⟩ := of_prepare h
  obtain ⟨htests, hjoins⟩ := htells
  rw [parts.joined_eq, tests_reduced] at hjoins
  have hreduced : reduced p.scope p.test parts.joined = reduced p.scope.bare p.test parts.joined :=
    TellsTests.reduced_eq ⟨htests, hjoins⟩
  refine prepare_of_parts
    { parts with
      shown := []
      shown_eq := rfl
      columns_eq := rfl
      scope_eq := by rw [parts.scope_eq]; rfl
      joins_eq := prepareJoins_bare parts.joins_eq hjoins
      test_eq := prepareTest_bare parts.test_eq htests
      joined_eq := parts.joined_eq.trans hreduced } ⟨hreach, ?_⟩
  rintro (htables | hcolumns | hheight)
  · exact hlimits (.inl htables)
  · exact absurd hcolumns (Nat.not_lt_zero _)
  · exact hlimits (.inr (.inr hheight))

/-- The tests of a source hold for the same tuples whether or not results are named. -/
theorem Prepared.Tells.tuples_bare {p : Prepared} (h : p.Tells store) (columns : List ResultColumn) :
    Prepared.tuples store { p with scope := p.scope.bare, columns := columns } =
      p.tuples store := by
  have hholds : ∀ {e : Expr}, p.scope.Tells (e.names store) → ∀ tuple,
      store.holds p.scope.bare e tuple = store.holds p.scope e tuple := by
    intro e he tuple
    rw [holds, holds, (e.agree store (he.agreeOn tuple)).1]
  have hjoin : ∀ {j : Joined}, j ∈ p.joined → ∀ tuples,
      store.joinRows p.scope.bare tuples j = store.joinRows p.scope tuples j := by
    intro j hmem tuples
    have htest := hholds (h.2 _ (List.mem_map_of_mem hmem))
    unfold joinRows
    simp only [htest]
    rfl
  have hjoins : ∀ (joined : List Joined), (∀ j ∈ joined, j ∈ p.joined) → ∀ tuples,
      joined.foldl (store.joinRows p.scope.bare) tuples =
        joined.foldl (store.joinRows p.scope) tuples := by
    intro joined hsub
    induction joined with
    | nil => exact fun _ => rfl
    | cons j joined ih =>
      intro tuples
      rw [List.foldl_cons, List.foldl_cons, hjoin (hsub j List.mem_cons_self)]
      exact ih (fun other hmem => hsub other (List.mem_cons_of_mem _ hmem)) _
  unfold Prepared.tuples
  dsimp only
  rw [hjoins p.joined fun _ hmem => hmem]
  refine List.filter_congr fun tuple _ => ?_
  rw [Bool.eq_iff_iff, List.all_eq_true, List.all_eq_true]
  refine forall₂_congr fun e hmem => ?_
  rcases List.mem_append.mp hmem with hmem | hmem
  · obtain ⟨j, hj, rfl⟩ := List.mem_map.mp hmem
    rw [hholds (h.2 _ (List.mem_map_of_mem (List.mem_filter.mp hj).1))]
  · rw [hholds (h.1 e hmem)]

/-- The rows are counted that the same source with a projection brings back. -/
theorem count_eq {source : Source} {columns : List String} {p : Prepared}
    (hp : store.prepare false source columns = .ok p) (h : p.Tells store) :
    store.count source = .ok (p.tuples store).length := by
  unfold count
  rw [prepare_bare hp h, ← h.tuples_bare []]
  rfl

/-- Whether there is a row is asked inside another expression, and answered by the rows that the
same source with a projection brings back. -/
theorem anyRow_eq {source : Source} {columns : List String} {p : Prepared}
    (hp : store.prepare false source columns = .ok p) (h : p.Tells store) :
    store.anyRow source =
      if sourceFits true p.test p.joined then .ok !(p.tuples store).isEmpty
      else .error .statement := by
  unfold anyRow
  rw [prepare_nested (prepare_bare hp h), ← h.tuples_bare []]
  dsimp only
  split <;> rfl

end Store

end TableQuery
