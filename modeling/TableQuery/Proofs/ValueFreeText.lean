import Mathlib.Data.List.Forall2
import TableQuery.Proofs.StepOrder
import TableQuery.Shop

namespace TableQuery

/-! What is left of a condition when its values are taken out. -/

/-- A value as far as a comparison shows it: equality tells null from the other values, and no
other comparison tells any two values apart. -/
def Comparison.shown (op : Comparison) (value : Value) : Value :=
  match op with
  | .eq | .ne => if value.isNull then .null else .bool true
  | _ => .null

/-- The predicate without its values and search texts. Its variant and its relation are left, the
number of its members, and whether it is equality with null. -/
def Predicate.shape : Predicate → Predicate
  | member values => .member (values.map fun _ => .null)
  | orMember values => .orMember (values.map fun _ => .null)
  | notMember values => .notMember (values.map fun _ => .null)
  | orNotMember values => .orNotMember (values.map fun _ => .null)
  | between _ _ => .between .null .null
  | orBetween _ _ => .orBetween .null .null
  | notBetween _ _ => .notBetween .null .null
  | orNotBetween _ _ => .orNotBetween .null .null
  | isNull => .isNull
  | orNull => .orNull
  | notNull => .notNull
  | orNotNull => .orNotNull
  | orEq value => .orEq (Comparison.eq.shown value)
  | compare op value => .compare op (op.shown value)
  | date _ => .date .null
  | dateUntil _ => .dateUntil .null
  | like _ => .like ""
  | orLike _ => .orLike ""
  | has relation value => .has relation (Comparison.eq.shown value)
  | hasLike relation _ => .hasLike relation ""
  | hasBetween relation _ _ => .hasBetween relation .null .null
  | memberOrNull values => .memberOrNull (values.map fun _ => .null)
  | orMemberNotNull values => .orMemberNotNull (values.map fun _ => .null)
  | activeOn _ => .activeOn .null

def Condition.shape (condition : Condition) : Condition :=
  condition.map fun entry => (entry.1, entry.2.map Predicate.shape)

/-! Clauses of the same forms give the same text. -/

/-- A clause without its values: how it is joined, its text, and how many values it binds. -/
def Clause.form (c : Clause) : Connector × String × Nat :=
  (c.1, c.2.text, c.2.bindings.length)

namespace Criteria

variable {criteria other : Criteria}

/-- Two lists of clauses differ in nothing but the values that the clauses bind. -/
def Alike (criteria other : Criteria) : Prop :=
  criteria.map Clause.form = other.map Clause.form

theorem Alike.cons {clause clause' : Clause} (hclause : Clause.form clause = Clause.form clause')
    (h : Alike criteria other) : Alike (clause :: criteria) (clause' :: other) := by
  unfold Alike at *
  rw [List.map_cons, List.map_cons, hclause, h]

theorem Alike.append {rest rest' : Criteria} (h : Alike criteria other) (hrest : Alike rest rest') :
    Alike (criteria ++ rest) (other ++ rest') := by
  unfold Alike at *
  rw [List.map_append, List.map_append, h, hrest]

theorem Alike.isEmpty (h : Alike criteria other) : criteria.isEmpty = other.isEmpty := by
  have hlength : criteria.length = other.length := by
    simpa using congrArg List.length h
  rw [Bool.eq_iff_iff, List.isEmpty_iff_length_eq_zero, List.isEmpty_iff_length_eq_zero, hlength]

theorem Alike.restText (h : Alike criteria other) : restText criteria = restText other := by
  induction criteria generalizing other with
  | nil => rw [List.map_eq_nil_iff.mp h.symm]
  | cons clause criteria ih =>
    obtain ⟨clause', other, rfl, hclause, hrest⟩ := List.map_eq_cons_iff.mp h.symm
    simp only [Clause.form, Prod.mk.injEq] at hclause
    simp only [Criteria.restText]
    rw [hclause.1, hclause.2.1, ih hrest.symm]

theorem Alike.text (h : Alike criteria other) : text criteria = text other := by
  cases criteria with
  | nil => rw [List.map_eq_nil_iff.mp h.symm]
  | cons clause criteria =>
    obtain ⟨clause', other, rfl, hclause, hrest⟩ := List.map_eq_cons_iff.mp h.symm
    simp only [Clause.form, Prod.mk.injEq] at hclause
    simp only [Criteria.text]
    rw [hclause.2.1, Alike.restText hrest.symm]

theorem Alike.text? (h : Alike criteria other) : text? criteria = text? other := by
  rw [Criteria.text?, Criteria.text?, h.isEmpty, h.text]

theorem Alike.source_text (h : Alike criteria other) (table : String) (joins : List Join) :
    (Source.mk table joins criteria).text = (Source.mk table joins other).text := by
  simp only [Source.text]
  rw [h.text?]

theorem Alike.length_bindings (h : Alike criteria other) :
    (bindings criteria).length = (bindings other).length := by
  induction criteria generalizing other with
  | nil => rw [List.map_eq_nil_iff.mp h.symm]
  | cons clause criteria ih =>
    obtain ⟨clause', other, rfl, hclause, hrest⟩ := List.map_eq_cons_iff.mp h.symm
    simp only [Clause.form, Prod.mk.injEq] at hclause
    simp only [bindings, List.length_append]
    rw [hclause.2.2, ih hrest.symm]

end Criteria

/-! The clauses of a condition, up to their values. -/

theorem Test.form_compare_shown (connector : Connector) (column : String) (op : Comparison)
    (value : Value) :
    Clause.form (connector, .compare column op (op.shown value)) =
      Clause.form (connector, .compare column op value) := by
  have htext : Test.compareText column op (op.shown value) = Test.compareText column op value := by
    cases op <;> cases value <;> rfl
  have hvalues : (Test.compareValues op (op.shown value)).length =
      (Test.compareValues op value).length := by
    cases op <;> cases value <;> rfl
  simp only [Clause.form, Test.text, Test.bindings, htext, hvalues]

theorem Test.form_contains (connector : Connector) (column text text' : String) :
    Clause.form (connector, .contains column text) =
      Clause.form (connector, .contains column text') := by
  simp only [Clause.form, Test.text, Test.bindings, List.length_singleton]

theorem Test.form_between (connector : Connector) (column : String) (negated : Bool)
    (low high low' high' : Value) :
    Clause.form (connector, .between column low high negated) =
      Clause.form (connector, .between column low' high' negated) := by
  simp only [Clause.form, Test.text, Test.bindings, List.length_cons, List.length_nil]

theorem Test.form_member (connector : Connector) (column : String) (negated : Bool)
    {values values' : List Value} (h : values.length = values'.length) :
    Clause.form (connector, .member column values negated) =
      Clause.form (connector, .member column values' negated) := by
  simp only [Clause.form, Test.text, Test.bindings, h]

/-- A test of related rows shows of the clauses in it what they show themselves. -/
theorem Test.form_has {clauses clauses' : Criteria} (h : Criteria.Alike clauses clauses')
    (connector : Connector) (parent : String) (relation : Relation) :
    Clause.form (connector, .has parent relation clauses) =
      Clause.form (connector, .has parent relation clauses') := by
  simp only [Clause.form, Test.text, Test.bindings, h.isEmpty, h.text, h.length_bindings]

theorem Test.form_group {clauses clauses' : Criteria} (h : Criteria.Alike clauses clauses')
    (connector : Connector) :
    Clause.form (connector, .group clauses) = Clause.form (connector, .group clauses') := by
  simp only [Clause.form, Test.text, Test.bindings, h.text, h.length_bindings]

/-- The clause of a predicate has the form of the clause without values. -/
theorem Predicate.form_clause_shape (e : Entity) (column : String) (p : Predicate) :
    (p.shape.clause e column).map Clause.form = (p.clause e column).map Clause.form := by
  have hrelated : ∀ (relation : String) (clause clause' : Clause),
      Clause.form clause = Clause.form clause' →
      (e.relation relation >>= fun found =>
          pure ((.and, .has e.table found [clause]) : Clause)).map Clause.form =
        (e.relation relation >>= fun found =>
          pure ((.and, .has e.table found [clause']) : Clause)).map Clause.form := by
    intro relation clause clause' hform
    cases e.relation relation with
    | error cause => rfl
    | ok found =>
      exact congrArg Except.ok (Test.form_has (.cons hform rfl) _ _ _)
  have hmembers : ∀ (connector : Connector) (values : List Value) (negated : Bool),
      Clause.form (connector, .member column (values.map fun _ => .null) negated) =
        Clause.form (connector, .member column values negated) := fun connector values negated =>
    Test.form_member connector column negated (List.length_map _)
  cases p with
  | member values | orMember values | notMember values | orNotMember values =>
    exact congrArg Except.ok (hmembers _ values _)
  | between low high | orBetween low high | notBetween low high | orNotBetween low high =>
    exact congrArg Except.ok (Test.form_between _ column _ _ _ low high)
  | isNull | orNull | notNull | orNotNull => rfl
  | orEq value => exact congrArg Except.ok (Test.form_compare_shown .or column .eq value)
  | compare op value => exact congrArg Except.ok (Test.form_compare_shown .and column op value)
  | date value | dateUntil value | activeOn day => rfl
  | like text | orLike text => exact congrArg Except.ok (Test.form_contains _ column _ text)
  | has relation value => exact hrelated relation _ _ (Test.form_compare_shown .and column .eq value)
  | hasLike relation text => exact hrelated relation _ _ (Test.form_contains .and column _ text)
  | hasBetween relation low high =>
    exact hrelated relation _ _ (Test.form_between .and column false _ _ low high)
  | memberOrNull values | orMemberNotNull values =>
    exact congrArg Except.ok (Test.form_group (.cons (hmembers .and values false) rfl) _)

namespace Condition

/-- What is left of a condition, with the forms of its clauses in the place of the clauses. -/
def forms (e : Entity) (condition : Condition) :
    List (Connector × String × Nat) × List String × Option InvalidInput :=
  let compiled := compile e condition
  (compiled.criteria.map Clause.form, compiled.skipped, compiled.fault)

theorem forms_shape (e : Entity) (condition : Condition) :
    condition.shape.forms e = condition.forms e := by
  induction condition with
  | nil => rfl
  | cons entry rest ih =>
    obtain ⟨column, predicate⟩ := entry
    simp only [forms, shape, Prod.mk.injEq] at ih
    obtain ⟨hcriteria, hskipped, hfault⟩ := ih
    cases predicate with
    | none =>
      simp only [forms, shape, List.map_cons, Option.map_none, compile]
      rw [hcriteria, hskipped, hfault]
    | some p =>
      have hmade : ((checkedName column).bind fun column => p.shape.clause e column).map
          Clause.form =
            ((checkedName column).bind fun column => p.clause e column).map Clause.form := by
        cases checkedName column with
        | error cause => rfl
        | ok column => exact Predicate.form_clause_shape e column p
      simp only [forms, shape, List.map_cons, Option.map_some, compile, bind]
      revert hmade
      cases (checkedName column).bind fun column => p.shape.clause e column with
      | error fault =>
        cases (checkedName column).bind fun column => p.clause e column with
        | error fault' =>
          intro hmade
          cases hmade
          rfl
        | ok clause =>
          intro hmade
          cases hmade
      | ok clause =>
        cases (checkedName column).bind fun column => p.clause e column with
        | error fault =>
          intro hmade
          cases hmade
        | ok clause' =>
          intro hmade
          have hform : Clause.form clause = Clause.form clause' := Except.ok.inj hmade
          simp only [List.map_cons]
          rw [hform, hcriteria, hskipped, hfault]

theorem forms_of_shape (e : Entity) {condition other : Condition}
    (h : condition.shape = other.shape) : condition.forms e = other.forms e := by
  rw [← forms_shape, h, forms_shape]

end Condition

/-- Two results that fail in the same way, or have values in a relation. -/
inductive Except.Agree {ε α : Type} (R : α → α → Prop) : Except ε α → Except ε α → Prop
  | error (e : ε) : Agree R (.error e) (.error e)
  | ok {a b : α} (h : R a b) : Agree R (.ok a) (.ok b)

theorem Except.Agree.imp {ε α : Type} {R S : α → α → Prop} {x y : Except ε α} (h : Agree R x y)
    (himp : ∀ a b, R a b → S a b) : Agree S x y := by
  cases h with
  | error e => exact .error e
  | ok hab => exact .ok (himp _ _ hab)

theorem Except.Agree.map {ε α β : Type} {R : α → α → Prop} {S : β → β → Prop} {x y : Except ε α}
    {f g : α → β} (h : Agree R x y) (hfg : ∀ a b, R a b → S (f a) (g b)) :
    Agree S (x.map f) (y.map g) := by
  cases h with
  | error e => exact .error e
  | ok hab => exact .ok (hfg _ _ hab)

/-- Two conditions of the same shape have clauses of the same forms, or the same fault. -/
theorem Condition.agree_criteria {e : Entity} {condition other : Condition}
    (h : condition.shape = other.shape) :
    Except.Agree Criteria.Alike (condition.criteria e) (other.criteria e) := by
  have hforms := forms_of_shape e h
  simp only [forms, Prod.mk.injEq] at hforms
  obtain ⟨hcriteria, _, hfault⟩ := hforms
  unfold criteria
  dsimp only
  rw [hfault]
  cases (compile e other).fault with
  | some fault => exact .error fault
  | none => exact .ok hcriteria

namespace Query

/-- Two queries that differ in nothing but the values that their clauses bind. -/
def Alike (q q' : Query) : Prop :=
  ∃ criteria, q' = { q with criteria := criteria } ∧ Criteria.Alike q.criteria criteria

variable {q q' : Query}

theorem Alike.plus (h : q.Alike q') (part : Query) : (q.plus part).Alike (q'.plus part) := by
  obtain ⟨criteria, rfl, hcriteria⟩ := h
  exact ⟨criteria ++ part.criteria, rfl, hcriteria.append rfl⟩

theorem Alike.source_text (h : q.Alike q') : q.source.text = q'.source.text := by
  obtain ⟨criteria, rfl, hcriteria⟩ := h
  exact hcriteria.source_text q.entity.table q.joins

theorem Alike.toSelect_text (h : q.Alike q') : q.toSelect.text = q'.toSelect.text := by
  have hsource := h.source_text
  obtain ⟨criteria, rfl, hcriteria⟩ := h
  simp only [Select.text, toSelect]
  rw [hsource]
  rfl

theorem Alike.toDelete_text (h : q.Alike q') :
    q.toDelete.map Statement.text = q'.toDelete.map Statement.text := by
  obtain ⟨criteria, rfl, hcriteria⟩ := h
  have hdelete : (Statement.delete q.entity.table q.criteria).text =
      (Statement.delete q.entity.table criteria).text :=
    congrArg ("DELETE" ++ ·) (hcriteria.source_text q.entity.table [])
  unfold toDelete
  dsimp only
  cases q.joins.isEmpty with
  | true => simp only [if_true, Except.map, hdelete]
  | false => rfl

/-- A change that adds the same parts to every query of an entity keeps two queries alike. -/
theorem Adds.agree {change : Query → Except InvalidInput Query} (hchange : Adds change)
    (h : q.Alike q') : Except.Agree Alike (change q) (change q') := by
  have hentity : q'.entity = q.entity := by
    obtain ⟨criteria, rfl, _⟩ := h
    rfl
  rw [hchange q, hchange q', hentity]
  cases change (ofEntity q.entity) with
  | error cause => exact .error cause
  | ok part => exact .ok (h.plus part)

theorem Alike.filterBy (h : q.Alike q') {condition other : Condition}
    (hshape : condition.shape = other.shape) :
    Except.Agree Alike (q.filterBy condition) (q'.filterBy other) := by
  obtain ⟨criteria, rfl, hcriteria⟩ := h
  refine (Condition.agree_criteria hshape).map fun added added' hadded => ?_
  exact ⟨criteria ++ added', rfl, hcriteria.append hadded⟩

end Query

/-- Two calls that are the same but for the values in a condition. -/
inductive QueryStep.Alike : QueryStep → QueryStep → Prop
  | same (call : QueryStep) : Alike call call
  | filterBy {condition other : Condition} (h : condition.shape = other.shape) :
    Alike (.filterBy condition) (.filterBy other)

/-- A call makes of two queries alike two queries alike, or fails on both in the same way. -/
theorem Query.Alike.applyCall {q q' : Query} (h : q.Alike q') {call call' : QueryStep}
    (hcall : call.Alike call') : Except.Agree Query.Alike (q.applyCall call) (q'.applyCall call') := by
  cases hcall with
  | filterBy hshape => exact h.filterBy hshape
  | same =>
    cases call with
    | select columns =>
      obtain ⟨criteria, rfl, hcriteria⟩ := h
      simp only [Query.applyCall, Query.select]
      cases columns.mapM checkedName with
      | error cause => exact .error cause
      | ok columns => exact .ok ⟨criteria, rfl, hcriteria⟩
    | filterBy condition => exact h.filterBy rfl
    | addCriteria added =>
      obtain ⟨criteria, rfl, hcriteria⟩ := h
      exact .ok ⟨criteria ++ added, rfl, hcriteria.append rfl⟩
    | join join forced => exact (Query.adds_join join forced).agree h
    | orderBy key => exact (Query.adds_orderBy key).agree h
    | load request => exact (Query.adds_load request).agree h
    | relate requests => exact (Query.adds_applyStep (.relate requests)).agree h
    | limit count =>
      obtain ⟨criteria, rfl, hcriteria⟩ := h
      exact .ok ⟨criteria, rfl, hcriteria⟩
    | offset count =>
      obtain ⟨criteria, rfl, hcriteria⟩ := h
      exact .ok ⟨criteria, rfl, hcriteria⟩
    | options options => exact (Query.Adds.foldlM fun step _ => Query.adds_applyStep step).agree h

/-! Operations on the same session. -/

namespace Run

variable {α β : Type}

/-- Two operations that on any session fail in the same way, or give results in a relation, and
leave the same session in either case. -/
def Agree (R : α → α → Prop) (run run' : Run α) : Prop :=
  ∀ session, Except.Agree R (run.exec session).1 (run'.exec session).1 ∧
    (run.exec session).2 = (run'.exec session).2

theorem Agree.bind {R : α → α → Prop} {S : β → β → Prop} {x x' : Run α} {f f' : α → Run β}
    (hx : x.Agree R x') (hf : ∀ a b, R a b → (f a).Agree S (f' b)) :
    (x >>= f).Agree S (x' >>= f') := by
  intro session
  obtain ⟨hresult, hsession⟩ := hx session
  rw [exec_bind, exec_bind]
  rcases hrun : x.exec session with ⟨result, between⟩
  rcases hrun' : x'.exec session with ⟨result', between'⟩
  rw [hrun, hrun'] at hresult hsession
  dsimp only at hresult hsession
  subst hsession
  cases hresult with
  | error e => exact ⟨.error e, rfl⟩
  | ok hab => exact hf _ _ hab between

theorem agree_refl (run : Run α) : run.Agree (· = ·) run := by
  intro session
  refine ⟨?_, rfl⟩
  cases (run.exec session).1 with
  | error e => exact .error e
  | ok a => exact .ok rfl

theorem agree_ofInvalid {R : α → α → Prop} {x y : Except InvalidInput α} (h : Except.Agree R x y) :
    (ofInvalid x).Agree R (ofInvalid y) := by
  intro session
  rw [exec_ofInvalid, exec_ofInvalid]
  cases h with
  | error cause => exact ⟨.error _, rfl⟩
  | ok hab => exact ⟨.ok hab, rfl⟩

end Run

namespace Query

/-- Calls alike report the same, whatever values stand in their conditions. -/
theorem Alike.runCall {q q' : Query} (h : q.Alike q') {call call' : QueryStep}
    (hcall : call.Alike call') : (q.runCall call).Agree Alike (q'.runCall call') := by
  have hentity : q'.entity = q.entity := by
    obtain ⟨criteria, rfl, _⟩ := h
    rfl
  have hmade := Run.agree_ofInvalid (h.applyCall hcall)
  cases hcall with
  | @filterBy condition other hshape =>
    have hskipped : (condition.compile q.entity).skipped = (other.compile q'.entity).skipped := by
      rw [hentity]
      exact congrArg (·.2.1) (Condition.forms_of_shape q.entity hshape)
    unfold Query.runCall
    dsimp only
    rw [hskipped]
    exact (Run.agree_refl _).bind fun _ _ _ => hmade
  | same =>
    cases call with
    | filterBy condition =>
      unfold Query.runCall
      rw [hentity]
      exact (Run.agree_refl _).bind fun _ _ _ => hmade
    | _ => exact hmade

theorem Alike.runCalls {q q' : Query} (h : q.Alike q') {calls calls' : List QueryStep}
    (hcalls : List.Forall₂ QueryStep.Alike calls calls') :
    (q.runCalls calls).Agree Alike (q'.runCalls calls') := by
  induction hcalls generalizing q q' with
  | nil => exact fun session => ⟨.ok h, rfl⟩
  | cons hcall hcalls ih => exact (h.runCall hcall).bind fun _ _ hnext => ih hnext

end Query

/-- The statements that two queries can be run as have the same texts, with places for as many
values. -/
structure Query.SameTexts (q q' : Query) : Prop where
  select : q.toSelect.text = q'.toSelect.text
  count : (Statement.count q.source).text = (Statement.count q'.source).text
  anyRow : (Statement.anyRow q.source).text = (Statement.anyRow q'.source).text
  delete : q.toDelete.map Statement.text = q'.toDelete.map Statement.text
  bindings : q.bindings.length = q'.bindings.length

theorem Query.Alike.sameTexts {q q' : Query} (h : q.Alike q') : q.SameTexts q' where
  select := h.toSelect_text
  count := congrArg ("SELECT COUNT(*)" ++ ·) h.source_text
  anyRow := congrArg (fun text => "SELECT EXISTS(SELECT 1" ++ text ++ ")") h.source_text
  delete := h.toDelete_text
  bindings := by
    obtain ⟨criteria, rfl, hcriteria⟩ := h
    exact hcriteria.length_bindings

/-- Two lists of an entity whose conditions differ in nothing but values fail in the same way, or
have queries with the same texts, which differ in nothing but the values that their clauses bind. -/
theorem Entity.listQuery_differs_in_bindings {e : Entity} {columns : List String}
    {condition other : Condition} (h : condition.shape = other.shape) (options : ListOptions) :
    (e.listQuery columns condition options).Agree (fun q q' => q.SameTexts q' ∧ q.Alike q')
      (e.listQuery columns other options) := by
  have hcalls : List.Forall₂ QueryStep.Alike
      [.filterBy condition, .select columns, .options options]
      [.filterBy other, .select columns, .options options] :=
    .cons (.filterBy h) (.cons (.same _) (.cons (.same _) .nil))
  have hstart : e.query.Alike e.query := ⟨[], rfl, rfl⟩
  intro session
  obtain ⟨hresult, hsession⟩ := hstart.runCalls hcalls session
  exact ⟨hresult.imp fun q q' hlike => ⟨hlike.sameTexts, hlike⟩, hsession⟩

namespace Shop

/-- Customers with a name and one of two codes, who have an order of a total. -/
def namedCustomers (name : Value) (codes : Value × Value) (total : Value) : Condition :=
  [("name", some (.compare .eq name)), ("note", none), ("code", some (.member [codes.1, codes.2])),
   ("total", some (.has "orders" total))]

/-- A name that would end its text and change the statement is bound like any other. -/
theorem listQuery_of_hostile_name :
    ((customers.listQuery ["id"]
        (namedCustomers (.text "a") (.text "k", .int 1) (.int 5)) {}).Agree
      (fun q q' => q.SameTexts q' ∧ q.Alike q')
      (customers.listQuery ["id"]
        (namedCustomers (.text "' OR 1 = 1; --") (.null, .text "?") (.text "5")) {})) ∧
    ∃ q q' after,
      (customers.listQuery ["id"] (namedCustomers (.text "a") (.text "k", .int 1) (.int 5))
        {}).exec ⟨emptyStore, []⟩ = (.ok q, after) ∧
      (customers.listQuery ["id"]
        (namedCustomers (.text "' OR 1 = 1; --") (.null, .text "?") (.text "5"))
        {}).exec ⟨emptyStore, []⟩ = (.ok q', after) ∧
      q.bindings ≠ q'.bindings :=
  ⟨Entity.listQuery_differs_in_bindings (by decide) {}, _, _, _, rfl, rfl, by decide⟩

end Shop

end TableQuery
