import Mathlib.Data.List.Forall2
import TableQuery.Proofs.ConditionGrammar
import TableQuery.Proofs.ConditionMeaning

namespace TableQuery

namespace Value

/-- The values with a JSON form of their own: integers of 64 bits and finite doubles among the
numbers. -/
def Representable : Value → Prop
  | int n => isInt64 n = true
  | real x => x.finite = true
  | _ => True

theorem ofJson_toJson {v : Value} (h : v.Representable) : ofJson v.toJson = v := by
  cases v with
  | int n => exact if_pos h
  | real x =>
    have hfinite : x.finite = true := h
    rw [toJson, if_pos hfinite, ofJson]
  | text s => rfl
  | bool b => rfl
  | null => rfl

theorem toJson_ne_null {v : Value} (h : v.Representable) (hvalue : v ≠ null) :
    v.toJson ≠ .null := by
  intro hnull
  have hread := ofJson_toJson h
  rw [hnull] at hread
  exact hvalue hread.symm

end Value

namespace Predicate

/-- The name of the operator, or the sign of the comparison. -/
def word : Predicate → String
  | member _ => "where_in"
  | orMember _ => "or_where_in"
  | notMember _ => "where_not_in"
  | orNotMember _ => "or_where_not_in"
  | between _ _ => "where_between"
  | orBetween _ _ => "or_where_between"
  | notBetween _ _ => "where_not_between"
  | orNotBetween _ _ => "or_where_not_between"
  | isNull => "where_null"
  | orNull => "or_where_null"
  | notNull => "where_not_null"
  | orNotNull => "or_where_not_null"
  | orEq _ => "or_where"
  | compare op _ => op.sign
  | date _ => "where_date"
  | dateUntil _ => "where_date_less"
  | like _ => "where_like"
  | orLike _ => "where_like_or_where"
  | has _ _ => "where_has"
  | hasLike _ _ => "where_has_like"
  | hasBetween _ _ _ => "where_has_like_between"
  | memberOrNull _ => "where_in_column_or_null"
  | orMemberNotNull _ => "where_in_column_and_not_null"
  | activeOn _ => "case_where_null_or_between"

/-- A text names the operator of a predicate. Only comparisons have several words. -/
def Named (written : String) : Predicate → Prop
  | compare op _ => Comparison.Writes written op
  | p => written = p.word

/-- What a predicate compares with. The tests for null compare with nothing. -/
def payload : Predicate → Option Json
  | member values | orMember values | notMember values | orNotMember values
  | memberOrNull values | orMemberNotNull values => some (.list (values.map Value.toJson))
  | between low high | orBetween low high | notBetween low high | orNotBetween low high
  | hasBetween _ low high => some (.list [low.toJson, high.toJson])
  | isNull | orNull | notNull | orNotNull => none
  | orEq value | compare _ value | date value | dateUntil value | activeOn value
  | has _ value => some value.toJson
  | like text | orLike text | hasLike _ text => some (.text text)

/-- A null is no value of an entry, but it may be a member of a list or a bound. -/
def Representable : Predicate → Prop
  | member values | orMember values | notMember values | orNotMember values
  | memberOrNull values | orMemberNotNull values => ∀ v ∈ values, v.Representable
  | between low high | orBetween low high | notBetween low high | orNotBetween low high
  | hasBetween _ low high => low.Representable ∧ high.Representable
  | orEq value | compare _ value | date value | dateUntil value | activeOn value
  | has _ value => value.Representable ∧ value ≠ .null
  | isNull | orNull | notNull | orNotNull | like _ | orLike _ | hasLike _ _ => True

/-- An entry gives the operator of a predicate, its value and its relation. To a test for null it
gives any value. -/
structure IsWrittenBy (p : Predicate) (entry : Json) : Prop where
  operator : ∃ written, entry.field? "operator" = some (.text written) ∧ p.Named written
  value : ∃ value, entry.field? "value" = some value ∧ value ≠ .null ∧
    ∀ given ∈ p.payload, value = given
  relation : ∀ name ∈ p.relation?, entry.field? "relationship_name" = some (.text name)

/-- The entry of a predicate. -/
def entry (p : Predicate) : Json :=
  .object ([("operator", .text p.word), ("value", p.payload.getD (.bool true))] ++
    (p.relation?.map fun name => ("relationship_name", .text name)).toList)

theorem named_word (p : Predicate) : p.Named p.word := by
  cases p
  case compare op value => exact Comparison.read_eq_ok_iff.mp (Comparison.read_sign op)
  all_goals rfl

theorem payload_ne_null {p : Predicate} (h : p.Representable) : p.payload ≠ some .null := by
  cases p
  case orEq value | compare op value | date value | dateUntil value | activeOn value
    | has relation value =>
    exact fun hnull => Value.toJson_ne_null h.1 h.2 (Option.some.inj hnull)
  all_goals exact nofun

theorem isWrittenBy_entry {p : Predicate} (h : p.Representable) : p.IsWrittenBy p.entry where
  operator := ⟨p.word, rfl, p.named_word⟩
  value := by
    refine ⟨p.payload.getD (.bool true), rfl, ?_, fun given hgiven => ?_⟩
    · cases hpayload : p.payload with
      | none => exact nofun
      | some given => exact fun hnull => payload_ne_null h (hpayload.trans (congrArg some hnull))
    · rw [Option.mem_def.mp hgiven, Option.getD_some]
  relation := by
    intro name hname
    rw [entry, Option.mem_def.mp hname]
    rfl

/-- How the value of an operator with a name is read. -/
def operand? : Predicate → Option Condition.Operand
  | member _ => some (.members member)
  | orMember _ => some (.members orMember)
  | notMember _ => some (.members notMember)
  | orNotMember _ => some (.members orNotMember)
  | between _ _ => some (.pair between)
  | orBetween _ _ => some (.pair orBetween)
  | notBetween _ _ => some (.pair notBetween)
  | orNotBetween _ _ => some (.pair orNotBetween)
  | isNull => some (.nothing isNull)
  | orNull => some (.nothing orNull)
  | notNull => some (.nothing notNull)
  | orNotNull => some (.nothing orNotNull)
  | orEq _ => some (.value orEq)
  | compare _ _ => none
  | date _ => some (.value date)
  | dateUntil _ => some (.value dateUntil)
  | like _ => some (.search like)
  | orLike _ => some (.search orLike)
  | has _ _ => some .relatedValue
  | hasLike _ _ => some .relatedSearch
  | hasBetween _ _ _ => some .relatedRange
  | memberOrNull _ => some (.members memberOrNull)
  | orMemberNotNull _ => some (.members orMemberNotNull)
  | activeOn _ => some (.value activeOn)

theorem find?_of_operand? {p : Predicate} {operand : Condition.Operand}
    (h : p.operand? = some operand) :
    Condition.operators.find? (·.1 = p.word) = some (p.word, operand) := by
  cases p
  case compare => cases h
  all_goals
    cases h
    rfl

theorem named_of_operand? {p : Predicate} {operand : Condition.Operand} {written : String}
    (h : p.operand? = some operand) (hnamed : p.Named written) : written = p.word := by
  cases p
  case compare => cases h
  all_goals exact hnamed

end Predicate

namespace Condition

theorem memberValues_toJson {values : List Value} (h : ∀ v ∈ values, v.Representable) :
    memberValues (.list (values.map Value.toJson)) = values := by
  rw [memberValues, List.map_map]
  exact (List.map_congr_left fun v hv => Value.ofJson_toJson (h v hv)).trans (List.map_id values)

theorem pairValues_toJson (operator : String) {low high : Value} (hlow : low.Representable)
    (hhigh : high.Representable) :
    pairValues operator (.list [low.toJson, high.toJson]) = .ok (low, high) := by
  rw [pairValues, Value.ofJson_toJson hlow, Value.ofJson_toJson hhigh]

theorem relationName_of_field {operator name : String} {entry : Json}
    (h : entry.field? "relationship_name" = some (.text name)) :
    relationName operator entry = .ok name := by
  rw [relationName, Json.textField_eq_some.mpr h]

theorem Operand.read_of_operand? {p : Predicate} {operand : Operand} {operator : String}
    {value entry : Json} (h : p.operand? = some operand) (hvalues : p.Representable)
    (hgiven : ∀ given ∈ p.payload, value = given)
    (hrelation : ∀ name ∈ p.relation?, entry.field? "relationship_name" = some (.text name)) :
    operand.read operator value entry = .ok p := by
  cases p
  case compare => cases h
  case member values | orMember values | notMember values | orNotMember values
    | memberOrNull values | orMemberNotNull values =>
    cases h
    rw [hgiven _ rfl, Operand.read, memberValues_toJson hvalues]
  case between low high | orBetween low high | notBetween low high | orNotBetween low high =>
    cases h
    rw [hgiven _ rfl, Operand.read, pairValues_toJson operator hvalues.1 hvalues.2]
    rfl
  case isNull | orNull | notNull | orNotNull =>
    cases h
    rfl
  case orEq given | date given | dateUntil given | activeOn given =>
    cases h
    rw [hgiven _ rfl, Operand.read, Value.ofJson_toJson hvalues.1]
  case like text | orLike text =>
    cases h
    rw [hgiven _ rfl]
    rfl
  case has name given =>
    cases h
    rw [hgiven _ rfl, Operand.read, relationName_of_field (hrelation name rfl),
      Value.ofJson_toJson hvalues.1]
    rfl
  case hasLike name text =>
    cases h
    rw [hgiven _ rfl, Operand.read, relationName_of_field (hrelation name rfl)]
    rfl
  case hasBetween name low high =>
    cases h
    have hrange : rangeValues operator (.list [low.toJson, high.toJson]) = .ok (low, high) :=
      pairValues_toJson operator hvalues.1 hvalues.2
    rw [hgiven _ rfl, Operand.read, hrange, relationName_of_field (hrelation name rfl)]
    rfl

theorem readPredicate_of_named {p : Predicate} {written : String} {value entry : Json}
    (hvalues : p.Representable) (hnamed : p.Named written)
    (hgiven : ∀ given ∈ p.payload, value = given)
    (hrelation : ∀ name ∈ p.relation?, entry.field? "relationship_name" = some (.text name)) :
    readPredicate written value entry = .ok p := by
  cases hoperand : p.operand? with
  | some operand =>
    rw [readPredicate, p.named_of_operand? hoperand hnamed, p.find?_of_operand? hoperand]
    exact Operand.read_of_operand? hoperand hvalues hgiven hrelation
  | none =>
    cases p
    case compare op given =>
      -- the word of a comparison is the name of no operator
      have hnone : operators.find? (·.1 = written) = none := by
        cases hfound : operators.find? (·.1 = written) with
        | none => rfl
        | some found => exact absurd hnamed (not_writes_of_mem_names (mem_names_of_find? hfound) op)
      rw [readPredicate, hnone, Comparison.read_eq_ok_iff.mpr hnamed, hgiven _ rfl,
        Value.ofJson_toJson hvalues.1]
      rfl
    all_goals cases hoperand

/-- An entry gives its predicate, or no value where there is no predicate. -/
def IsWrittenBy : Option Predicate → Json → Prop
  | some p, given => p.IsWrittenBy given
  | none, given => ∀ value, given.field? "value" = some value → value = .null

theorem readEntry_of_isWrittenBy {p : Option Predicate} {given : Json} (column : String)
    (hvalues : ∀ q ∈ p, q.Representable) (h : IsWrittenBy p given) :
    readEntry column given = .ok p := by
  cases p with
  | none =>
    unfold readEntry
    split
    next => rfl
    next => rfl
    next value hnull hvalue => exact absurd (h value hvalue) hnull
  | some p =>
    obtain ⟨⟨written, hoperator, hnamed⟩, ⟨value, hvalue, hnull, hgiven⟩, hrelation⟩ := h
    have hread := readPredicate_of_named (hvalues p rfl) hnamed hgiven hrelation
    unfold readEntry
    rw [hvalue]
    split
    next hnone => cases hnone
    next hsome => exact absurd (Option.some.inj hsome) hnull
    next other hnull hsome =>
      cases hsome
      rw [Json.textField_eq_some.mpr hoperator]
      dsimp only
      rw [hread]
      rfl

/-- A form has the columns of a condition in their order, each with an entry of its predicate. -/
def IsForm (condition : Condition) (form : List (String × Json)) : Prop :=
  List.Forall₂ (fun entry given => entry.1 = given.1 ∧ IsWrittenBy entry.2 given.2) condition form

theorem readEntries_of_isForm {condition : Condition} {form : List (String × Json)}
    (hvalues : ∀ entry ∈ condition, ∀ p ∈ entry.2, p.Representable)
    (h : IsForm condition form) : readEntries form = .ok condition := by
  induction h with
  | nil => rfl
  | @cons entry given condition form hentry hrest ih =>
    obtain ⟨column, p⟩ := entry
    obtain ⟨_, given⟩ := given
    obtain ⟨rfl, hwritten⟩ := hentry
    have hhead := readEntry_of_isWrittenBy column (hvalues _ List.mem_cons_self) hwritten
    have htail := ih fun entry hmem => hvalues entry (List.mem_cons_of_mem _ hmem)
    rw [readEntries, hhead, htail]
    rfl

/-- The form of a condition with distinct columns. An entry without a predicate is an empty
object. -/
def form (condition : Condition) (h : (condition.map Prod.fst).Nodup) : OrderedMap Json where
  entries := condition.map fun entry => (entry.1, (entry.2.map Predicate.entry).getD (.object []))
  nodup := by simpa [Function.comp_def] using h

theorem isForm_form {condition : Condition} (h : (condition.map Prod.fst).Nodup)
    (hvalues : ∀ entry ∈ condition, ∀ p ∈ entry.2, p.Representable) :
    IsForm condition (form condition h).entries := by
  refine List.forall₂_map_right_iff.mpr (List.forall₂_same.mpr fun entry hmem => ⟨rfl, ?_⟩)
  obtain ⟨column, p⟩ := entry
  cases p with
  | none => exact fun value hvalue => nomatch hvalue
  | some p => exact p.isWrittenBy_entry (hvalues _ hmem p rfl)

/-- Every condition with distinct columns has a JSON form, and each of its forms reads back as the
condition itself. So the two have the same statement text and bindings for every entity. -/
theorem forms_read_back {condition : Condition} (hcolumns : (condition.map Prod.fst).Nodup)
    (hvalues : ∀ entry ∈ condition, ∀ p ∈ entry.2, p.Representable) :
    IsForm condition (form condition hcolumns).entries ∧
      ∀ given : OrderedMap Json, IsForm condition given.entries →
        ofJson (.ofMap given) = .ok condition ∧
        ∀ e, (ofJson (.ofMap given) >>= criteria e).map
            (fun clauses => (Criteria.text? clauses, Criteria.bindings clauses)) =
          (criteria e condition).map
            fun clauses => (Criteria.text? clauses, Criteria.bindings clauses) := by
  refine ⟨isForm_form hcolumns hvalues, fun given hform => ?_⟩
  have hread : ofJson (.ofMap given) = .ok condition := readEntries_of_isForm hvalues hform
  refine ⟨hread, fun e => ?_⟩
  rw [hread]
  rfl

/-- Lists, bounds, texts, a comparison, a relation, a test for null and a missing value. -/
def mixed : Condition :=
  [("status", some (.member [.int 1, .null])), ("name", some (.orLike "a_b")), ("email", none),
   ("id", some (.orNotBetween (.int 2) .null)), ("rank", some (.compare .notLike (.text "x"))),
   ("city", some (.hasBetween "home" (.text "a") (.text "b"))), ("left_at", some .orNotNull)]

theorem mixed_reads_back : (mixed.map Prod.fst).Nodup ∧
    (∀ entry ∈ mixed, ∀ p ∈ entry.2, p.Representable) ∧
    ofJson (.object
      [("status", .object [("operator", .text "where_in"), ("value", .list [.int 1, .null])]),
       ("name", .object [("operator", .text "where_like_or_where"), ("value", .text "a_b")]),
       ("email", .object []),
       ("id", .object [("operator", .text "or_where_not_between"),
          ("value", .list [.int 2, .null])]),
       ("rank", .object [("operator", .text "NOT LIKE"), ("value", .text "x")]),
       ("city", .object [("operator", .text "where_has_like_between"),
          ("value", .list [.text "a", .text "b"]), ("relationship_name", .text "home")]),
       ("left_at", .object [("operator", .text "or_where_not_null"), ("value", .bool true)])]) =
      .ok mixed := by
  have hcolumns : (mixed.map Prod.fst).Nodup := by decide
  have hints : isInt64 1 = true ∧ isInt64 2 = true := by decide
  have hvalues : ∀ entry ∈ mixed, ∀ p ∈ entry.2, p.Representable := by
    simp [mixed, Predicate.Representable, Value.Representable, hints]
  obtain ⟨hform, hread⟩ := forms_read_back hcolumns hvalues
  exact ⟨hcolumns, hvalues, (hread (form mixed hcolumns) hform).1⟩

end Condition

end TableQuery
