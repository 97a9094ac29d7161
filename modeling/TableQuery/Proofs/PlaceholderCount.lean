import Mathlib.Algebra.GroupWithZero.Nat
import TableQuery.Proofs.PlainProjection

namespace TableQuery

open Sql

namespace Text

/-- How many placeholders a text has. -/
def markCount (s : String) : Nat :=
  s.toList.count '?'

theorem markCount_append (s t : String) : markCount (s ++ t) = markCount s + markCount t := by
  simp [markCount]

theorem markCount_joined {separator : String} (hseparator : markCount separator = 0)
    (texts : List String) : markCount (joined separator texts) = (texts.map markCount).sum := by
  induction texts with
  | nil => rfl
  | cons a rest ih =>
    by_cases hrest : rest = []
    · subst hrest
      simp [joined]
    · rw [joined_cons hrest, markCount_append, markCount_append, hseparator, ih]
      simp

theorem markCount_commaList (names : List String) :
    markCount (commaList names) = (names.map markCount).sum :=
  markCount_joined rfl names

theorem markCount_placeholders (count : Nat) : markCount (placeholders count) = count := by
  have hmark : markCount "?" = 1 := rfl
  rw [placeholders, markCount_commaList, List.map_replicate, List.sum_replicate_nat, hmark,
    Nat.mul_one]

theorem markCount_intText (n : Int) : markCount (intText n) = 0 := by
  have hdigits : ∀ k : Nat, '?' ∉ Nat.toDigits 10 k := fun k hmem => by
    have hdigit := Nat.isDigit_of_mem_toDigits (by decide) (by decide) hmem
    exact absurd hdigit (by decide)
  rw [markCount, List.count_eq_zero, intText, String.toList_ofList]
  unfold intCharacters
  split
  next => simp [hdigits]
  next => exact hdigits _

end Text

/-- Nothing in a text is a placeholder. -/
def Unmarked (s : String) : Prop :=
  Text.markCount s = 0

instance : DecidablePred Unmarked := fun s =>
  inferInstanceAs (Decidable (Text.markCount s = 0))

theorem Unmarked.append {s t : String} (hs : Unmarked s) (ht : Unmarked t) : Unmarked (s ++ t) := by
  unfold Unmarked at *
  rw [Text.markCount_append, hs, ht]

theorem Unmarked.commaList {names : List String} (h : ∀ name ∈ names, Unmarked name) :
    Unmarked (Text.commaList names) := by
  rw [Unmarked, Text.markCount_commaList, List.sum_eq_zero_iff_forall_eq_nat]
  intro n hn
  obtain ⟨name, hname, rfl⟩ := List.mem_map.mp hn
  exact h name hname

namespace Identifier

theorem IsName.unmarked {ns : List Char} (h : IsName ns) : '?' ∉ ns := fun hmem =>
  absurd (h.isNameCharacter hmem) (by decide)

theorem ShownPart.unmarked {cs : List Char} (h : ShownPart cs) : '?' ∉ cs := by
  cases h with
  | absent => simp
  | present has hname =>
    have hletters := Bool.and_eq_true _ _ ▸ has
    rintro hmem
    rcases List.mem_cons.mp hmem with hmem | hmem
    · exact absurd hmem (by decide)
    · rcases List.mem_cons.mp hmem with rfl | hmem
      · simp at hletters
      · rcases List.mem_cons.mp hmem with rfl | hmem
        · simp at hletters
        · rcases List.mem_cons.mp hmem with hmem | hmem
          · exact absurd hmem (by decide)
          · exact hname.unmarked hmem

theorem Spelling.unmarked {cs : List Char} (h : Spelling cs) : '?' ∉ cs := by
  cases h with
  | star => decide
  | column hname htail => simp [hname.unmarked, htail.unmarked]
  | qualified htable hname htail => simp [htable.unmarked, hname.unmarked, htail.unmarked]
  | tableStar htable htail => simp [htable.unmarked, htail.unmarked]

theorem unmarked_of_valid {name : String} (h : valid name = true) : Unmarked name :=
  List.count_eq_zero.mpr (spelling_of_valid h).unmarked

end Identifier

mutual

/-- No name holds a placeholder, and what a caller writes in words of its own holds as many as it
brings values. -/
def Test.WellMarked : Test → Prop
  | .raw sql values => Text.markCount sql = values.length
  | .compare column _ _ => Unmarked column
  | .member column _ _ => Unmarked column
  | .between column _ _ _ => Unmarked column
  | .isNull column _ => Unmarked column
  | .date column _ _ => Unmarked column
  | .contains column _ => Unmarked column
  | .activeOn table _ => Unmarked table
  | .group clauses => Criteria.WellMarked clauses
  | .has parent relation clauses =>
    Unmarked parent ∧ Unmarked relation.table ∧ Unmarked relation.relatedKey ∧
      Unmarked relation.parentKey ∧ Criteria.WellMarked clauses

def Criteria.WellMarked : List (Connector × Test) → Prop
  | [] => True
  | (_, test) :: rest => test.WellMarked ∧ Criteria.WellMarked rest

end

theorem Criteria.wellMarked_iff {criteria : Criteria} :
    Criteria.WellMarked criteria ↔ ∀ clause ∈ criteria, clause.2.WellMarked := by
  induction criteria with
  | nil => simp [Criteria.WellMarked]
  | cons clause rest ih => simp [Criteria.WellMarked, ih]

theorem Connector.unmarked_text (connector : Connector) : Unmarked connector.text := by
  cases connector <;> rfl

theorem Comparison.unmarked_sign (op : Comparison) : Unmarked op.sign := by
  cases op <;> rfl

namespace Test

theorem markCount_compareText {column : String} (h : Unmarked column) (op : Comparison)
    (value : Value) :
    Text.markCount (compareText column op value) = (compareValues op value).length := by
  have hnull : ∀ tail, Unmarked tail → Text.markCount (column ++ tail) = 0 := fun tail htail =>
    h.append htail
  have hmark : Text.markCount (column ++ " " ++ op.sign ++ " ?") = 1 := by
    simp only [Text.markCount_append]
    rw [h, op.unmarked_sign]
    rfl
  unfold compareText compareValues
  split
  next => exact hnull " IS NULL" rfl
  next => exact hnull " IS NOT NULL" rfl
  next => exact hmark

theorem markCount_memberText {column : String} (h : Unmarked column) (count : Nat)
    (negated : Bool) : Text.markCount (memberText column count negated) = count := by
  unfold memberText
  split
  next hzero =>
    subst hzero
    cases negated <;> rfl
  next =>
    simp only [Text.markCount_append, Text.markCount_placeholders]
    rw [h]
    cases negated <;> simp [Text.markCount]

theorem markCount_activeOnText {table : String} (h : Unmarked table) :
    Text.markCount (activeOnText table) = 3 := by
  unfold activeOnText enteredText
  simp only [Text.markCount_append]
  rw [h]
  rfl

theorem unmarked_hasText {parent : String} {relation : Relation} (hparent : Unmarked parent)
    (htable : Unmarked relation.table) (hrelated : Unmarked relation.relatedKey)
    (howner : Unmarked relation.parentKey) : Unmarked (hasText parent relation) := by
  unfold hasText Unmarked
  simp only [Text.markCount_append]
  rw [hparent, htable, hrelated, howner]
  rfl

end Test

namespace Criteria

theorem markCount_restText {criteria : Criteria}
    (h : ∀ clause ∈ criteria, Text.markCount clause.2.text = clause.2.bindings.length) :
    Text.markCount (restText criteria) = (Criteria.bindings criteria).length := by
  induction criteria with
  | nil => rfl
  | cons clause rest ih =>
    obtain ⟨connector, t⟩ := clause
    have ht : Text.markCount t.text = t.bindings.length := h (connector, t) List.mem_cons_self
    have hconnector : Text.markCount connector.text = 0 := connector.unmarked_text
    rw [restText, Criteria.bindings, Text.markCount_append, Text.markCount_append, hconnector, ht,
      ih fun other hmem => h other (List.mem_cons_of_mem _ hmem), List.length_append, Nat.zero_add]

theorem markCount_text_of_clauses {criteria : Criteria}
    (h : ∀ clause ∈ criteria, Text.markCount clause.2.text = clause.2.bindings.length) :
    Text.markCount (Criteria.text criteria) = (Criteria.bindings criteria).length := by
  cases criteria with
  | nil => rfl
  | cons clause rest =>
    obtain ⟨connector, t⟩ := clause
    have ht : Text.markCount t.text = t.bindings.length := h (connector, t) List.mem_cons_self
    rw [Criteria.text, Criteria.bindings, Text.markCount_append, ht,
      markCount_restText fun other hmem => h other (List.mem_cons_of_mem _ hmem),
      List.length_append]

end Criteria

/-- A test has a placeholder for each of its values. -/
theorem Test.markCount_text {t : Test} (h : t.WellMarked) :
    Text.markCount t.text = t.bindings.length := by
  revert h
  refine Test.nestedInduction (P := fun t => t.WellMarked →
    Text.markCount t.text = t.bindings.length)
    ?_ ?_ ?_ ?_ ?_ ?_ ?_ ?_ ?_ ?_ t
  · exact fun sql values h => h
  · exact fun column op value h => markCount_compareText h op value
  · exact fun column values negated h => markCount_memberText h values.length negated
  · intro column low high negated h
    cases negated <;> exact (Text.markCount_append _ _).trans (by rw [h]; rfl)
  · intro column negated h
    cases negated <;> exact (Text.markCount_append _ _).trans (by rw [h]; rfl)
  · intro column op value h
    rw [Test.text]
    simp only [Text.markCount_append]
    rw [h, op.unmarked_sign]
    rfl
  · intro column text h
    exact (Text.markCount_append _ _).trans (by rw [h]; rfl)
  · exact fun table day h => markCount_activeOnText h
  · intro clauses ih h
    have hclauses := Criteria.markCount_text_of_clauses fun clause hmem =>
      ih clause hmem (Criteria.wellMarked_iff.mp h clause hmem)
    rw [Test.text, Test.bindings, Text.markCount_append, Text.markCount_append, hclauses]
    exact Nat.zero_add _
  · intro parent relation clauses ih h
    obtain ⟨hparent, htable, hrelated, howner, h⟩ := h
    have hclauses := Criteria.markCount_text_of_clauses fun clause hmem =>
      ih clause hmem (Criteria.wellMarked_iff.mp h clause hmem)
    have hhead : Text.markCount (hasText parent relation) = 0 :=
      unmarked_hasText hparent htable hrelated howner
    rw [Test.text, Test.bindings, Text.markCount_append, hhead, Nat.zero_add]
    split
    next hempty =>
      rw [List.isEmpty_iff.mp hempty]
      rfl
    next =>
      rw [Text.markCount_append, Text.markCount_append, hclauses]
      exact Nat.zero_add _

theorem Criteria.markCount_text {criteria : Criteria} (h : Criteria.WellMarked criteria) :
    Text.markCount (Criteria.text criteria) = (Criteria.bindings criteria).length :=
  Criteria.markCount_text_of_clauses fun clause hmem =>
    Test.markCount_text (Criteria.wellMarked_iff.mp h clause hmem)

/-- A clause where it stands in a statement: what is written before it, and the values bound
before it. -/
structure Placed where
  before : String
  values : List Value
  test : Test

mutual

/-- A test behind a text and its values, with the clauses within it. -/
def Test.placed (before : String) (values : List Value) : Test → List Placed
  | .group clauses =>
    ⟨before, values, .group clauses⟩ :: Criteria.placed (before ++ "(") values clauses
  | .has parent relation clauses =>
    ⟨before, values, .has parent relation clauses⟩ ::
      Criteria.placed (before ++ (Test.hasText parent relation ++ " AND (")) values clauses
  | t => [⟨before, values, t⟩]

/-- All clauses of a list, at whatever depth, behind a text and its values. -/
def Criteria.placed (before : String) (values : List Value) : List (Connector × Test) → List Placed
  | [] => []
  | (_, test) :: rest =>
    test.placed before values ++
      Criteria.restPlaced (before ++ test.text) (values ++ test.bindings) rest

def Criteria.restPlaced (before : String) (values : List Value) :
    List (Connector × Test) → List Placed
  | [] => []
  | (connector, test) :: rest =>
    test.placed (before ++ connector.text) values ++
      Criteria.restPlaced (before ++ connector.text ++ test.text) (values ++ test.bindings) rest

end

/-- The clause stands in the text where its placeholders are those of its own values. -/
structure Placed.Fits (p : Placed) (text : String) (values : List Value) : Prop where
  written : ∃ rest, text = p.before ++ p.test.text ++ rest
  bound : ∃ later, values = p.values ++ p.test.bindings ++ later
  marks_before : Text.markCount p.before = p.values.length
  own_marks : Text.markCount p.test.text = p.test.bindings.length

theorem Placed.Fits.append {p : Placed} {text : String} {values : List Value}
    (h : p.Fits text values) (rest : String) (later : List Value) :
    p.Fits (text ++ rest) (values ++ later) := by
  obtain ⟨tail, htext⟩ := h.written
  obtain ⟨others, hvalues⟩ := h.bound
  refine ⟨⟨tail ++ rest, ?_⟩, ⟨others ++ later, ?_⟩, h.marks_before, h.own_marks⟩
  · rw [htext, String.append_assoc]
  · rw [hvalues, List.append_assoc]

/-- A placeholder in the text of a clause gets the value that the clause has for it. -/
theorem Placed.Fits.received {p : Placed} {text : String} {values : List Value}
    (h : p.Fits text values) {head tail : String} (hmark : p.test.text = head ++ "?" ++ tail) :
    ∃ v, p.test.bindings[Text.markCount head]? = some v ∧
      values[Text.markCount (p.before ++ head)]? = some v := by
  have hlt : Text.markCount head < p.test.bindings.length := by
    have hcount := h.own_marks
    rw [hmark, Text.markCount_append, Text.markCount_append] at hcount
    have hone : Text.markCount "?" = 1 := rfl
    omega
  obtain ⟨later, hvalues⟩ := h.bound
  refine ⟨_, List.getElem?_eq_getElem hlt, ?_⟩
  rw [Text.markCount_append, h.marks_before, hvalues, List.append_assoc,
    List.getElem?_append_right (Nat.le_add_right _ _), Nat.add_sub_cancel_left,
    List.getElem?_append_left hlt, List.getElem?_eq_getElem hlt]

namespace Criteria

/-- The clauses of a test fit, and those behind it do. -/
theorem fits_cons {t : Test} {rest : Criteria} {before : String} {values : List Value}
    (hfirst : ∀ p ∈ t.placed before values, p.Fits (before ++ t.text) (values ++ t.bindings))
    (hrest : ∀ p ∈ restPlaced (before ++ t.text) (values ++ t.bindings) rest,
      p.Fits (before ++ t.text ++ restText rest)
        (values ++ t.bindings ++ Criteria.bindings rest)) :
    ∀ p ∈ t.placed before values ++ restPlaced (before ++ t.text) (values ++ t.bindings) rest,
      p.Fits (before ++ (t.text ++ restText rest))
        (values ++ (t.bindings ++ Criteria.bindings rest)) := by
  intro p hp
  rw [← String.append_assoc, ← List.append_assoc]
  rcases List.mem_append.mp hp with hp | hp
  · exact (hfirst p hp).append (restText rest) (Criteria.bindings rest)
  · exact hrest p hp

theorem markCount_behind {t : Test} (h : t.WellMarked) {before : String} {values : List Value}
    (hbefore : Text.markCount before = values.length) :
    Text.markCount (before ++ t.text) = (values ++ t.bindings).length := by
  rw [Text.markCount_append, hbefore, Test.markCount_text h, List.length_append]

theorem fits_restPlaced {criteria : Criteria} (hmarked : Criteria.WellMarked criteria)
    (h : ∀ clause ∈ criteria, ∀ before values, Text.markCount before = values.length →
      ∀ p ∈ clause.2.placed before values,
        p.Fits (before ++ clause.2.text) (values ++ clause.2.bindings))
    {before : String} {values : List Value} (hbefore : Text.markCount before = values.length) :
    ∀ p ∈ restPlaced before values criteria,
      p.Fits (before ++ restText criteria) (values ++ Criteria.bindings criteria) := by
  induction criteria generalizing before values with
  | nil =>
    intro p hp
    cases hp
  | cons clause rest ih =>
    obtain ⟨connector, t⟩ := clause
    have hhere : Text.markCount (before ++ connector.text) = values.length := by
      rw [Text.markCount_append, connector.unmarked_text, hbefore, Nat.add_zero]
    have hrest := ih hmarked.2 (fun other hmem => h other (List.mem_cons_of_mem _ hmem))
      (markCount_behind hmarked.1 hhere)
    have hcons := fits_cons (h (connector, t) List.mem_cons_self _ _ hhere) hrest
    have htext : before ++ restText ((connector, t) :: rest) =
        before ++ connector.text ++ (t.text ++ restText rest) := by
      simp only [restText, String.append_assoc]
    rw [htext]
    exact hcons

theorem fits_placed_of_clauses {criteria : Criteria} (hmarked : Criteria.WellMarked criteria)
    (h : ∀ clause ∈ criteria, ∀ before values, Text.markCount before = values.length →
      ∀ p ∈ clause.2.placed before values,
        p.Fits (before ++ clause.2.text) (values ++ clause.2.bindings))
    {before : String} {values : List Value} (hbefore : Text.markCount before = values.length) :
    ∀ p ∈ Criteria.placed before values criteria,
      p.Fits (before ++ Criteria.text criteria) (values ++ Criteria.bindings criteria) := by
  cases criteria with
  | nil =>
    intro p hp
    cases hp
  | cons clause rest =>
    have hrest := fits_restPlaced hmarked.2 (fun other hmem => h other (List.mem_cons_of_mem _ hmem))
      (markCount_behind hmarked.1 hbefore)
    exact fits_cons (h clause List.mem_cons_self _ _ hbefore) hrest

end Criteria

/-- A test fits where it stands, and so do all clauses within it. -/
theorem Test.fits_placed {t : Test} (h : t.WellMarked) {before : String} {values : List Value}
    (hbefore : Text.markCount before = values.length) :
    ∀ p ∈ t.placed before values, p.Fits (before ++ t.text) (values ++ t.bindings) := by
  revert before values h
  have hself : ∀ {t : Test}, t.WellMarked → ∀ {before values},
      Text.markCount before = values.length →
        Placed.Fits ⟨before, values, t⟩ (before ++ t.text) (values ++ t.bindings) := by
    intro t h before values hbefore
    exact ⟨⟨"", by simp⟩, ⟨[], by simp⟩, hbefore, Test.markCount_text h⟩
  have hleaf : ∀ {t : Test}, (∀ before values, t.placed before values = [⟨before, values, t⟩]) →
      t.WellMarked → ∀ {before values}, Text.markCount before = values.length →
        ∀ p ∈ t.placed before values, p.Fits (before ++ t.text) (values ++ t.bindings) := by
    intro t hplaced h before values hbefore p hp
    rw [hplaced, List.mem_singleton] at hp
    exact hp ▸ hself h hbefore
  -- only a group and a test for related rows have clauses within them, behind an opening text
  refine Test.nestedInduction (P := fun t => t.WellMarked → ∀ {before : String}
    {values : List Value}, Text.markCount before = values.length →
      ∀ p ∈ t.placed before values, p.Fits (before ++ t.text) (values ++ t.bindings))
    (fun _ _ => hleaf fun _ _ => rfl) (fun _ _ _ => hleaf fun _ _ => rfl)
    (fun _ _ _ => hleaf fun _ _ => rfl) (fun _ _ _ _ => hleaf fun _ _ => rfl)
    (fun _ _ => hleaf fun _ _ => rfl) (fun _ _ _ => hleaf fun _ _ => rfl)
    (fun _ _ => hleaf fun _ _ => rfl) (fun _ _ => hleaf fun _ _ => rfl) ?_ ?_ t
  · intro clauses ih h before values hbefore p hp
    rcases List.mem_cons.mp hp with rfl | hp
    · exact hself h hbefore
    · have hopen : Text.markCount (before ++ "(") = values.length :=
        (Text.markCount_append _ _).trans hbefore
      have hfits := Criteria.fits_placed_of_clauses h
        (fun clause hmem before values hbefore =>
          ih clause hmem (Criteria.wellMarked_iff.mp h clause hmem) hbefore) hopen p hp
      have hmore := hfits.append ")" []
      rw [Test.text, Test.bindings]
      simpa only [String.append_assoc, List.append_nil] using hmore
  · intro parent relation clauses ih h before values hbefore p hp
    rcases List.mem_cons.mp hp with rfl | hp
    · exact hself h hbefore
    · obtain ⟨hparent, htable, hrelated, howner, h⟩ := h
      have hopen : Text.markCount (before ++ (hasText parent relation ++ " AND (")) =
          values.length := by
        rw [Text.markCount_append, hbefore, Text.markCount_append,
          unmarked_hasText hparent htable hrelated howner]
        rfl
      have hfits := Criteria.fits_placed_of_clauses h
        (fun clause hmem before values hbefore =>
          ih clause hmem (Criteria.wellMarked_iff.mp h clause hmem) hbefore) hopen p hp
      have hmore := hfits.append "))" []
      have hne : clauses.isEmpty = false := by
        cases clauses with
        | nil => cases hp
        | cons clause rest => rfl
      rw [Test.text, Test.bindings, hne]
      simpa only [Bool.false_eq_true, ↓reduceIte, String.append_assoc, List.append_nil] using hmore

theorem Criteria.fits_placed {criteria : Criteria} (h : Criteria.WellMarked criteria)
    {before : String} {values : List Value} (hbefore : Text.markCount before = values.length) :
    ∀ p ∈ Criteria.placed before values criteria,
      p.Fits (before ++ Criteria.text criteria) (values ++ Criteria.bindings criteria) :=
  Criteria.fits_placed_of_clauses h (fun clause hmem _ _ hbefore =>
    Test.fits_placed (Criteria.wellMarked_iff.mp h clause hmem) hbefore) hbefore

end TableQuery
