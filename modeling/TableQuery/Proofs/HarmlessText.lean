import TableQuery.Proofs.ClauseTokens
import TableQuery.Proofs.PlainProjection

namespace TableQuery

namespace Text

/-- The characters that end a statement, or begin a quoted name or a comment. -/
def injectionMarks : List Char :=
  ";\"`[/".toList

def isControl (c : Char) : Bool :=
  c.toNat < 32 || (127 ≤ c.toNat && c.toNat < 160)

/-- A character that may stand anywhere in a statement. -/
def isHarmless (c : Char) : Bool :=
  !isControl c && !injectionMarks.contains c && c ≠ '-' && c ≠ '\''

/-- What follows a pattern in a statement. Its quotes are the only ones. -/
def escapeSuffix : List Char :=
  "ESCAPE '\\'".toList

/-- Harmless characters and escape suffixes one after another. -/
inductive CleanCharacters : List Char → Prop
  | nil : CleanCharacters []
  | cons {c : Char} {cs : List Char} (hc : isHarmless c = true) (hcs : CleanCharacters cs) :
      CleanCharacters (c :: cs)
  | escape {cs : List Char} (hcs : CleanCharacters cs) : CleanCharacters (escapeSuffix ++ cs)

theorem CleanCharacters.append {cs ds : List Char} (h : CleanCharacters cs)
    (hds : CleanCharacters ds) : CleanCharacters (cs ++ ds) := by
  induction h with
  | nil => exact hds
  | cons hc _ ih => exact ih.cons hc
  | escape _ ih =>
    rw [List.append_assoc]
    exact ih.escape

theorem cleanCharacters_of_harmless {cs : List Char} (h : ∀ c ∈ cs, isHarmless c = true) :
    CleanCharacters cs := by
  induction cs with
  | nil => exact .nil
  | cons c cs ih =>
    exact (ih fun d hd => h d (List.mem_cons_of_mem _ hd)).cons (h c List.mem_cons_self)

/-- No character of a statement begins anything that was not meant, and every quote stands in an
escape suffix. -/
structure Harmless (s : String) : Prop where
  marks : ∀ c ∈ s.toList, c ∉ injectionMarks ∧ isControl c = false
  comment : ¬['-', '-'] <:+: s.toList
  quotes : ∀ before after, s.toList = before ++ '\'' :: after →
    ("ESCAPE ".toList <:+ before ∧ ['\\', '\''] <+: after) ∨ "ESCAPE '\\".toList <:+ before

theorem CleanCharacters.marks {cs : List Char} (h : CleanCharacters cs) :
    ∀ c ∈ cs, c ∉ injectionMarks ∧ isControl c = false ∧ c ≠ '-' := by
  have hharmless : ∀ {c : Char}, isHarmless c = true →
      c ∉ injectionMarks ∧ isControl c = false ∧ c ≠ '-' := by
    intro c hc
    simp only [isHarmless, Bool.and_eq_true, Bool.not_eq_true', decide_eq_true_eq] at hc
    obtain ⟨⟨⟨hcontrol, hmark⟩, hminus⟩, _⟩ := hc
    exact ⟨by simpa using hmark, hcontrol, hminus⟩
  induction h with
  | nil => simp
  | cons hc _ ih => exact List.forall_mem_cons.mpr ⟨hharmless hc, ih⟩
  | escape _ ih =>
    have hsuffix : (escapeSuffix.all fun c =>
        decide (c ∉ injectionMarks ∧ isControl c = false ∧ c ≠ '-')) = true := by
      decide
    refine List.forall_mem_append.mpr ⟨fun c hc => ?_, ih⟩
    exact of_decide_eq_true (List.all_eq_true.mp hsuffix c hc)

/-- The two places of a quote in an escape suffix. -/
theorem escapeSuffix_quotes {before after : List Char} (h : escapeSuffix = before ++ '\'' :: after) :
    (before = "ESCAPE ".toList ∧ after = ['\\', '\'']) ∨
      (before = "ESCAPE '\\".toList ∧ after = []) := by
  have hquotes : ∀ n < escapeSuffix.length, escapeSuffix[n]? = some '\'' → n = 7 ∨ n = 9 := by
    decide
  have hlength : before.length < escapeSuffix.length := by
    rw [h]
    simp
  have hquote : escapeSuffix[before.length]? = some '\'' := by
    rw [h]
    simp
  have hbefore : before = escapeSuffix.take before.length := by
    rw [h, List.take_left]
  have hafter : after = escapeSuffix.drop (before.length + 1) := by
    rw [h]
    simp
  rcases hquotes before.length hlength hquote with hplace | hplace
  · rw [hplace] at hbefore hafter
    exact .inl ⟨hbefore, hafter⟩
  · rw [hplace] at hbefore hafter
    exact .inr ⟨hbefore, hafter⟩

/-- A quote among clean characters is the first or the second of an escape suffix. -/
theorem CleanCharacters.quotes {cs : List Char} (h : CleanCharacters cs) {before after : List Char}
    (hcs : cs = before ++ '\'' :: after) :
    ("ESCAPE ".toList <:+ before ∧ ['\\', '\''] <+: after) ∨ "ESCAPE '\\".toList <:+ before := by
  induction h generalizing before with
  | nil => simp at hcs
  | @cons c cs hc _ ih =>
    cases before with
    | nil =>
      obtain ⟨rfl, _⟩ := List.cons.inj hcs
      exact absurd hc (by decide)
    | cons d before =>
      obtain ⟨_, hrest⟩ := List.cons.inj hcs
      exact (ih hrest).imp (fun found => ⟨found.1.trans (List.suffix_cons _ _), found.2⟩)
        fun found => found.trans (List.suffix_cons _ _)
  | @escape cs _ ih =>
    -- the quote is one of the two in the suffix, or stands in what follows the suffix
    have hbehind : ∀ {between : List Char}, cs = between ++ '\'' :: after →
        ("ESCAPE ".toList <:+ escapeSuffix ++ between ∧ ['\\', '\''] <+: after) ∨
          "ESCAPE '\\".toList <:+ escapeSuffix ++ between := fun hrest =>
      (ih hrest).imp (fun found => ⟨found.1.trans (List.suffix_append _ _), found.2⟩)
        fun found => found.trans (List.suffix_append _ _)
    rcases List.append_eq_append_iff.mp hcs with ⟨between, rfl, hrest⟩ | ⟨between, hsuffix, hrest⟩
    · exact hbehind hrest
    · cases between with
      | nil =>
        rw [List.append_nil] at hsuffix
        have hstart : cs = [] ++ '\'' :: after := hrest.symm
        have hplace := hbehind hstart
        rwa [List.append_nil, hsuffix] at hplace
      | cons d between =>
        obtain ⟨rfl, rfl⟩ := List.cons.inj hrest
        rcases escapeSuffix_quotes hsuffix with ⟨rfl, rfl⟩ | ⟨rfl, rfl⟩
        · exact .inl ⟨List.suffix_refl _, List.prefix_append _ _⟩
        · exact .inr (List.suffix_refl _)

/-- A text of clean characters. -/
def Clean (s : String) : Prop :=
  CleanCharacters s.toList

theorem Clean.harmless {s : String} (h : Clean s) : Harmless s where
  marks c hc := ⟨(h.marks c hc).1, (h.marks c hc).2.1⟩
  comment hmarks := (h.marks '-' (hmarks.subset (by simp))).2.2 rfl
  quotes _ _ := h.quotes

theorem clean_of_all {s : String} (h : s.toList.all isHarmless = true) : Clean s :=
  cleanCharacters_of_harmless (List.all_eq_true.mp h)

theorem Clean.append {s t : String} (hs : Clean s) (ht : Clean t) : Clean (s ++ t) := by
  unfold Clean at *
  rw [String.toList_append]
  exact CleanCharacters.append hs ht

theorem Clean.commaList {texts : List String} (h : ∀ text ∈ texts, Clean text) :
    Clean (commaList texts) := by
  unfold Text.commaList
  induction texts with
  | nil => exact .nil
  | cons text texts ih =>
    have htext := h text List.mem_cons_self
    by_cases hrest : texts = []
    · subst hrest
      exact htext
    · rw [joined_cons hrest]
      exact (htext.append (clean_of_all rfl)).append
        (ih fun other hmem => h other (List.mem_cons_of_mem _ hmem))

theorem clean_placeholders (count : Nat) : Clean (placeholders count) := by
  refine Clean.commaList fun text hmem => ?_
  rw [List.eq_of_mem_replicate hmem]
  exact clean_of_all rfl

end Text

open Text

namespace Identifier

theorem isHarmless_of_isNameCharacter {c : Char} (h : isNameCharacter c = true) :
    isHarmless c = true := by
  have hall : ∀ n < 128, isNameCharacter (Char.ofNat n) = true →
      isHarmless (Char.ofNat n) = true := by
    decide +kernel
  have hchar := hall c.toNat (toNat_of_isNameCharacter h)
  rw [Char.ofNat_toNat] at hchar
  exact hchar h

theorem IsName.clean {ns : List Char} (h : IsName ns) : CleanCharacters ns :=
  cleanCharacters_of_harmless fun _ hc => isHarmless_of_isNameCharacter (h.isNameCharacter hc)

theorem ShownPart.clean {cs : List Char} (h : ShownPart cs) : CleanCharacters cs := by
  cases h with
  | absent => exact .nil
  | @present a s name has hname =>
    simp only [isAs, Bool.and_eq_true, Bool.or_eq_true, decide_eq_true_eq] at has
    obtain ⟨rfl | rfl, (rfl | rfl) | rfl⟩ := has <;>
      exact (((hname.clean.cons rfl).cons rfl).cons rfl).cons rfl

theorem Spelling.clean {cs : List Char} (h : Spelling cs) : CleanCharacters cs := by
  cases h with
  | star => exact .cons rfl .nil
  | column hname htail => exact hname.clean.append htail.clean
  | qualified htable hname htail =>
    exact htable.clean.append ((hname.clean.append htail.clean).cons rfl)
  | tableStar htable htail => exact htable.clean.append ((htail.clean.cons rfl).cons rfl)

/-- What is spelled like an identifier holds nothing that a statement could be broken with. -/
theorem clean_of_valid {name : String} (h : valid name = true) : Clean name :=
  (spelling_of_valid h).clean

end Identifier

open Identifier

mutual

/-- All names are identifiers, and what a caller writes in words of its own is clean. -/
def Test.Spelled : Test → Prop
  | .raw sql _ => Clean sql
  | .compare column _ _ => valid column = true
  | .member column _ _ => valid column = true
  | .between column _ _ _ => valid column = true
  | .isNull column _ => valid column = true
  | .date column _ _ => valid column = true
  | .contains column _ => valid column = true
  | .activeOn table _ => valid table = true
  | .group clauses => Criteria.Spelled clauses
  | .has parent relation clauses =>
    valid parent = true ∧ valid relation.table = true ∧ valid relation.relatedKey = true ∧
      valid relation.parentKey = true ∧ Criteria.Spelled clauses

def Criteria.Spelled : List (Connector × Test) → Prop
  | [] => True
  | (_, test) :: rest => test.Spelled ∧ Criteria.Spelled rest

end

theorem Criteria.spelled_iff {criteria : Criteria} :
    Criteria.Spelled criteria ↔ ∀ clause ∈ criteria, clause.2.Spelled := by
  induction criteria with
  | nil => simp [Criteria.Spelled]
  | cons clause rest ih => simp [Criteria.Spelled, ih]

theorem Criteria.Spelled.append {first second : Criteria} (h : Criteria.Spelled first)
    (h' : Criteria.Spelled second) : Criteria.Spelled (first ++ second) := by
  rw [Criteria.spelled_iff] at *
  exact List.forall_mem_append.mpr ⟨h, h'⟩

theorem Connector.clean_text (connector : Connector) : Clean connector.text := by
  cases connector <;> exact clean_of_all rfl

theorem Comparison.clean_sign (op : Comparison) : Clean op.sign := by
  cases op <;> exact clean_of_all rfl

namespace Test

variable {column : String}

theorem clean_compareText (h : Clean column) (op : Comparison) (value : Value) :
    Clean (compareText column op value) := by
  unfold compareText
  split
  next => exact h.append (clean_of_all rfl)
  next => exact h.append (clean_of_all rfl)
  next =>
    have hsigned : Clean (column ++ " " ++ op.sign) :=
      (h.append (t := " ") (clean_of_all rfl)).append op.clean_sign
    exact hsigned.append (clean_of_all rfl)

theorem clean_memberText (h : Clean column) (count : Nat) (negated : Bool) :
    Clean (memberText column count negated) := by
  unfold memberText
  split
  next => cases negated <;> exact clean_of_all rfl
  next =>
    have hopen : Clean (if negated then " NOT IN (" else " IN (") := by
      cases negated <;> exact clean_of_all rfl
    exact ((h.append hopen).append (clean_placeholders count)).append (t := ")") (clean_of_all rfl)

theorem clean_enteredText {table : String} (h : Clean table) : Clean (enteredText table) :=
  (Clean.append (s := "DATE(") (clean_of_all rfl) h).append (clean_of_all rfl)

theorem clean_activeOnText {table : String} (h : Clean table) : Clean (activeOnText table) := by
  have hleft : Clean ("(CASE WHEN " ++ table ++ ".leave_at IS NOT NULL THEN ") :=
    (Clean.append (s := "(CASE WHEN ") (clean_of_all rfl) h).append (clean_of_all rfl)
  have hboth : Clean ("(CASE WHEN " ++ table ++ ".leave_at IS NOT NULL THEN " ++
      enteredText table ++ " AND DATE(" ++ table ++ ".leave_at) >= ? ELSE ") :=
    ((((hleft.append (clean_enteredText h)).append (t := " AND DATE(") (clean_of_all rfl)).append
      h).append (clean_of_all rfl))
  exact (hboth.append (clean_enteredText h)).append (t := " END)") (clean_of_all rfl)

theorem clean_hasText {parent : String} {relation : Relation} (hparent : Clean parent)
    (htable : Clean relation.table) (hrelated : Clean relation.relatedKey)
    (howner : Clean relation.parentKey) : Clean (hasText parent relation) := by
  have hfrom : Clean ("EXISTS (SELECT 1 FROM " ++ relation.table ++ " WHERE ") :=
    (Clean.append (s := "EXISTS (SELECT 1 FROM ") (clean_of_all rfl) htable).append
      (clean_of_all rfl)
  have hrelatedKey : Clean ("EXISTS (SELECT 1 FROM " ++ relation.table ++ " WHERE " ++
      relation.table ++ "." ++ relation.relatedKey) :=
    ((hfrom.append htable).append (t := ".") (clean_of_all rfl)).append hrelated
  exact (((hrelatedKey.append (t := " = ") (clean_of_all rfl)).append hparent).append (t := ".")
    (clean_of_all rfl)).append howner

end Test

theorem Criteria.clean_restText {criteria : Criteria}
    (h : ∀ clause ∈ criteria, Clean clause.2.text) : Clean (restText criteria) := by
  induction criteria with
  | nil => exact .nil
  | cons clause rest ih =>
    rw [restText]
    exact (clause.1.clean_text.append (h clause List.mem_cons_self)).append
      (ih fun other hmem => h other (List.mem_cons_of_mem _ hmem))

theorem Criteria.clean_text_of_clauses {criteria : Criteria}
    (h : ∀ clause ∈ criteria, Clean clause.2.text) : Clean (Criteria.text criteria) := by
  cases criteria with
  | nil => exact .nil
  | cons clause rest =>
    rw [Criteria.text]
    exact (h clause List.mem_cons_self).append
      (clean_restText fun other hmem => h other (List.mem_cons_of_mem _ hmem))

/-- A test of identifiers has a clean text, at whatever depth they stand. -/
theorem Test.clean_text {t : Test} (h : t.Spelled) : Clean t.text := by
  induction t using Test.nestedInduction with
  | raw sql values => exact h
  | compare column op value => exact clean_compareText (clean_of_valid h) op value
  | member column values negated => exact clean_memberText (clean_of_valid h) values.length negated
  | between column low high negated =>
    rw [Test.text]
    cases negated <;> exact (clean_of_valid h).append (clean_of_all rfl)
  | isNull column negated =>
    rw [Test.text]
    cases negated <;> exact (clean_of_valid h).append (clean_of_all rfl)
  | date column op value =>
    rw [Test.text]
    have hcolumn : Clean ("DATE(" ++ column ++ ") ") :=
      (Clean.append (s := "DATE(") (clean_of_all rfl) (clean_of_valid h)).append (clean_of_all rfl)
    exact (hcolumn.append op.clean_sign).append (clean_of_all rfl)
  | contains column text =>
    have hlike : CleanCharacters " LIKE ? ".toList := clean_of_all (s := " LIKE ? ") rfl
    have hescape : Clean " LIKE ? ESCAPE '\\'" := hlike.append (CleanCharacters.escape .nil)
    exact (clean_of_valid h).append hescape
  | activeOn table day => exact clean_activeOnText (clean_of_valid h)
  | group clauses ih =>
    have hclauses := Criteria.clean_text_of_clauses fun clause hmem =>
      ih clause hmem (Criteria.spelled_iff.mp h clause hmem)
    rw [Test.text]
    exact (Clean.append (s := "(") (clean_of_all rfl) hclauses).append (clean_of_all rfl)
  | has parent relation clauses ih =>
    obtain ⟨hparent, htable, hrelated, howner, h⟩ := h
    have hclauses := Criteria.clean_text_of_clauses fun clause hmem =>
      ih clause hmem (Criteria.spelled_iff.mp h clause hmem)
    have hhead := clean_hasText (clean_of_valid hparent) (clean_of_valid htable)
      (clean_of_valid hrelated) (clean_of_valid howner)
    rw [Test.text]
    refine hhead.append ?_
    split
    next => exact clean_of_all rfl
    next => exact (Clean.append (s := " AND (") (clean_of_all rfl) hclauses).append (clean_of_all rfl)

theorem Criteria.clean_text {criteria : Criteria} (h : Criteria.Spelled criteria) :
    Clean (Criteria.text criteria) :=
  Criteria.clean_text_of_clauses fun clause hmem =>
    Test.clean_text (Criteria.spelled_iff.mp h clause hmem)

end TableQuery
