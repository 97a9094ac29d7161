import Mathlib.Data.List.Infix
import Mathlib.Data.List.TakeWhile
import TableQuery.Proofs.ListedRows

namespace TableQuery

open Sql

/-- The text stands somewhere in the other one, each ASCII letter in either case. -/
def Text.Occurs (text subject : List Char) : Prop :=
  text.map Char.toLower <:+: subject.map Char.toLower

instance (text subject : List Char) : Decidable (Text.Occurs text subject) :=
  inferInstanceAs (Decidable (_ <:+: _))

/-- No character of the text is a zero, so all of it counts in a pattern and in what is searched. -/
def Text.Zeroless (text : String) : Prop :=
  ∀ c ∈ text.toList, c.toNat ≠ 0

instance (text : String) : Decidable (Text.Zeroless text) :=
  List.decidableBAll (fun c : Char => c.toNat ≠ 0) text.toList

namespace Text

variable {text subject : List Char}

theorem occurs_iff : Occurs text subject ↔
    ∃ before part behind, subject = before ++ (part ++ behind) ∧
      part.map Char.toLower = text.map Char.toLower := by
  constructor
  · rintro ⟨before, behind, h⟩
    rw [List.append_assoc] at h
    obtain ⟨before, rest, rfl, rfl, hrest⟩ := List.append_eq_map_iff.mp h
    obtain ⟨part, behind, rfl, hpart, rfl⟩ := List.map_eq_append_iff.mp hrest
    exact ⟨before, part, behind, rfl, hpart⟩
  · rintro ⟨before, part, behind, rfl, hpart⟩
    refine ⟨before.map Char.toLower, behind.map Char.toLower, ?_⟩
    rw [List.map_append, List.map_append, hpart, List.append_assoc]

end Text

def pieceOf (c : Char) : PatternPiece :=
  if c = '%' then .anyRun else if c = '_' then .anyOne else .letter c

theorem patternPieces_cons {escape : Option Char} {c : Char} (h : escape ≠ some c)
    (rest : List Char) :
    patternPieces escape (c :: rest) = (patternPieces escape rest).map (pieceOf c :: ·) := by
  cases rest <;> exact if_neg h

theorem patternPieces_escape (c d : Char) (rest : List Char) :
    patternPieces (some c) (c :: d :: rest) =
      (patternPieces (some c) rest).map (PatternPiece.letter d :: ·) :=
  if_pos rfl

/-- Every wild character of a search text has its escape, so each character is a letter step. -/
theorem patternPieces_escapedPattern (text rest : List Char) :
    patternPieces (some '\\') (escapedPattern text ++ rest) =
      (patternPieces (some '\\') rest).map (text.map PatternPiece.letter ++ ·) := by
  induction text with
  | nil => simp [escapedPattern]
  | cons c text ih =>
    have hcons : escapedPattern (c :: text) =
        (if isWild c then ['\\', c] else [c]) ++ escapedPattern text := by
      simp [escapedPattern]
    have hletter : ∀ more,
        patternPieces (some '\\') ((if isWild c then ['\\', c] else [c]) ++ more) =
        (patternPieces (some '\\') more).map (PatternPiece.letter c :: ·) := by
      intro more
      by_cases hwild : isWild c = true
      · rw [if_pos hwild]
        exact patternPieces_escape '\\' c more
      · rw [if_neg hwild]
        simp only [isWild, Bool.or_eq_true, decide_eq_true_eq, not_or] at hwild
        have hpiece : pieceOf c = .letter c := by
          simp [pieceOf, hwild]
        rw [← hpiece]
        exact patternPieces_cons (fun heq => hwild.2 (Option.some.inj heq).symm) more
    rw [hcons, List.append_assoc, hletter, ih, Option.map_map]
    rfl

theorem patternPieces_contains (text : String) :
    patternPieces (some '\\') (containsPattern text).toList =
      some (.anyRun :: (text.toList.map PatternPiece.letter ++ [.anyRun])) := by
  have hrun : ∀ more, patternPieces (some '\\') ('%' :: more) =
      (patternPieces (some '\\') more).map (PatternPiece.anyRun :: ·) :=
    patternPieces_cons (by decide)
  rw [containsPattern, String.toList_ofList, List.cons_append, hrun, patternPieces_escapedPattern,
    hrun]
  rfl

theorem mem_suffixes {α : Type} {part s : List α} : part ∈ suffixes s ↔ part <:+ s := by
  induction s with
  | nil => simp [suffixes]
  | cons a s ih => rw [suffixes, List.mem_cons, ih, List.suffix_cons_iff]

theorem matchesPieces_anyRun {pieces : List PatternPiece} {s : List Char} :
    matchesPieces (.anyRun :: pieces) s = true ↔
      ∃ before rest, s = before ++ rest ∧ matchesPieces pieces rest = true := by
  have hrun : matchesPieces (.anyRun :: pieces) s = (suffixes s).any (matchesPieces pieces) := by
    cases s <;> rfl
  rw [hrun, List.any_eq_true]
  constructor
  · rintro ⟨rest, hmem, hrest⟩
    obtain ⟨before, rfl⟩ := mem_suffixes.mp hmem
    exact ⟨before, rest, rfl, hrest⟩
  · rintro ⟨before, rest, rfl, hrest⟩
    exact ⟨rest, mem_suffixes.mpr ⟨before, rfl⟩, hrest⟩

theorem matchesPieces_letters {text : List Char} {pieces : List PatternPiece} {s : List Char} :
    matchesPieces (text.map PatternPiece.letter ++ pieces) s = true ↔
      ∃ part rest, s = part ++ rest ∧ part.map Char.toLower = text.map Char.toLower ∧
        matchesPieces pieces rest = true := by
  induction text generalizing s with
  | nil => simp
  | cons c text ih =>
    cases s with
    | nil => simp [matchesPieces]
    | cons d s =>
      rw [List.map_cons, List.cons_append, matchesPieces, Bool.and_eq_true, ih, sameLetter,
        decide_eq_true_eq]
      constructor
      · rintro ⟨hletter, part, rest, rfl, hpart, hrest⟩
        exact ⟨d :: part, rest, rfl, by simp [hletter, hpart], hrest⟩
      · rintro ⟨part, rest, hs, hpart, hrest⟩
        cases part with
        | nil => simp at hpart
        | cons b part =>
          obtain ⟨rfl, rfl⟩ := List.cons.inj hs
          obtain ⟨hletter, hpart⟩ := List.cons.inj hpart
          exact ⟨hletter.symm, part, rest, rfl, hpart, hrest⟩

theorem matchesPattern_contains (text : String) (subject : List Char) :
    matchesPattern (some '\\') (containsPattern text).toList subject = true ↔
      Text.Occurs text.toList subject := by
  have hclose : ∀ s, matchesPieces [.anyRun] s = true := fun s =>
    matchesPieces_anyRun.mpr ⟨s, [], by simp, rfl⟩
  rw [matchesPattern_eq (patternPieces_contains text), matchesPieces_anyRun, Text.occurs_iff]
  simp only [matchesPieces_letters, hclose, and_true]
  constructor
  · rintro ⟨before, _, rfl, part, behind, rfl, hpart⟩
    exact ⟨before, part, behind, rfl, hpart⟩
  · rintro ⟨before, part, behind, rfl, hpart⟩
    exact ⟨before, _, rfl, part, behind, rfl, hpart⟩

theorem Text.Zeroless.textForm {text : String} (h : Text.Zeroless text) :
    (Datum.text text).textForm = text.toList :=
  List.takeWhile_eq_self_iff.mpr fun c hmem => decide_eq_true (h c hmem)

theorem Text.Zeroless.containsPattern {text : String} (h : Text.Zeroless text) :
    Text.Zeroless (containsPattern text) := by
  intro c hmem
  have hsigns : ∀ d ∈ ['%', '\\'], d.toNat ≠ 0 := by simp
  rw [TableQuery.containsPattern, String.toList_ofList, escapedPattern] at hmem
  simp only [List.cons_append, List.mem_cons, List.mem_append, List.mem_flatMap, List.not_mem_nil,
    or_false] at hmem
  rcases hmem with rfl | ⟨d, hd, hc⟩ | rfl
  · exact hsigns _ (by simp)
  · split at hc
    next =>
      rcases List.mem_cons.mp hc with rfl | hc
      · exact hsigns _ (by simp)
      · rw [List.mem_singleton.mp hc]
        exact h d hd
    next =>
      rw [List.mem_singleton.mp hc]
      exact h d hd
  · exact hsigns _ (by simp)

/-- The cell has a value whose text contains the search text. -/
def Cell.Contains (c : Cell) (text : String) : Prop :=
  c.datum.isNull = false ∧ Text.Occurs text.toList c.datum.textForm

instance (c : Cell) (text : String) : Decidable (c.Contains text) :=
  inferInstanceAs (Decidable (_ ∧ _))

theorem Cell.like_contains {text : String} (h : Text.Zeroless text) (c : Cell) :
    Cell.like c.datum (.text (containsPattern text)) (some '\\') = some true ↔
      c.Contains text := by
  have hpattern : (Datum.text (containsPattern text)).isNull = false := rfl
  unfold Cell.like Cell.Contains
  rw [h.containsPattern.textForm, hpattern, Bool.or_false, ← matchesPattern_contains]
  cases c.datum.isNull <;> simp

theorem Criteria.clauseTruth_contains {column text : String} (hcolumn : IsPlainColumn column)
    (htext : Text.Zeroless text) (store : Store) (env : Env) :
    clauseTruth store env (.contains column text) = some true ↔
      (env.columnCell column).Contains text := by
  obtain ⟨e, he, htruth⟩ := Test.expr?_meaning (t := .contains column text) hcolumn
  rw [clauseTruth, he, Option.bind_some, htruth store env trivial, Test.meaning]
  exact Cell.like_contains htext _

/-- The matcher finds a text exactly where it stands, whatever characters it is made of, and a list
that searches some columns for texts brings the rows whose columns contain them. -/
theorem Entity.like_admits_containing_rows :
    (∀ text subject : String, Text.Zeroless text → Text.Zeroless subject →
      (Cell.like (.text subject) (.text (containsPattern text)) (some '\\') = some true ↔
        Text.Occurs text.toList subject.toList)) ∧
    ∀ (e : Entity) (searches : List (String × String)) (columns : List String) (o : ListOptions)
      (session after : Session) (found : ListResult), e.Plain →
      (∀ search ∈ searches, IsPlainColumn search.1 ∧ Text.Zeroless search.2) → o.payloads = [] →
      (e.list columns (.ofEntries (searches.map fun search => (search.1, .like search.2))) o).exec
        session = (.ok found, after) →
      ∃ q between,
        (e.listQuery columns
          (.ofEntries (searches.map fun search => (search.1, .like search.2))) o).exec session =
            (.ok q, between) ∧
        q.Brings session.store o.page
          (fun env => searches.all fun search => (env.columnCell search.1).Contains search.2)
          found.records := by
  refine ⟨fun text subject htext hsubject => ?_, ?_⟩
  · have h := Cell.like_contains htext ⟨none, .text subject⟩
    simpa [Cell.Contains, Datum.isNull, hsubject.textForm] using h
  · intro e searches columns o session after found he hsearches hfilter h
    refine Entity.list_brings he hfilter (fun search hsearch clause hclause => ?_) h
    cases hclause
    obtain ⟨hcolumn, htext⟩ := hsearches search hsearch
    exact ⟨rfl, fun env =>
      (Criteria.clauseTruth_contains hcolumn htext session.store env).trans
        decide_eq_true_iff.symm⟩

namespace Shop

def percentTeams : Store where
  tables :=
    [{ schema := teamSchema
       rows := [[.int 1, .text "50%"], [.int 2, .text "500"], [.int 3, .text "A50%\\b"]] }]

/-- Of three teams the search for `a50%\` brings the third one alone. -/
theorem list_finds_percent :
    (Cell.like (.text "A50%\\b") (.text (containsPattern "a50%\\")) (some '\\') = some true ↔
      Text.Occurs "a50%\\".toList "A50%\\b".toList) ∧
    ∃ (found : ListResult) (after : Session) (q : Query) (between : Session),
      (teams.list [] (.ofEntries [("name", .like "a50%\\")]) {}).exec { store := percentTeams } =
        (.ok found, after) ∧
      found.records.map (fun row => row.value "id") = [.int 3] ∧
      (teams.listQuery [] (.ofEntries [("name", .like "a50%\\")]) {}).exec
        { store := percentTeams } = (.ok q, between) ∧
      q.Brings percentTeams none
        (fun env => [("name", "a50%\\")].all fun search =>
          (env.columnCell search.1).Contains search.2) found.records := by
  obtain ⟨hmatch, hlist⟩ := Entity.like_admits_containing_rows
  have htext : Text.Zeroless "a50%\\" := by decide +kernel
  refine ⟨hmatch "a50%\\" "A50%\\b" htext (by decide +kernel), ?_⟩
  have hread : ((teams.list [] (.ofEntries [("name", .like "a50%\\")]) {}).exec
      { store := percentTeams }).1.toOption.any (fun found =>
        found.records.map (fun row => row.value "id") = [.int 3]) = true := by
    decide +kernel
  obtain ⟨found, after, hexec, hfound⟩ := Run.exists_of_any hread
  have hcolumn : IsPlainColumn "name" := .inl (by decide +kernel)
  obtain ⟨q, between, hq, hbrings⟩ := hlist teams [("name", "a50%\\")] [] {}
    { store := percentTeams } after found plain_teams (by simpa using ⟨hcolumn, htext⟩) rfl hexec
  exact ⟨found, after, q, between, hexec, of_decide_eq_true hfound, hq, hbrings⟩

end Shop

end TableQuery
