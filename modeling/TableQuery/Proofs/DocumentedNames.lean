import TableQuery.Proofs.PlainProjection

namespace TableQuery.Identifier

/-- An ASCII letter or the underscore. -/
def IsAsciiStart (c : Char) : Prop :=
  ('A' ≤ c ∧ c ≤ 'Z') ∨ ('a' ≤ c ∧ c ≤ 'z') ∨ c = '_'

/-- A name of ASCII letters, digits and underscores, the first of them no digit. -/
def IsAsciiName (cs : List Char) : Prop :=
  ∃ c rest, cs = c :: rest ∧ IsAsciiStart c ∧ ∀ d ∈ rest, IsAsciiStart d ∨ ('0' ≤ d ∧ d ≤ '9')

/-- A name, alone or with a dot and a star or a second name behind it. -/
def IsPath (cs : List Char) : Prop :=
  IsAsciiName cs ∨ ∃ table, IsAsciiName table ∧
    (cs = table ++ ['.', '*'] ∨ ∃ column, IsAsciiName column ∧ cs = table ++ '.' :: column)

/-- A path and a new name with a word between single spaces. -/
def IsRenamed (words : List (List Char)) (cs : List Char) : Prop :=
  ∃ path word name, IsPath path ∧ word ∈ words ∧ IsAsciiName name ∧
    cs = path ++ ' ' :: (word ++ ' ' :: name)

/-- The word `as` in ASCII letters of either case. -/
def asciiWords : List (List Char) :=
  [['a', 's'], ['a', 'S'], ['A', 's'], ['A', 'S']]

/-- The word `as` with a long s. -/
def longWords : List (List Char) :=
  [['a', 'ſ'], ['A', 'ſ']]

/-- A star, or a path that may get a new name. -/
def IsDocumented (cs : List Char) : Prop :=
  cs = ['*'] ∨ IsPath cs ∨ IsRenamed asciiWords cs

theorem isNameStart_iff {c : Char} : isNameStart c = true ↔ IsAsciiStart c := by
  have halpha : c.isAlpha = (c.isUpper || c.isLower) := rfl
  have hupper : c.isUpper = true ↔ 'A' ≤ c ∧ c ≤ 'Z' := decide_eq_true_iff
  have hlower : c.isLower = true ↔ 'a' ≤ c ∧ c ≤ 'z' :=
    Bool.and_eq_true_iff.trans (and_congr decide_eq_true_iff decide_eq_true_iff)
  simp only [isNameStart, IsAsciiStart, halpha, Bool.or_eq_true, decide_eq_true_eq, or_assoc,
    hupper, hlower]

theorem isNameCharacter_iff {c : Char} :
    isNameCharacter c = true ↔ IsAsciiStart c ∨ ('0' ≤ c ∧ c ≤ '9') := by
  have halphanum : c.isAlphanum = (c.isAlpha || c.isDigit) := rfl
  have hdigit : c.isDigit = true ↔ '0' ≤ c ∧ c ≤ '9' := by
    simp only [Char.isDigit, Bool.and_eq_true, decide_eq_true_eq]
    exact Iff.rfl
  rw [← isNameStart_iff, ← hdigit]
  simp only [isNameCharacter, isNameStart, halphanum, Bool.or_eq_true, or_right_comm]

theorem isName_iff {cs : List Char} : IsName cs ↔ IsAsciiName cs := by
  cases cs with
  | nil => simp [IsName, IsAsciiName]
  | cons c rest =>
    rw [IsName]
    simp only [isNameStart_iff, isNameCharacter_iff]
    constructor
    · exact fun h => ⟨c, rest, rfl, h⟩
    · rintro ⟨d, others, heq, h⟩
      cases heq
      exact h

theorem isAs_iff {a s : Char} : isAs a s = true ↔ [a, s] ∈ asciiWords ∨ [a, s] ∈ longWords := by
  simp only [isAs, asciiWords, longWords, Bool.and_eq_true, Bool.or_eq_true, decide_eq_true_eq,
    List.mem_cons, List.cons.injEq, List.not_mem_nil, and_true, or_false]
  grind

theorem exists_letters {word : List Char} (h : word ∈ asciiWords ∨ word ∈ longWords) :
    ∃ a s, word = [a, s] ∧ isAs a s = true := by
  have hall : ∀ word ∈ asciiWords ++ longWords, ∃ a s, word = [a, s] := by
    simp [asciiWords, longWords]
  obtain ⟨a, s, rfl⟩ := hall word (List.mem_append.mpr h)
  exact ⟨a, s, rfl, isAs_iff.mpr h⟩

theorem spelling_iff {cs : List Char} : Spelling cs ↔ cs = ['*'] ∨
    ∃ path tail, IsPath path ∧ ShownPart tail ∧ cs = path ++ tail := by
  constructor
  · rintro (_ | ⟨hname, htail⟩ | ⟨htable, hname, htail⟩ | ⟨htable, htail⟩)
    · exact .inl rfl
    · exact .inr ⟨_, _, .inl (isName_iff.mp hname), htail, rfl⟩
    · exact .inr ⟨_, _, .inr ⟨_, isName_iff.mp htable, .inr ⟨_, isName_iff.mp hname, rfl⟩⟩, htail,
        by simp⟩
    · exact .inr ⟨_, _, .inr ⟨_, isName_iff.mp htable, .inl rfl⟩, htail, by simp⟩
  · rintro (rfl | ⟨path, tail, hname | ⟨table, htable, rfl | ⟨column, hcolumn, rfl⟩⟩, htail, rfl⟩)
    · exact .star
    · exact .column (isName_iff.mpr hname) htail
    · simpa using Spelling.tableStar (isName_iff.mpr htable) htail
    · simpa using Spelling.qualified (isName_iff.mpr htable) (isName_iff.mpr hcolumn) htail

theorem shownPart_iff {cs : List Char} : ShownPart cs ↔ cs = [] ∨
    ∃ word name, (word ∈ asciiWords ∨ word ∈ longWords) ∧ IsAsciiName name ∧
      cs = ' ' :: (word ++ ' ' :: name) := by
  constructor
  · rintro (_ | ⟨has, hname⟩)
    · exact .inl rfl
    · exact .inr ⟨_, _, isAs_iff.mp has, isName_iff.mp hname, rfl⟩
  · rintro (rfl | ⟨word, name, hword, hname, rfl⟩)
    · exact .absent
    · obtain ⟨a, s, rfl, has⟩ := exists_letters hword
      exact .present has (isName_iff.mpr hname)

theorem spelling_iff_documented {cs : List Char} :
    Spelling cs ↔ IsDocumented cs ∨ IsRenamed longWords cs := by
  rw [spelling_iff]
  constructor
  · rintro (rfl | ⟨path, tail, hpath, htail, rfl⟩)
    · exact .inl (.inl rfl)
    · rcases shownPart_iff.mp htail with rfl | ⟨word, name, hword | hword, hname, rfl⟩
      · exact .inl (.inr (.inl (by simpa using hpath)))
      · exact .inl (.inr (.inr ⟨path, word, name, hpath, hword, hname, rfl⟩))
      · exact .inr ⟨path, word, name, hpath, hword, hname, rfl⟩
  · rintro ((rfl | hpath | ⟨path, word, name, hpath, hword, hname, rfl⟩) |
      ⟨path, word, name, hpath, hword, hname, rfl⟩)
    · exact .inl rfl
    · exact .inr ⟨cs, [], hpath, .absent, (List.append_nil cs).symm⟩
    · exact .inr ⟨path, _, hpath, shownPart_iff.mpr (.inr ⟨word, name, .inl hword, hname, rfl⟩), rfl⟩
    · exact .inr ⟨path, _, hpath, shownPart_iff.mpr (.inr ⟨word, name, .inr hword, hname, rfl⟩), rfl⟩

theorem readShown?_of_shownPart {cs : List Char} (h : ShownPart cs) : (readShown? cs).isSome := by
  cases h with
  | absent => rfl
  | @present a s name has hname =>
    have hread := readName?_append hname [] (by simp)
    rw [List.append_nil] at hread
    simp [readShown?, has, readOnlyName?, hread]

/-- What stands behind a name is no part of it. -/
theorem ShownPart.head {cs : List Char} (h : ShownPart cs) :
    ∀ c ∈ cs.head?, isNameCharacter c = false := by
  cases h with
  | absent => exact nofun
  | present =>
    intro c hc
    cases hc
    rfl

theorem valid_of_spelling {s : String} (h : Spelling s.toList) : valid s = true := by
  rw [valid, read?]
  generalize s.toList = cs at h
  cases h with
  | star => rfl
  | @column name tail hname htail =>
    have hshown := readShown?_of_shownPart htail
    rw [readCharacters?, if_neg (hname.ne_star tail), readName?_append hname tail htail.head]
    cases htail with
    | absent => rfl
    | present => simpa using hshown
  | @qualified table name tail htable hname htail =>
    have hshown := readShown?_of_shownPart htail
    rw [readCharacters?, if_neg (htable.ne_star _), readName?_append htable _ (by simp; decide)]
    have hstar : ∀ more, name ++ tail ≠ '*' :: more := by
      intro more heq
      have hread := readName?_append hname tail htail.head
      rw [heq] at hread
      cases hread
    split
    next hnone => cases hnone
    next heq => exact absurd (List.cons.inj (Prod.mk.inj (Option.some.inj heq)).2).2 (hstar _)
    next heq =>
      obtain ⟨rfl, hrest⟩ := Prod.mk.inj (Option.some.inj heq)
      obtain rfl := (List.cons.inj hrest).2
      rw [readName?_append hname tail htail.head]
      simpa using hshown
    next hdot heq =>
      obtain ⟨rfl, rfl⟩ := Prod.mk.inj (Option.some.inj heq)
      exact (hdot _ rfl).elim
  | @tableStar table tail htable htail =>
    have hshown := readShown?_of_shownPart htail
    rw [readCharacters?, if_neg (htable.ne_star _), readName?_append htable _ (by simp; decide)]
    simpa using hshown

theorem IsAsciiName.ascii {cs : List Char} (h : IsAsciiName cs) : ∀ c ∈ cs, c.toNat < 128 :=
  fun _ hmem => toNat_of_isNameCharacter ((isName_iff.mpr h).isNameCharacter hmem)

theorem IsPath.ascii {cs : List Char} (h : IsPath cs) : ∀ c ∈ cs, c.toNat < 128 := by
  rcases h with h | ⟨table, htable, rfl | ⟨column, hcolumn, rfl⟩⟩
  · exact h.ascii
  · simpa [or_imp, forall_and] using htable.ascii
  · simpa [or_imp, forall_and] using And.intro htable.ascii hcolumn.ascii

theorem IsDocumented.ascii {cs : List Char} (h : IsDocumented cs) : ∀ c ∈ cs, c.toNat < 128 := by
  rcases h with rfl | h | ⟨path, word, name, hpath, hword, hname, rfl⟩
  · simp
  · exact h.ascii
  · have hletters : ∀ c ∈ word, c.toNat < 128 := by
      have hall : ∀ word ∈ asciiWords, ∀ c ∈ word, c.toNat < 128 := by simp [asciiWords]
      exact hall word hword
    simpa [or_imp, forall_and] using And.intro hpath.ascii (And.intro hletters hname.ascii)

theorem IsRenamed.long_mem {cs : List Char} (h : IsRenamed longWords cs) : 'ſ' ∈ cs := by
  obtain ⟨path, word, name, _, hword, _, rfl⟩ := h
  have hall : ∀ word ∈ longWords, 'ſ' ∈ word := by decide
  simp [hall word hword]

/-- The names that pass as identifiers are the documented ones and, besides these, the paths that a
word with a long s renames. Of all names that pass the documented ones are those without long s,
which are those in ASCII. -/
theorem valid_iff_documented_unless_long (s : String) :
    (valid s = true ↔ IsDocumented s.toList ∨ IsRenamed longWords s.toList) ∧
    (IsDocumented s.toList ↔ valid s = true ∧ 'ſ' ∉ s.toList) ∧
    (IsDocumented s.toList ↔ valid s = true ∧ ∀ c ∈ s.toList, c.toNat < 128) := by
  have hvalid : valid s = true ↔ IsDocumented s.toList ∨ IsRenamed longWords s.toList :=
    Iff.trans ⟨spelling_of_valid, valid_of_spelling⟩ spelling_iff_documented
  have hascii : (∀ c ∈ s.toList, c.toNat < 128) → 'ſ' ∉ s.toList := fun hall hmem =>
    absurd (hall _ hmem) (by decide)
  have hback : valid s = true → 'ſ' ∉ s.toList → IsDocumented s.toList := fun hs hno =>
    (hvalid.mp hs).resolve_right fun hlong => hno hlong.long_mem
  refine ⟨hvalid, ⟨fun h => ⟨hvalid.mpr (.inl h), hascii h.ascii⟩, fun h => hback h.1 h.2⟩, ?_⟩
  exact ⟨fun h => ⟨hvalid.mpr (.inl h), h.ascii⟩, fun h => hback h.1 (hascii h.2)⟩

/-- A word with a long s passes for the word `as`. -/
theorem renamed_by_long_word :
    valid "name aſ n" = true ∧ ¬ IsDocumented "name aſ n".toList := by
  refine ⟨by decide +kernel, fun h => ?_⟩
  have hlong : ('ſ').toNat < 128 := h.ascii 'ſ' (by decide)
  exact absurd hlong (by decide)

end TableQuery.Identifier
