import TableQuery.Proofs.TextTokens

namespace TableQuery

namespace Identifier

/-- Characters that make one name. -/
def IsName : List Char → Prop
  | [] => False
  | c :: rest => isNameStart c = true ∧ ∀ d ∈ rest, isNameCharacter d = true

instance : DecidablePred IsName := fun cs =>
  match cs with
  | [] => inferInstanceAs (Decidable False)
  | c :: rest =>
    decidable_of_iff (isNameStart c = true ∧ rest.all isNameCharacter = true) (by simp [IsName])

/-- What can stand behind the column of an identifier. -/
inductive ShownPart : List Char → Prop
  | absent : ShownPart []
  | present {a s : Char} {name : List Char} (has : isAs a s = true) (hname : IsName name) :
      ShownPart (' ' :: a :: s :: ' ' :: name)

/-- The spellings of identifiers. -/
inductive Spelling : List Char → Prop
  | star : Spelling ['*']
  | column {name tail : List Char} (hname : IsName name) (htail : ShownPart tail) :
      Spelling (name ++ tail)
  | qualified {table name tail : List Char} (htable : IsName table) (hname : IsName name)
      (htail : ShownPart tail) : Spelling (table ++ '.' :: (name ++ tail))
  | tableStar {table tail : List Char} (htable : IsName table) (htail : ShownPart tail) :
      Spelling (table ++ '.' :: '*' :: tail)

theorem readName?_spelling {cs rest : List Char} {name : String}
    (h : readName? cs = some (name, rest)) :
    ∃ ns, IsName ns ∧ name = String.ofList ns ∧ cs = ns ++ rest := by
  cases cs with
  | nil => simp [readName?] at h
  | cons c cs =>
    simp only [readName?] at h
    split at h
    next hc =>
      obtain ⟨rfl, rfl⟩ := Prod.mk.inj (Option.some.inj h)
      refine ⟨c :: cs.takeWhile isNameCharacter, ⟨hc, fun d hd => ?_⟩, rfl, ?_⟩
      · exact (List.all_eq_true.mp List.all_takeWhile) d hd
      · simp
    next => simp at h

theorem readOnlyName?_spelling {cs : List Char} {name : String} (h : readOnlyName? cs = some name) :
    IsName cs ∧ name = String.ofList cs := by
  unfold readOnlyName? at h
  split at h
  next found heq =>
    obtain ⟨ns, hns, rfl, rfl⟩ := readName?_spelling heq
    cases Option.some.inj h
    simpa using hns
  next => simp at h

theorem readShown?_spelling {cs : List Char} {shown : Option String}
    (h : readShown? cs = some shown) : ShownPart cs := by
  unfold readShown? at h
  split at h
  next => exact .absent
  next a s rest =>
    split at h
    next has =>
      obtain ⟨name, hname, _⟩ := Option.map_eq_some_iff.mp h
      exact .present has (readOnlyName?_spelling hname).1
    next => simp at h
  next => simp at h

theorem length_of_readName? {cs rest : List Char} {name : String}
    (h : readName? cs = some (name, rest)) : rest.length ≤ cs.length := by
  obtain ⟨ns, _, _, rfl⟩ := readName?_spelling h
  simp

theorem length_of_readShown? {cs : List Char} {given : Option String} {shown : String}
    (h : readShown? cs = some given) (hshown : given = some shown) :
    shown.toList.length < cs.length := by
  subst hshown
  unfold readShown? at h
  split at h
  next => cases h
  next a s rest =>
    split at h
    next =>
      obtain ⟨name, hname, hgiven⟩ := Option.map_eq_some_iff.mp h
      cases hgiven
      rw [(readOnlyName?_spelling hname).2, String.toList_ofList]
      simp only [List.length_cons]
      omega
    next => cases h
  next => cases h

/-- A name that is given to a column is not the text that gives it. -/
theorem ne_of_shown {s shown : String} {i : Identifier} (h : read? s = some i)
    (hshown : i.shown = some shown) : s ≠ shown := by
  suffices hlength : shown.toList.length < s.toList.length by
    rintro rfl
    exact absurd hlength (Nat.lt_irrefl _)
  unfold read? readCharacters? at h
  split at h
  next =>
    cases h
    cases hshown
  next =>
    split at h
    next => cases h
    next table rest hread =>
      obtain ⟨found, hfound, rfl⟩ := Option.map_eq_some_iff.mp h
      have hrest := length_of_readName? hread
      have hname := length_of_readShown? hfound hshown
      simp only [List.length_cons] at hrest
      omega
    next table rest _ hread =>
      split at h
      next => cases h
      next column behind hcolumn =>
        obtain ⟨found, hfound, rfl⟩ := Option.map_eq_some_iff.mp h
        have hrest := length_of_readName? hread
        have hbehind := length_of_readName? hcolumn
        have hname := length_of_readShown? hfound hshown
        simp only [List.length_cons] at hrest
        omega
    next column rest _ _ hread =>
      obtain ⟨found, hfound, rfl⟩ := Option.map_eq_some_iff.mp h
      have hrest := length_of_readName? hread
      have hname := length_of_readShown? hfound hshown
      omega

theorem spelling_of_valid {s : String} (h : valid s = true) : Spelling s.toList := by
  obtain ⟨i, hi⟩ := Option.isSome_iff_exists.mp h
  unfold read? readCharacters? at hi
  split at hi
  next hs => exact hs ▸ .star
  next =>
    split at hi
    next => simp at hi
    next table rest hread =>
      obtain ⟨ts, hts, _, hcs⟩ := readName?_spelling hread
      obtain ⟨shown, hshown, _⟩ := Option.map_eq_some_iff.mp hi
      exact hcs ▸ .tableStar hts (readShown?_spelling hshown)
    next table rest _ hread =>
      obtain ⟨ts, hts, _, hcs⟩ := readName?_spelling hread
      split at hi
      next => simp at hi
      next column rest' hread' =>
        obtain ⟨ns, hns, _, hrest⟩ := readName?_spelling hread'
        obtain ⟨shown, hshown, _⟩ := Option.map_eq_some_iff.mp hi
        rw [hcs, hrest]
        exact .qualified hts hns (readShown?_spelling hshown)
    next column rest _ _ hread =>
      obtain ⟨ns, hns, _, hcs⟩ := readName?_spelling hread
      obtain ⟨shown, hshown, _⟩ := Option.map_eq_some_iff.mp hi
      exact hcs ▸ .column hns (readShown?_spelling hshown)

end Identifier

namespace Sql

open Identifier

theorem tokensFrom_word {cs ns : List Char} (hns : ∀ c ∈ ns, isNameCharacter c = true)
    (rest : List Char) :
    tokensFrom (.word cs) (ns ++ rest) = tokensFrom (.word (cs ++ ns)) rest := by
  induction ns generalizing cs with
  | nil => simp
  | cons c ns ih =>
    have hc : isNameCharacter c = true := hns c (by simp)
    have hstep : Begun.step? (.word cs) c = some ([], .word (cs ++ [c])) := by
      simp [Begun.step?, Begun.extend?, hc]
    rw [List.cons_append, tokensFrom_cons, hstep, Option.bind_some,
      ih fun d hd => hns d (by simp [hd])]
    simp

theorem toNat_of_isNameStart {c : Char} (hc : isNameStart c = true) :
    (65 ≤ c.toNat ∧ c.toNat ≤ 90) ∨ (97 ≤ c.toNat ∧ c.toNat ≤ 122) ∨ c.toNat = 95 := by
  have hletter : c.isAlpha = (decide (c.val ≥ 'A'.val ∧ c.val ≤ 'Z'.val) ||
      (decide (c.val ≥ 'a'.val) && decide (c.val ≤ 'z'.val))) := rfl
  simp only [isNameStart, hletter, Bool.or_eq_true, Bool.and_eq_true, decide_eq_true_eq,
    UInt32.le_iff_toNat_le, ge_iff_le] at hc
  rcases hc with (hc | hc) | rfl
  · exact .inl hc
  · exact .inr (.inl hc)
  · exact .inr (.inr rfl)

theorem start?_nameStart {c : Char} (hc : isNameStart c = true) :
    Begun.start? c = some ([], .word [c]) := by
  have hrange := toNat_of_isNameStart hc
  have hspace : c ≠ ' ' := fun h => by simp [h] at hrange
  have hblank : ¬(c = ' ' ∨ (9 ≤ c.toNat ∧ c.toNat ≤ 13) ∧ ¬c.toNat = 11) := by
    rintro (h | h)
    · exact hspace h
    · omega
  have hdigit : c.isDigit = false := by
    simp only [Char.isDigit, Bool.and_eq_false_iff, decide_eq_false_iff_not, ge_iff_le,
      UInt32.le_iff_toNat_le]
    have hval : c.val.toNat = c.toNat := rfl
    have h0 : ('0' : Char).val.toNat = 48 := rfl
    have h9 : ('9' : Char).val.toNat = 57 := rfl
    omega
  unfold Begun.start?
  split
  case h_12 => simp only [Bool.or_eq_true, Bool.and_eq_true, decide_eq_true_eq, ne_eq, hblank,
    hdigit, hc, Bool.false_eq_true, ↓reduceIte]
  all_goals exact absurd hc (by decide)

theorem tokensFrom_name {ns : List Char} (hns : IsName ns) (rest : List Char) :
    tokensFrom .nothing (ns ++ rest) = tokensFrom (.word ns) rest := by
  cases ns with
  | nil => exact hns.elim
  | cons c ns =>
    have hstep : Begun.step? .nothing c = some ([], .word [c]) := by
      simp [Begun.step?, Begun.extend?, Begun.pair?, Begun.isNumber, Begun.finish?,
        start?_nameStart hns.1]
    rw [List.cons_append, tokensFrom_cons, hstep, Option.bind_some, tokensFrom_word hns.2]
    simp

theorem tokensFrom_onlyName {ns : List Char} (hns : IsName ns) :
    tokensFrom .nothing ns = some [wordToken ns] := by
  have h := tokensFrom_name hns []
  rwa [List.append_nil] at h

theorem tokensFrom_word_dot (cs rest : List Char) :
    tokensFrom (.word cs) ('.' :: rest) =
      (tokensFrom .nothing rest).map ([wordToken cs, .dot] ++ ·) := by
  have hstep : Begun.step? (.word cs) '.' = some ([wordToken cs, .dot], .nothing) := by
    have hdot : isNameCharacter '.' = false := by decide
    simp [Begun.step?, Begun.extend?, Begun.pair?, Begun.isNumber, Begun.finish?, Begun.start?,
      hdot]
  rw [tokensFrom_cons, hstep, Option.bind_some]

theorem wordToken_cases (cs : List Char) :
    (∃ k, wordToken cs = .keyword k) ∨ wordToken cs = .name (String.ofList cs) := by
  unfold wordToken
  dsimp only
  split
  · exact .inl ⟨_, rfl⟩
  · split
    · exact .inl ⟨_, rfl⟩
    · exact .inr rfl

/-- A token that is a keyword or a name. -/
def IsWord (t : Token) : Prop :=
  (∃ k, t = .keyword k) ∨ ∃ s, t = .name s

theorem isWord_wordToken (cs : List Char) : IsWord (wordToken cs) :=
  (wordToken_cases cs).imp id fun h => ⟨_, h⟩

/-- The tokens of what can stand behind the column of an identifier. -/
inductive ShownTokens : List Token → Prop
  | absent : ShownTokens []
  | present {w : Token} (hw : IsWord w) : ShownTokens [.keyword .shown, w]

/-- The tokens of identifiers. -/
inductive ColumnTokens : List Token → Prop
  | star : ColumnTokens [.star]
  | column {w : Token} {tail : List Token} (hw : IsWord w) (htail : ShownTokens tail) :
      ColumnTokens (w :: tail)
  | qualified {t w : Token} {tail : List Token} (ht : IsWord t) (hw : IsWord w)
      (htail : ShownTokens tail) : ColumnTokens (t :: .dot :: w :: tail)
  | tableStar {t : Token} {tail : List Token} (ht : IsWord t) (htail : ShownTokens tail) :
      ColumnTokens (t :: .dot :: .star :: tail)

/-- What is read of an identifier behind the tokens `ts`. With the long s nothing is. -/
theorem tokensFrom_shownPart {p : Begun} {ts : List Token} {tail : List Char}
    (hp : p.finish? = some ts) (htail : ShownPart tail) :
    (∃ us, ShownTokens us ∧ tokensFrom p tail = some (ts ++ us)) ∨
      ∀ rest, tokensFrom p (tail ++ rest) = none := by
  cases htail with
  | absent => exact .inl ⟨[], .absent, by simpa [tokensFrom] using hp⟩
  | @present a s name has hname =>
    have hstep : p.step? ' ' = some (ts, .nothing) := by
      simpa using step?_stop hp (c := ' ') rfl
    have hs : s = 's' ∨ s = 'S' ∨ s = 'ſ' := by
      have := (Bool.and_eq_true _ _ ▸ has).2
      simpa [or_assoc] using this
    have ha : a = 'a' ∨ a = 'A' := by
      have := (Bool.and_eq_true _ _ ▸ has).1
      simpa using this
    by_cases hlong : s = 'ſ'
    · right
      intro rest
      subst hlong
      rw [List.cons_append, tokensFrom_cons, hstep, Option.bind_some]
      have hnone : ∀ more, tokensFrom .nothing (a :: 'ſ' :: more) = none := by
        intro more
        rw [tokensFrom_cons]
        rcases ha with rfl | rfl <;> rfl
      simp [hnone]
    · left
      have hword : wordToken [a, s] = .keyword .shown := by
        rcases hs with rfl | rfl | rfl
        · rcases ha with rfl | rfl <;> decide +kernel
        · rcases ha with rfl | rfl <;> decide +kernel
        · exact absurd rfl hlong
      have hpair : IsName [a, s] := by
        rcases hs with rfl | rfl | rfl
        · rcases ha with rfl | rfl <;> decide
        · rcases ha with rfl | rfl <;> decide
        · exact absurd rfl hlong
      have hread : tokensFrom .nothing (a :: s :: ' ' :: name) =
          some [.keyword .shown, wordToken name] := by
        have h := tokensFrom_stop (tokensFrom_onlyName hpair) (c := ' ') rfl name
        simpa [tokensFrom_onlyName hname, hword] using h
      refine ⟨_, .present (isWord_wordToken name), ?_⟩
      rw [tokensFrom_cons, hstep, Option.bind_some, hread]
      rfl

/-- An identifier has the tokens of its parts, or it cannot be read at all. -/
theorem tokensFrom_spelling {cs : List Char} (h : Spelling cs) :
    (∃ ts, ColumnTokens ts ∧ tokensFrom .nothing cs = some ts) ∨
      ∀ rest, tokensFrom .nothing (cs ++ rest) = none := by
  cases h with
  | star => exact .inl ⟨_, .star, rfl⟩
  | @column name tail hname htail =>
    rcases tokensFrom_shownPart (p := .word name) rfl htail with ⟨us, hus, htokens⟩ | hnone
    · refine .inl ⟨_, .column (isWord_wordToken name) hus, ?_⟩
      rw [tokensFrom_name hname, htokens]
      rfl
    · refine .inr fun rest => ?_
      rw [List.append_assoc, tokensFrom_name hname, hnone]
  | @qualified table name tail htable hname htail =>
    have hread : ∀ rest, tokensFrom .nothing (table ++ '.' :: (name ++ rest)) =
        (tokensFrom (.word name) rest).map ([wordToken table, .dot] ++ ·) := fun rest => by
      rw [tokensFrom_name htable, tokensFrom_word_dot, tokensFrom_name hname]
    rcases tokensFrom_shownPart (p := .word name) rfl htail with ⟨us, hus, htokens⟩ | hnone
    · refine .inl ⟨_, .qualified (isWord_wordToken table) (isWord_wordToken name) hus, ?_⟩
      rw [hread, htokens]
      rfl
    · refine .inr fun rest => ?_
      rw [List.append_assoc, List.cons_append, List.append_assoc, hread, hnone, Option.map_none]
  | @tableStar table tail htable htail =>
    have hstar : ∀ rest, tokensFrom .nothing ('*' :: rest) =
        (tokensFrom .nothing rest).map ([.star] ++ ·) := fun rest => by
      rw [tokensFrom_cons]
      rfl
    have hread : ∀ rest, tokensFrom .nothing (table ++ '.' :: '*' :: rest) =
        (tokensFrom .nothing rest).map ([wordToken table, .dot, .star] ++ ·) := fun rest => by
      rw [tokensFrom_name htable, tokensFrom_word_dot, hstar, Option.map_map]
      rfl
    rcases tokensFrom_shownPart (p := .nothing) rfl htail with ⟨us, hus, htokens⟩ | hnone
    · refine .inl ⟨_, .tableStar (isWord_wordToken table) hus, ?_⟩
      rw [hread, htokens]
      rfl
    · refine .inr fun rest => ?_
      rw [List.append_assoc, List.cons_append, List.cons_append, hread, hnone, Option.map_none]

theorem sealed_of_valid {s : String} (h : valid s = true) : Sealed s.toList := by
  rcases tokensFrom_spelling (spelling_of_valid h) with ⟨ts, _, hts⟩ | hnone
  · exact .of_some hts
  · exact .of_none hnone

theorem columnTokens_of_valid {s : String} {ts : List Token} (h : valid s = true)
    (hts : tokens? s = some ts) : ColumnTokens ts := by
  rcases tokensFrom_spelling (spelling_of_valid h) with ⟨us, hus, hread⟩ | hnone
  · exact Option.some.inj (hts.symm.trans hread) ▸ hus
  · have hfail : tokensFrom .nothing s.toList = none := by simpa using hnone []
    exact absurd (hts.symm.trans hfail) (by simp)

end Sql

end TableQuery
