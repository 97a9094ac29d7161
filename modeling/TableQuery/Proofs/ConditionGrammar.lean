import Mathlib.Data.List.TakeWhile
import TableQuery.Condition.Reader
import TableQuery.Proofs.RunSteps

namespace TableQuery

namespace Text

/-- What is trimmed away at the two ends are blanks. -/
theorem exists_trimmed (cs : List Char) : ∃ before behind, cs = before ++ trimmed cs ++ behind ∧
    ∀ c ∈ before ++ behind, isBlank c = true := by
  have hfront := List.takeWhile_append_dropWhile (p := isBlank) (l := cs)
  have hback := List.takeWhile_append_dropWhile (p := isBlank)
    (l := (cs.dropWhile isBlank).reverse)
  refine ⟨cs.takeWhile isBlank, ((cs.dropWhile isBlank).reverse.takeWhile isBlank).reverse, ?_, ?_⟩
  · have hrest := congrArg List.reverse hback
    rw [List.reverse_append, List.reverse_reverse] at hrest
    rw [List.append_assoc, trimmed, hrest, hfront]
  · intro c hmem
    rcases List.mem_append.mp hmem with hmem | hmem
    · exact List.mem_takeWhile_imp hmem
    · exact List.mem_takeWhile_imp (List.mem_reverse.mp hmem)

/-- A text that begins and ends with no blank is what is left of it between blanks. -/
theorem trimmed_eq {before cs behind : List Char} (hblank : ∀ c ∈ before ++ behind, isBlank c = true)
    (hhead : ∀ c ∈ cs.head?, isBlank c = false) (hlast : ∀ c ∈ cs.getLast?, isBlank c = false)
    (hne : cs ≠ []) : trimmed (before ++ cs ++ behind) = cs := by
  have hfront : (before ++ cs ++ behind).dropWhile isBlank = cs ++ behind := by
    rw [List.append_assoc, List.dropWhile_append_of_pos fun c hmem =>
      hblank c (List.mem_append_left _ hmem)]
    obtain ⟨c, rest, rfl⟩ := List.exists_cons_of_ne_nil hne
    rw [List.cons_append, List.dropWhile_cons_of_neg (by simp [hhead c rfl])]
  have hback : (cs ++ behind).reverse.dropWhile isBlank = cs.reverse := by
    rw [List.reverse_append, List.dropWhile_append_of_pos fun c hmem =>
      hblank c (List.mem_append_right _ (List.mem_reverse.mp hmem))]
    have hsome := List.getLast?_eq_some_getLast hne
    rw [← List.head?_reverse] at hsome
    obtain ⟨rest, hrest⟩ := List.head?_eq_some_iff.mp hsome
    have hend : isBlank (cs.getLast hne) = false := hlast _ (List.getLast?_eq_some_getLast hne)
    rw [hrest, List.dropWhile_cons_of_neg (by simp [hend])]
  rw [trimmed, hfront, hback, List.reverse_reverse]

theorem isBlank_toLower {c : Char} (h : isBlank c = true) : isBlank c.toLower = true := by
  unfold Char.toLower
  split
  next hupper =>
    have hlow : 65 ≤ c.toNat := hupper.1
    have hhigh : c.toNat ≤ 90 := hupper.2
    simp only [isBlank, Bool.or_eq_true, Bool.and_eq_true, decide_eq_true_eq] at h
    omega
  next => exact h

end Text

namespace Comparison

/-- The words of a comparison. -/
def spellings : Comparison → List String
  | eq => ["="]
  | ne => ["!=", "<>"]
  | gt => [">"]
  | ge => [">="]
  | lt => ["<"]
  | le => ["<="]
  | like => ["like"]
  | notLike => ["not like"]

/-- A text writes a comparison: one of its words, in letters of either case and between blanks. -/
def Writes (written : String) (op : Comparison) : Prop :=
  ∃ before word behind, written.toList = before ++ word ++ behind ∧
    (∀ c ∈ before ++ behind, Text.isBlank c = true) ∧
    String.ofList (word.map Char.toLower) ∈ op.spellings

/-- The word of a text that writes one. -/
def plain (written : String) : String :=
  String.ofList ((Text.trimmed written.toList).map Char.toLower)

theorem find?_words (word : String) (op : Comparison) :
    words.find? (·.1 = word) = some (word, op) ↔ word ∈ op.spellings := by
  constructor
  · intro h
    have hmem := List.mem_of_find?_eq_some h
    have hall : ∀ entry ∈ words, entry.1 ∈ entry.2.spellings := by decide
    exact hall _ hmem
  · intro h
    have hall : ∀ word ∈ op.spellings, words.find? (·.1 = word) = some (word, op) := by
      cases op <;> decide
    exact hall word h

theorem writes_iff {written : String} {op : Comparison} :
    Writes written op ↔ plain written ∈ op.spellings := by
  constructor
  · rintro ⟨before, word, behind, htext, hblank, hword⟩
    have hends : ∀ w ∈ op.spellings, w ≠ "" ∧ w.toList.head?.any Text.isBlank = false ∧
        w.toList.getLast?.any Text.isBlank = false := by
      cases op <;> decide
    obtain ⟨hne, hhead, hlast⟩ := hends _ hword
    rw [String.toList_ofList, Option.any_eq_false] at hhead hlast
    -- a blank stays one in lower case, and no word has one at its ends
    have hno : ∀ c, Text.isBlank c.toLower = false → Text.isBlank c = false := fun c hc => by
      rw [← Bool.not_eq_true] at hc ⊢
      exact fun hblank => hc (Text.isBlank_toLower hblank)
    have htrimmed : Text.trimmed written.toList = word := by
      rw [htext]
      refine Text.trimmed_eq hblank (fun c hc => hno c (hhead _ ?_)) (fun c hc => hno c (hlast _ ?_))
        fun hnil => hne (by rw [hnil]; rfl)
      · rw [List.head?_map, Option.mem_def.mp hc]
        rfl
      · rw [List.getLast?_map, Option.mem_def.mp hc]
        rfl
    rwa [plain, htrimmed]
  · intro h
    obtain ⟨before, behind, htext, hblank⟩ := Text.exists_trimmed written.toList
    exact ⟨before, _, behind, htext, hblank, h⟩

theorem read_eq_ok_iff {written : String} {op : Comparison} :
    read written = .ok op ↔ Writes written op := by
  rw [writes_iff, ← find?_words]
  unfold read
  dsimp only
  rw [← plain]
  split
  next entry hfound =>
    have hname : entry.1 = plain written := by simpa using List.find?_some hfound
    rw [hfound, ← hname, Option.some.injEq, Except.ok.injEq]
    exact ⟨fun h => by rw [← h], fun h => congrArg Prod.snd h⟩
  next hnone =>
    rw [hnone]
    simp

theorem read_eq_error_iff {written : String} {fault : InvalidInput} :
    read written = .error fault ↔
      (∀ op, ¬ Writes written op) ∧ fault = .operator (plain written) := by
  cases hread : read written with
  | ok op => simpa using fun h => absurd (read_eq_ok_iff.mp hread) (h op)
  | error other =>
    have hnone : ∀ op, ¬ Writes written op := fun op hop => by
      rw [read_eq_ok_iff.mpr hop] at hread
      cases hread
    have hother : other = .operator (plain written) := by
      unfold read at hread
      dsimp only at hread
      split at hread
      next => cases hread
      next => exact (Except.error.inj hread).symm
    rw [hother, Except.error.injEq, eq_comm]
    simp [hnone]

end Comparison

theorem Json.textField_eq_some {j : Json} {key s : String} :
    (j.field? key).bind Json.text? = some s ↔ j.field? key = some (.text s) := by
  rcases j.field? key with _ | value
  · simp
  · cases value <;> simp [Json.text?]

namespace Condition

/-- What a named operator asks of its entry besides a value. -/
inductive Need
  | nothing
  | pair
  | relation
  | range
deriving DecidableEq, Repr

namespace Need

/-- The operators with a name, by what they ask for. -/
def names : Need → List String
  | nothing =>
    ["where_in", "or_where_in", "where_not_in", "or_where_not_in", "where_null", "or_where_null",
     "where_not_null", "or_where_not_null", "or_where", "where_date", "where_date_less",
     "where_like", "where_like_or_where", "where_in_column_or_null",
     "where_in_column_and_not_null", "case_where_null_or_between"]
  | pair =>
    ["where_between", "or_where_between", "where_not_between", "or_where_not_between"]
  | relation => ["where_has", "where_has_like"]
  | range => ["where_has_like_between"]

end Need

def IsPair (value : Json) : Prop :=
  ∃ low high, value = .list [low, high]

/-- Two bounds, or a text that writes a range of days. -/
def IsRange (value : Json) : Prop :=
  IsPair value ∨ ∃ written range, value = .text written ∧ DateRange.read? written = some range

def NamesRelation (entry : Json) : Prop :=
  ∃ name, entry.field? "relationship_name" = some (.text name)

/-- The fault of what is no range. -/
def MissesRange (operator : String) (value : Json) (fault : InvalidInput) : Prop :=
  (∃ written, value = .text written ∧ DateRange.read? written = none ∧
      fault = .dateRange written) ∨
    (∀ written, value ≠ .text written) ∧ ¬ IsPair value ∧ fault = .pairExpected operator

namespace Need

def Met (value entry : Json) : Need → Prop
  | nothing => True
  | pair => IsPair value
  | relation => NamesRelation entry
  | range => IsRange value ∧ NamesRelation entry

/-- The fault of an entry that does not give what is asked for. The bounds are looked at before the
relation. -/
def Breaks (operator : String) (value entry : Json) (fault : InvalidInput) : Need → Prop
  | nothing => False
  | pair => ¬ IsPair value ∧ fault = .pairExpected operator
  | relation => ¬ NamesRelation entry ∧ fault = .relationshipMissing operator
  | range => MissesRange operator value fault ∨
      IsRange value ∧ ¬ NamesRelation entry ∧ fault = .relationshipMissing operator

end Need

/-- An operator is a name whose needs are met, or the word of a comparison. -/
def Fits (operator : String) (value entry : Json) : Prop :=
  (∃ need : Need, operator ∈ need.names ∧ need.Met value entry) ∨
    ∃ op, Comparison.Writes operator op

/-- The fault of an operator that does not fit its entry. -/
def Misfits (operator : String) (value entry : Json) (fault : InvalidInput) : Prop :=
  (∃ need : Need, operator ∈ need.names ∧ need.Breaks operator value entry fault) ∨
    ((∀ need : Need, operator ∉ need.names) ∧ (∀ op, ¬ Comparison.Writes operator op) ∧
      fault = .operator (Comparison.plain operator))

/-- An entry with a value has an operator that fits. -/
def Accepted (entry : Json) : Prop :=
  ∀ value, entry.field? "value" = some value → value ≠ .null →
    ∃ operator, entry.field? "operator" = some (.text operator) ∧ Fits operator value entry

/-- The fault of an entry that is not accepted. -/
def Offends (column : String) (entry : Json) (fault : InvalidInput) : Prop :=
  ∃ value, entry.field? "value" = some value ∧ value ≠ .null ∧
    (((∀ operator, entry.field? "operator" ≠ some (.text operator)) ∧
        fault = .operatorMissing column) ∨
      ∃ operator, entry.field? "operator" = some (.text operator) ∧
        Misfits operator value entry fault)

/-- What the reader of an operand asks for. -/
def Operand.need : Operand → Need
  | members _ | value _ | search _ | nothing _ => .nothing
  | pair _ => .pair
  | relatedValue | relatedSearch => .relation
  | relatedRange => .range

theorem mem_names_of_find? {operator : String} {found : String × Operand}
    (h : operators.find? (·.1 = operator) = some found) : operator ∈ found.2.need.names := by
  have hall : ∀ entry ∈ operators, entry.1 ∈ entry.2.need.names := by decide
  have hname : found.1 = operator := by simpa using List.find?_some h
  exact hname ▸ hall found (List.mem_of_find?_eq_some h)

theorem not_mem_names_of_find? {operator : String}
    (h : operators.find? (·.1 = operator) = none) (need : Need) : operator ∉ need.names := by
  have hall : ∀ name ∈ need.names, (operators.find? (·.1 = name)).isSome := by
    cases need <;> decide
  intro hmem
  have := hall operator hmem
  rw [h] at this
  cases this

theorem need_unique {operator : String} {need other : Need} (h : operator ∈ need.names)
    (hother : operator ∈ other.names) : need = other := by
  have hall : ∀ name ∈ need.names, name ∈ other.names → need = other := by
    cases need <;> cases other <;> decide
  exact hall operator h hother

theorem not_writes_of_mem_names {operator : String} {need : Need} (h : operator ∈ need.names)
    (op : Comparison) : ¬ Comparison.Writes operator op := by
  have hall : ∀ name ∈ need.names, Comparison.plain name ∉ op.spellings := by
    cases need <;> cases op <;> decide
  rw [Comparison.writes_iff]
  exact hall operator h

/-- A reader accepts what meets `accepted`, and refuses with the faults that `offends` names. -/
def Settles {α : Type} (read : Except InvalidInput α) (accepted : Prop)
    (offends : InvalidInput → Prop) : Prop :=
  ((∃ a, read = .ok a) ↔ accepted) ∧ ∀ fault, read = .error fault ↔ offends fault

namespace Settles

variable {α β : Type} {read : Except InvalidInput α} {accepted : Prop}
  {offends : InvalidInput → Prop}

theorem ok (a : α) (h : accepted) (hno : ∀ fault, ¬ offends fault) :
    Settles (.ok a) accepted offends :=
  ⟨iff_of_true ⟨a, rfl⟩ h, fun fault => iff_of_false nofun (hno fault)⟩

theorem error {fault : InvalidInput} (h : ¬ accepted)
    (honly : ∀ other, offends other ↔ other = fault) :
    Settles (.error fault : Except InvalidInput α) accepted offends := by
  refine ⟨iff_of_false nofun h, fun other => ?_⟩
  rw [honly, Except.error.injEq, eq_comm]

theorem not_both (h : Settles read accepted offends) {fault : InvalidInput}
    (hfault : offends fault) : ¬ accepted := by
  intro hyes
  obtain ⟨a, hok⟩ := h.1.mpr hyes
  cases hok.symm.trans ((h.2 fault).mpr hfault)

theorem congr {other : Prop} {otherOffends : InvalidInput → Prop}
    (h : Settles read accepted offends) (haccepted : accepted ↔ other)
    (hoffends : ∀ fault, offends fault ↔ otherOffends fault) :
    Settles read other otherOffends :=
  ⟨h.1.trans haccepted, fun fault => (h.2 fault).trans (hoffends fault)⟩

theorem map (f : α → β) (h : Settles read accepted offends) :
    Settles (read.map f) accepted offends := by
  obtain ⟨hok, herror⟩ := h
  cases read with
  | ok a => exact .ok _ (hok.mp ⟨a, rfl⟩) fun fault hno => nomatch (herror fault).mpr hno
  | error fault =>
    refine .error (fun hyes => nomatch (hok.mpr hyes).choose_spec) fun other => ?_
    rw [← herror, Except.error.injEq, eq_comm]

/-- Of two readers one behind the other, the second is asked where the first accepts. -/
theorem bind {next : α → Except InvalidInput β} {nextAccepted : Prop}
    {nextOffends : InvalidInput → Prop} (h : Settles read accepted offends)
    (hnext : ∀ a, read = .ok a → Settles (next a) nextAccepted nextOffends) :
    Settles (read >>= next) (accepted ∧ nextAccepted)
      fun fault => offends fault ∨ accepted ∧ nextOffends fault := by
  obtain ⟨hok, herror⟩ := h
  cases read with
  | ok a =>
    have hyes : accepted := hok.mp ⟨a, rfl⟩
    refine (hnext a rfl).congr (by simp [hyes]) fun fault => ?_
    simp [hyes, ← herror]
  | error fault =>
    have hno : ¬ accepted := fun hyes => nomatch (hok.mpr hyes).choose_spec
    refine .error (fun hboth => hno hboth.1) fun other => ?_
    rw [← herror, Except.error.injEq, eq_comm]
    simp [hno]

end Settles

theorem pairValues_settles (operator : String) (value : Json) :
    Settles (pairValues operator value) (IsPair value)
      fun fault => ¬ IsPair value ∧ fault = .pairExpected operator := by
  unfold pairValues
  split
  next low high =>
    have hpair : IsPair (.list [low, high]) := ⟨low, high, rfl⟩
    exact .ok _ hpair fun fault h => h.1 hpair
  next hother =>
    have hno : ¬ IsPair value := fun ⟨low, high, h⟩ => hother low high h
    exact .error hno fun fault => and_iff_right hno

theorem rangeValues_settles (operator : String) (value : Json) :
    Settles (rangeValues operator value) (IsRange value) (MissesRange operator value) := by
  unfold rangeValues
  split
  next written =>
    have hpair : ¬ IsPair (.text written) := fun ⟨_, _, h⟩ => nomatch h
    cases hread : DateRange.read? written with
    | some range => exact .ok _ (.inr ⟨written, range, rfl, hread⟩) (by simp [MissesRange, hread])
    | none => exact .error (by simp [IsRange, hpair, hread]) (by simp [MissesRange, hread])
  next htext =>
    have hother : ∀ written, value ≠ .text written := htext
    refine (pairValues_settles operator value).congr (by simp [IsRange, hother]) fun fault => ?_
    simp [MissesRange, hother]

theorem relationName_settles (operator : String) (entry : Json) :
    Settles (relationName operator entry) (NamesRelation entry)
      fun fault => ¬ NamesRelation entry ∧ fault = .relationshipMissing operator := by
  unfold relationName
  split
  next name hname =>
    have hnames : NamesRelation entry := ⟨name, Json.textField_eq_some.mp hname⟩
    exact .ok _ hnames fun fault h => h.1 hnames
  next hnone =>
    have hno : ¬ NamesRelation entry := fun ⟨name, hfield⟩ => by
      rw [hfield] at hnone
      cases hnone
    exact .error hno fun fault => and_iff_right hno

theorem Operand.read_settles (operand : Operand) (operator : String) (value entry : Json) :
    Settles (operand.read operator value entry) (operand.need.Met value entry)
      (operand.need.Breaks operator value entry) := by
  cases operand with
  | members predicate => exact .ok _ trivial fun _ h => h
  | value predicate => exact .ok _ trivial fun _ h => h
  | search predicate => exact .ok _ trivial fun _ h => h
  | nothing predicate => exact .ok _ trivial fun _ h => h
  | pair predicate => exact (pairValues_settles operator value).map _
  | relatedValue => exact (relationName_settles operator entry).map _
  | relatedSearch => exact (relationName_settles operator entry).map _
  | relatedRange =>
    exact (rangeValues_settles operator value).bind fun bounds _ =>
      (relationName_settles operator entry).map _

theorem readPredicate_settles (operator : String) (value entry : Json) :
    Settles (readPredicate operator value entry) (Fits operator value entry)
      (Misfits operator value entry) := by
  unfold readPredicate
  split
  -- a name has one need and is no word of a comparison, so it is settled by its operand alone
  next found hfound =>
    have hmem := mem_names_of_find? hfound
    have hneed : ∀ {need : Need}, operator ∈ need.names ↔ need = found.2.need :=
      fun {need} => ⟨fun h => need_unique h hmem, fun h => h ▸ hmem⟩
    refine (found.2.read_settles operator value entry).congr ?_ fun fault => ?_
    · simp [Fits, hneed, not_writes_of_mem_names hmem]
    · simp [Misfits, hneed]
  next hnone =>
    have hno := not_mem_names_of_find? hnone
    cases hread : Comparison.read operator with
    | ok op =>
      have hwrites := Comparison.read_eq_ok_iff.mp hread
      refine .ok _ (.inr ⟨op, hwrites⟩) fun fault hmisfit => ?_
      rcases hmisfit with ⟨need, hmem, _⟩ | ⟨_, hnot, _⟩
      · exact hno need hmem
      · exact hnot op hwrites
    | error fault =>
      obtain ⟨hnot, hfault⟩ := Comparison.read_eq_error_iff.mp hread
      exact .error (by simp [Fits, hno, hnot]) (by simp [Misfits, hno, hnot, hfault])

theorem readEntry_settles (column : String) (entry : Json) :
    Settles (readEntry column entry) (Accepted entry) (Offends column entry) := by
  unfold readEntry
  split
  next hnone => exact .ok _ (by simp [Accepted, hnone]) (by simp [Offends, hnone])
  next hnull => exact .ok _ (by simp [Accepted, hnull]) (by simp [Offends, hnull])
  next value hnull hvalue =>
    have hpresent : value ≠ .null := fun h => hnull h
    split
    next operator hoperator =>
      have hfield := Json.textField_eq_some.mp hoperator
      refine ((readPredicate_settles operator value entry).map _).congr ?_ fun fault => ?_
      · simp [Accepted, hvalue, hpresent, hfield]
      · simp [Offends, hvalue, hpresent, hfield]
    next hnone =>
      have hno : ∀ operator, entry.field? "operator" ≠ some (.text operator) :=
        fun operator hfield => by
          rw [hfield] at hnone
          cases hnone
      exact .error (by simp [Accepted, hvalue, hpresent, hno])
        (by simp [Offends, hvalue, hpresent, hno])

/-- The fault of the first entry with one. -/
def FirstOffence (entries : List (String × Json)) (fault : InvalidInput) : Prop :=
  ∃ before column entry behind, entries = before ++ (column, entry) :: behind ∧
    (∀ earlier ∈ before, Accepted earlier.2) ∧ ¬ Accepted entry ∧ Offends column entry fault

theorem firstOffence_cons {column : String} {entry : Json} {rest : List (String × Json)}
    {fault : InvalidInput} : FirstOffence ((column, entry) :: rest) fault ↔
      Offends column entry fault ∨ Accepted entry ∧ FirstOffence rest fault := by
  constructor
  · rintro ⟨before, c, e, behind, hsplit, hbefore, hno, hoffends⟩
    -- the offending entry is the first of the list or one of the rest
    cases before with
    | nil =>
      cases hsplit
      exact .inl hoffends
    | cons head before =>
      cases hsplit
      exact .inr ⟨hbefore _ List.mem_cons_self, before, c, e, behind, rfl,
        fun earlier hmem => hbefore earlier (List.mem_cons_of_mem _ hmem), hno, hoffends⟩
  · rintro (hoffends | ⟨hhead, before, c, e, behind, rfl, hbefore, hno, hoffends⟩)
    · exact ⟨[], column, entry, rest, rfl, by simp,
        (readEntry_settles column entry).not_both hoffends, hoffends⟩
    · exact ⟨(column, entry) :: before, c, e, behind, rfl,
        List.forall_mem_cons.mpr ⟨hhead, hbefore⟩, hno, hoffends⟩

theorem readEntries_settles (entries : List (String × Json)) :
    Settles (readEntries entries) (∀ entry ∈ entries, Accepted entry.2) (FirstOffence entries) := by
  induction entries with
  | nil => exact .ok _ (by simp) (by simp [FirstOffence])
  | cons head rest ih =>
    obtain ⟨column, entry⟩ := head
    exact ((readEntry_settles column entry).bind fun predicate _ => ih.map _).congr
      (by simp) fun fault => firstOffence_cons.symm

/-- A condition in its JSON form is null or an object whose entries are all accepted. What is
neither is refused, an object with the fault of its first entry that is not accepted. -/
theorem ofJson_accepts_grammar (v : Json) :
    ((∃ condition, ofJson v = .ok condition) ↔
      v = .null ∨ ∃ entries, v = .object entries ∧ ∀ entry ∈ entries, Accepted entry.2) ∧
    ∀ fault, ofJson v = .error fault ↔
      ((v ≠ .null ∧ ∀ entries, v ≠ .object entries) ∧ fault = .conditionNoObject) ∨
        ∃ entries, v = .object entries ∧ FirstOffence entries fault := by
  change Settles _ _ _
  unfold ofJson
  split
  next => exact .ok _ (.inl rfl) (by simp)
  next entries =>
    exact (readEntries_settles entries).congr (by simp) fun fault => by simp
  next hnull hobject =>
    have hno : v ≠ .null := hnull
    have hnone : ∀ entries, v ≠ .object entries := hobject
    exact .error (by simp [hno, hnone]) fun other => by simp [hno, hnone]

end Condition

end TableQuery
