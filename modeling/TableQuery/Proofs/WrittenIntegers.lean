import TableQuery.Text.Numeral

namespace TableQuery.Text

/-- The integer is a member of the range. -/
def NumeralRange.Holds (range : NumeralRange) (n : Int) : Prop :=
  range.least ≤ n ∧ n ≤ range.greatest

/-- One digit or more, and nothing else. -/
def Digits (cs : List Char) : Prop :=
  cs ≠ [] ∧ ∀ c ∈ cs, c.isDigit = true

/-- An integer of the range as it may be written: in decimal digits, with a plus sign before them
or, where the range has negative members, with a minus sign. -/
inductive NumeralRange.Writes (range : NumeralRange) : List Char → Int → Prop
  | plain {digits : List Char} (hdigits : Digits digits)
      (hrange : range.Holds (digitsValue digits)) : Writes range digits (digitsValue digits)
  | plus {digits : List Char} (hdigits : Digits digits)
      (hrange : range.Holds (digitsValue digits)) : Writes range ('+' :: digits) (digitsValue digits)
  | minus {digits : List Char} (hleast : range.least < 0) (hdigits : Digits digits)
      (hrange : range.Holds (-digitsValue digits)) :
      Writes range ('-' :: digits) (-digitsValue digits)

namespace NumeralRange

variable {range : NumeralRange} {cs : List Char} {n : Int}

theorem Writes.holds (h : range.Writes cs n) : range.Holds n := by
  cases h <;> assumption

theorem writes_plus_iff : range.Writes ('+' :: cs) n ↔
    Digits cs ∧ range.Holds n ∧ n = digitsValue cs := by
  constructor
  · intro h
    cases h with
    | plain hdigits => exact absurd (hdigits.2 '+' List.mem_cons_self) (by decide)
    | plus hdigits hrange => exact ⟨hdigits, hrange, rfl⟩
  · rintro ⟨hdigits, hrange, rfl⟩
    exact .plus hdigits hrange

theorem writes_minus_iff : range.Writes ('-' :: cs) n ↔
    range.least < 0 ∧ Digits cs ∧ range.Holds n ∧ n = -digitsValue cs := by
  constructor
  · intro h
    cases h with
    | plain hdigits => exact absurd (hdigits.2 '-' List.mem_cons_self) (by decide)
    | minus hleast hdigits hrange => exact ⟨hleast, hdigits, hrange, rfl⟩
  · rintro ⟨hleast, hdigits, hrange, rfl⟩
    exact .minus hleast hdigits hrange

theorem writes_plain_iff (hplus : ∀ rest, cs = '+' :: rest → False)
    (hminus : ∀ rest, cs = '-' :: rest → False) :
    range.Writes cs n ↔ Digits cs ∧ range.Holds n ∧ n = digitsValue cs := by
  constructor
  · intro h
    cases h with
    | plain hdigits hrange => exact ⟨hdigits, hrange, rfl⟩
    | plus => exact (hplus _ rfl).elim
    | minus => exact (hminus _ rfl).elim
  · rintro ⟨hdigits, hrange, rfl⟩
    exact .plain hdigits hrange

end NumeralRange

/-- A number with the sign that was read. -/
def signed (negative : Bool) (n : Nat) : Int :=
  if negative then -n else n

/-- The number that digits make of the number before them. -/
def digitsFrom (n : Nat) (cs : List Char) : Nat :=
  cs.foldl (fun n c => n * 10 + (digit? c).getD 0) n

theorem le_digitsFrom (n : Nat) (cs : List Char) : n ≤ digitsFrom n cs := by
  induction cs generalizing n with
  | nil => exact Nat.le_refl n
  | cons c cs ih =>
    have hnext : n * 10 + (digit? c).getD 0 ≤ digitsFrom n (c :: cs) := ih _
    omega

/-- What is nearer to zero than a member of the range is a member. -/
theorem NumeralRange.Holds.nearer {range : NumeralRange} {negative : Bool} {m n : Nat}
    (h : range.Holds (signed negative n)) (hzero : range.Holds 0) (hle : m ≤ n) :
    range.Holds (signed negative m) := by
  obtain ⟨hleast, hgreatest⟩ := hzero
  obtain ⟨hlow, hhigh⟩ := h
  cases negative with
  | true =>
    have hsign : ∀ k : Nat, signed true k = -k := fun _ => rfl
    rw [hsign] at hlow hhigh ⊢
    constructor <;> omega
  | false =>
    have hsign : ∀ k : Nat, signed false k = k := fun _ => rfl
    rw [hsign] at hlow hhigh ⊢
    constructor <;> omega

theorem signed_next (negative : Bool) (n d : Nat) :
    (if negative then signed negative n * 10 - d else signed negative n * 10 + d) =
      signed negative (n * 10 + d) := by
  cases negative with
  | true =>
    show -(n : Int) * 10 - d = -((n * 10 + d : Nat) : Int)
    omega
  | false => rfl

/-- Digits are read where all characters are digits and the number stays in the range. -/
theorem readDigits_eq_ok_iff {range : NumeralRange} (hzero : range.Holds 0) {negative : Bool}
    {n : Nat} (hn : range.Holds (signed negative n)) {cs : List Char} {m : Int} :
    readDigits range negative (signed negative n) cs = .ok m ↔
      (∀ c ∈ cs, c.isDigit = true) ∧ range.Holds m ∧ m = signed negative (digitsFrom n cs) := by
  induction cs generalizing n with
  | nil =>
    simp only [readDigits, digitsFrom, List.foldl_nil, Except.ok.injEq, List.not_mem_nil,
      false_implies, implies_true, true_and]
    constructor
    · rintro rfl
      exact ⟨hn, rfl⟩
    · exact fun h => h.2.symm
  | cons c cs ih =>
    rw [readDigits, List.forall_mem_cons]
    cases hdigit : c.isDigit with
    | false =>
      have hnone : digit? c = none := by simp [digit?, hdigit]
      rw [hnone]
      exact iff_of_false nofun fun h => nomatch h.1.1
    | true =>
      have hsome : digit? c = some (c.toNat - '0'.toNat) := by simp [digit?, hdigit]
      have hvalue : digitsFrom n (c :: cs) = digitsFrom (n * 10 + (c.toNat - '0'.toNat)) cs := by
        simp [digitsFrom, hsome]
      rw [hsome, hvalue]
      dsimp only
      rw [signed_next]
      by_cases hnext : range.Holds (signed negative (n * 10 + (c.toNat - '0'.toNat)))
      · rw [if_neg (Int.not_lt.mpr hnext.1), if_neg (Int.not_lt.mpr hnext.2), ih hnext]
        simp only [true_and]
      · refine iff_of_false ?_ ?_
        · split
          next => nofun
          next hlow =>
            split
            next => nofun
            next hhigh => exact absurd ⟨Int.not_lt.mp hlow, Int.not_lt.mp hhigh⟩ hnext
        · -- the digits behind only take the number further from zero
          rintro ⟨_, hrange, rfl⟩
          exact hnext (hrange.nearer hzero (le_digitsFrom _ cs))

theorem readDigits_zero_iff {range : NumeralRange} (hzero : range.Holds 0) (negative : Bool)
    {cs : List Char} (hne : cs ≠ []) {n : Int} :
    readDigits range negative 0 cs = .ok n ↔
      Digits cs ∧ range.Holds n ∧ n = signed negative (digitsValue cs) := by
  have hstart : signed negative 0 = 0 := by cases negative <;> rfl
  have hread : readDigits range negative (signed negative 0) cs = .ok n ↔ _ :=
    readDigits_eq_ok_iff hzero (by rwa [hstart])
  rw [hstart] at hread
  rw [hread]
  exact and_congr_left' (and_iff_right hne).symm

/-- What is read is what is written: a sign alone, a minus sign where none may stand, another
character or a number out of the range is no integer. -/
theorem readInt_eq_ok_iff {range : NumeralRange} (hzero : range.Holds 0) {cs : List Char}
    {n : Int} : readInt range cs = .ok n ↔ range.Writes cs n := by
  unfold readInt
  split
  next =>
    rw [NumeralRange.writes_plain_iff (by simp) (by simp)]
    exact iff_of_false nofun fun h => h.1.1 rfl
  next =>
    rw [NumeralRange.writes_plus_iff]
    exact iff_of_false nofun fun h => h.1.1 rfl
  next =>
    rw [NumeralRange.writes_minus_iff]
    exact iff_of_false nofun fun h => h.2.1.1 rfl
  next ds hsign =>
    rw [NumeralRange.writes_plus_iff]
    exact readDigits_zero_iff hzero false fun hnone => hsign (hnone ▸ rfl)
  next ds hsign =>
    rw [NumeralRange.writes_minus_iff]
    split
    next hleast =>
      rw [readDigits_zero_iff hzero true fun hnone => hsign (hnone ▸ rfl)]
      exact (and_iff_right hleast).symm
    next hleast => exact iff_of_false nofun fun h => hleast h.1
  next hnone _ _ hplus hminus =>
    rw [NumeralRange.writes_plain_iff hplus hminus]
    exact readDigits_zero_iff hzero false hnone

end TableQuery.Text
