import Mathlib.Algebra.Group.Nat.Defs
import Mathlib.Data.List.Induction
import Mathlib.Data.Nat.Init
import TableQuery.Calendar
import TableQuery.Store.Datum

namespace TableQuery

/-- Lists with beginnings of one length are ordered by these first. -/
theorem orderBy_append {α : Type} {number : α → Nat} {as bs : List α} (h : as.length = bs.length)
    (as' bs' : List α) :
    orderBy number (as ++ as') (bs ++ bs') =
      (orderBy number as bs).then (orderBy number as' bs') := by
  induction as generalizing bs with
  | nil =>
    obtain rfl := List.length_eq_zero_iff.mp h.symm
    rfl
  | cons a as ih =>
    obtain ⟨b, bs, rfl⟩ := List.exists_cons_of_length_eq_add_one h.symm
    have hlength : as.length = bs.length := Nat.succ.inj h
    rw [List.cons_append, List.cons_append, orderBy, orderBy, ih hlength, Ordering.then_assoc]

theorem orderBy_cons_self {α : Type} (number : α → Nat) (a : α) (as bs : List α) :
    orderBy number (a :: as) (a :: bs) = orderBy number as bs := by
  simp [orderBy]

theorem lex_iff_orderBy {s t : List Char} :
    List.Lex (· < ·) t s ↔ orderBy Char.toNat s t = .gt := by
  induction s generalizing t with
  | nil => cases t <;> simp [orderBy]
  | cons a s ih =>
    cases t with
    | nil => simp [orderBy]
    | cons b t =>
      rw [List.cons_lex_cons_iff, ih, orderBy]
      rcases Nat.lt_trichotomy a.toNat b.toNat with h | h | h
      · have hnot : ¬b < a := Nat.lt_asymm h
        have hne : b ≠ a := fun hsame => Nat.lt_irrefl _ (hsame ▸ h)
        simp [hnot, hne, Nat.compare_eq_lt.mpr h]
      · obtain rfl := Char.toNat_inj.mp h
        have hnot : ¬a < a := Nat.lt_irrefl _
        exact (or_iff_right hnot).trans (by simp)
      · have hless : b < a := h
        simp [hless, Nat.compare_eq_gt.mpr h]

/-- The order of texts is that of their characters by number. -/
theorem text_le_iff {s t : String} :
    s ≤ t ↔ (orderBy Char.toNat s.toList t.toList).isLE = true := by
  have hless : t < s ↔ List.Lex (· < ·) t.toList s.toList := Iff.rfl
  have hle : s ≤ t ↔ ¬t < s := Iff.rfl
  rw [hle, hless, lex_iff_orderBy, Ordering.isLE_iff_ne_gt]

namespace Date

theorem padded_one {n : Nat} (h : n < 10) : padded 1 n = [n.digitChar] := by
  rw [padded, Nat.toDigits_of_lt_base h]
  rfl

/-- The last place of a padded number is its last digit. -/
theorem padded_succ {width : Nat} (h : 0 < width) (n : Nat) :
    padded (width + 1) n = padded width (n / 10) ++ [(n % 10).digitChar] := by
  simp only [padded]
  rw [Nat.toDigits_eq_if (n := n) (by decide)]
  split
  next hsmall =>
    have hzero : n / 10 = 0 := Nat.div_eq_of_lt hsmall
    obtain ⟨k, rfl⟩ := Nat.exists_eq_add_of_lt h
    simp [hzero, Nat.mod_eq_of_lt hsmall, List.replicate_succ']
  next =>
    simp [List.append_assoc]

theorem length_padded {width n : Nat} (hwidth : 0 < width) (h : n < 10 ^ width) :
    (padded width n).length = width := by
  have hdigits : (Nat.toDigits 10 n).length ≤ width :=
    (Nat.length_toDigits_le_iff (by decide) hwidth).mpr h
  simp [padded, hdigits]

theorem isDigit_padded {width n : Nat} {c : Char} (h : c ∈ padded width n) : c.isDigit = true := by
  rcases List.mem_append.mp h with hzero | hdigit
  · rw [List.eq_of_mem_replicate hzero]
    rfl
  · exact Nat.isDigit_of_mem_toDigits (by decide) (by decide) hdigit

end Date

namespace Text

theorem digitsValue_append (cs : List Char) (c : Char) :
    digitsValue (cs ++ [c]) = digitsValue cs * 10 + (digit? c).getD 0 := by
  simp [digitsValue]

theorem digit?_digitChar {d : Nat} (h : d < 10) : digit? d.digitChar = some d := by
  simp [digit?, Nat.isDigit_digitChar, h, Nat.toNat_digitChar_of_lt_ten]

theorem exists_digitChar {c : Char} (h : c.isDigit = true) : ∃ d, d < 10 ∧ c = d.digitChar := by
  simp only [Char.isDigit, Bool.and_eq_true, decide_eq_true_eq] at h
  have hlow : 48 ≤ c.toNat := h.1
  have hhigh : c.toNat ≤ 57 := h.2
  refine ⟨c.toNat - 48, by omega, Char.toNat_inj.mp ?_⟩
  rw [Nat.toNat_digitChar_of_lt_ten (by omega)]
  omega

end Text

namespace Date

theorem digitsValue_padded {width n : Nat} (hwidth : 0 < width) (h : n < 10 ^ width) :
    Text.digitsValue (padded width n) = n := by
  induction width, hwidth using Nat.le_induction generalizing n with
  | base =>
    rw [padded_one h]
    simp [Text.digitsValue, Text.digit?_digitChar h]
  | succ width hwidth ih =>
    have hrest : n / 10 < 10 ^ width := Nat.div_lt_of_lt_mul (by rwa [Nat.pow_succ'] at h)
    rw [padded_succ hwidth, Text.digitsValue_append, ih hrest,
      Text.digit?_digitChar (Nat.mod_lt n (by decide)), Option.getD_some, Nat.div_add_mod']

/-- Digits write the number that they pad to their count. -/
theorem padded_digitsValue {cs : List Char} (hne : cs ≠ []) (h : ∀ c ∈ cs, c.isDigit = true) :
    Text.digitsValue cs < 10 ^ cs.length ∧ padded cs.length (Text.digitsValue cs) = cs := by
  induction cs using List.reverseRecOn with
  | nil => exact absurd rfl hne
  | append_singleton cs c ih =>
    obtain ⟨d, hd, rfl⟩ := Text.exists_digitChar (h c (by simp))
    rw [Text.digitsValue_append, Text.digit?_digitChar hd, Option.getD_some, List.length_append,
      List.length_singleton]
    rcases eq_or_ne cs [] with rfl | hcs
    · have hvalue : Text.digitsValue [] * 10 + d = d := by simp [Text.digitsValue]
      rw [hvalue]
      exact ⟨hd, padded_one hd⟩
    · obtain ⟨hless, hback⟩ := ih hcs fun c hmem => h c (by simp [hmem])
      have hpositive : 0 < cs.length := List.length_pos_iff.mpr hcs
      refine ⟨by rw [Nat.pow_succ]; omega, ?_⟩
      have hdiv : (Text.digitsValue cs * 10 + d) / 10 = Text.digitsValue cs := by omega
      have hmod : (Text.digitsValue cs * 10 + d) % 10 = d := by omega
      rw [padded_succ hpositive, hdiv, hmod, hback]

/-- Some digits write a number exactly where they are the number padded to their count. -/
theorem number?_eq_some_iff {cs : List Char} {n : Nat} (hne : cs ≠ []) :
    number? cs = some n ↔ n < 10 ^ cs.length ∧ cs = padded cs.length n := by
  have hpositive : 0 < cs.length := List.length_pos_iff.mpr hne
  constructor
  · intro h
    unfold number? at h
    split at h
    next hall =>
      cases h
      obtain ⟨hless, hback⟩ := padded_digitsValue hne (List.all_eq_true.mp hall)
      exact ⟨hless, hback.symm⟩
    next => cases h
  · rintro ⟨hless, hback⟩
    have hall : cs.all Char.isDigit = true := List.all_eq_true.mpr fun c hmem =>
      isDigit_padded (hback ▸ hmem)
    have hvalue : Text.digitsValue cs = n := by
      rw [hback]
      exact digitsValue_padded hpositive hless
    rw [number?, if_pos hall, hvalue]

theorem orderBy_digits {m n : Nat} (hm : m < 10) (hn : n < 10) :
    orderBy Char.toNat [m.digitChar] [n.digitChar] = compare m n := by
  rw [orderBy, Nat.toNat_digitChar_of_lt_ten hm, Nat.toNat_digitChar_of_lt_ten hn, orderBy,
    Ordering.then_eq]
  simp only [Nat.compare_eq_ite_lt, Nat.add_lt_add_iff_left]

theorem compare_div_mod (m n : Nat) :
    (compare (m / 10) (n / 10)).then (compare (m % 10) (n % 10)) = compare m n := by
  rcases Nat.lt_trichotomy (m / 10) (n / 10) with h | h | h
  · have hless : m < n := by omega
    rw [Nat.compare_eq_lt.mpr h, Nat.compare_eq_lt.mpr hless]
    rfl
  · have hsame : compare (m % 10) (n % 10) = compare m n := by
      simp only [Nat.compare_eq_ite_lt]
      have hless : m % 10 < n % 10 ↔ m < n := by omega
      have hgreater : n % 10 < m % 10 ↔ n < m := by omega
      rw [if_congr hless rfl rfl, if_congr hgreater rfl rfl]
    rw [Nat.compare_eq_eq.mpr h, hsame]
    rfl
  · have hgreater : n < m := by omega
    rw [Nat.compare_eq_gt.mpr h, Nat.compare_eq_gt.mpr hgreater]
    rfl

/-- Numbers padded to one width are ordered as the numbers are. -/
theorem orderBy_padded {width m n : Nat} (hwidth : 0 < width) (hm : m < 10 ^ width)
    (hn : n < 10 ^ width) :
    orderBy Char.toNat (padded width m) (padded width n) = compare m n := by
  induction width, hwidth using Nat.le_induction generalizing m n with
  | base => rw [padded_one hm, padded_one hn, orderBy_digits hm hn]
  | succ width hwidth ih =>
    have hm' : m / 10 < 10 ^ width := Nat.div_lt_of_lt_mul (by rwa [Nat.pow_succ'] at hm)
    have hn' : n / 10 < 10 ^ width := Nat.div_lt_of_lt_mul (by rwa [Nat.pow_succ'] at hn)
    have hlength : (padded width (m / 10)).length = (padded width (n / 10)).length := by
      rw [length_padded hwidth hm', length_padded hwidth hn']
    rw [padded_succ hwidth, padded_succ hwidth, orderBy_append hlength, ih hm' hn',
      orderBy_digits (Nat.mod_lt m (by decide)) (Nat.mod_lt n (by decide)), compare_div_mod]

end Date

end TableQuery
