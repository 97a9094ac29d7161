import TableQuery.Proofs.PageWindows

namespace TableQuery

namespace Word

/-- An integer, where 64 bits with a sign hold it. -/
def of? (n : Int) : Option Int :=
  if isInt64 n then some n else none

def add? (m n : Int) : Option Int :=
  of? (m + n)

def sub? (m n : Int) : Option Int :=
  of? (m - n)

def mul? (m n : Int) : Option Int :=
  of? (m * n)

/-- The quotient toward zero. The least integer has none by minus one. -/
def div? (m n : Int) : Option Int :=
  if n = 0 then none else of? (m.tdiv n)

/-- The remainder of that quotient, where there is one. -/
def mod? (m n : Int) : Option Int :=
  (div? m n).map fun _ => m.tmod n

theorem of?_eq_some {n : Int} (hleast : minInt64 ≤ n) (hmost : n ≤ maxInt64) : of? n = some n := by
  unfold of?
  rw [if_pos (isInt64_iff.mpr ⟨hleast, hmost⟩)]

theorem of?_eq_none {n : Int} (h : maxInt64 < n) : of? n = none := by
  unfold of?
  refine if_neg fun hfits => ?_
  have := (isInt64_iff.mp hfits).2
  omega

theorem pred?_eq {n : Int} (hleast : 1 ≤ n) (hmost : n ≤ maxInt64 + 1) :
    sub? n 1 = some (n - 1) := by
  have hmin : minInt64 ≤ 0 := by decide
  apply of?_eq_some
  · omega
  · omega

theorem div?_eq {m n : Int} (hleast : 0 ≤ m) (hmost : m ≤ maxInt64) (hn : 1 ≤ n) :
    div? m n = some (m.tdiv n) := by
  have hmin : minInt64 ≤ 0 := by decide
  have hquotient : 0 ≤ m.tdiv n := Int.tdiv_nonneg hleast (by omega)
  have hless : m.tdiv n ≤ m := by
    rw [Int.tdiv_eq_ediv_of_nonneg hleast]
    exact Int.ediv_le_self n hleast
  unfold div?
  rw [if_neg (show ¬n = 0 by omega)]
  apply of?_eq_some
  · omega
  · omega

theorem mod?_eq {m n : Int} (hleast : 0 ≤ m) (hmost : m ≤ maxInt64) (hn : 1 ≤ n) :
    mod? m n = some (m.tmod n) := by
  unfold mod?
  rw [div?_eq hleast hmost hn]
  rfl

end Word

namespace Page

/-- The page asked for, worked out in 64 bits. That the product does not fit is an answer and no
overflow. -/
def make64 (number size : Int) : Option (Except InvalidInput Page) :=
  if number < 1 ∨ size < 1 then some (.error (.pageBelowOne number size))
  else do
    let size := min size unlimitedSize
    let before ← Word.sub? number 1
    match Word.mul? before size with
    | none => some (.error (.pageOutOfRange number size))
    | some _ => some (.ok ⟨number, size⟩)

/-- The size of the page for a request. -/
def requestedSize (size : Option Int) (limits : PageLimits) : Int :=
  max
    (match size with
      | some size => if 1 ≤ size then min size limits.greatestSize else limits.defaultSize
      | none => limits.defaultSize) 1

/-- The number of the page for a request, before it is held to the pages that can be counted. -/
def requestedNumber (number : Option Int) : Int :=
  match number with
  | some number => if 1 ≤ number then number else 1
  | none => 1

/-- The page for a request, worked out in 64 bits. -/
def ofRequest64 (number size : Option Int) (limits : PageLimits) : Option Page := do
  let last ← Word.div? maxInt64 (requestedSize size limits)
  pure ⟨min (requestedNumber number) last, requestedSize size limits⟩

/-- How many rows stand before the page, worked out in 64 bits. There is no such number where the
product would have to be cut. -/
def offset64 (p : Page) : Option Int := do
  let before ← Word.sub? p.number 1
  Word.mul? before p.size

theorem ofRequest_eq (number size : Option Int) (limits : PageLimits) :
    ofRequest number size limits =
      ⟨min (requestedNumber number) (maxInt64 / requestedSize size limits),
        requestedSize size limits⟩ :=
  rfl

theorem one_le_requestedSize (size : Option Int) (limits : PageLimits) :
    1 ≤ requestedSize size limits :=
  Int.le_max_right _ _

theorem requestedSize_le (size : Option Int) {limits : PageLimits}
    (hdefault : limits.defaultSize ≤ maxInt64) (hgreatest : limits.greatestSize ≤ maxInt64) :
    requestedSize size limits ≤ maxInt64 := by
  have hmax : 1 ≤ maxInt64 := by decide
  unfold requestedSize
  split
  next => split <;> omega
  next => omega

theorem one_le_requestedNumber (number : Option Int) : 1 ≤ requestedNumber number := by
  unfold requestedNumber
  split
  next => split <;> omega
  next => omega

theorem make64_eq {number : Int} (hnumber : number ≤ maxInt64) (size : Int) :
    make64 number size = some (make number size) := by
  unfold make64 make
  split
  next => rfl
  next hpositive =>
    have hunlimited : 1 ≤ unlimitedSize := by decide
    have hmin : minInt64 ≤ 0 := by decide
    have hproduct : 0 ≤ (number - 1) * min size unlimitedSize :=
      Int.mul_nonneg (by omega) (by omega)
    dsimp only
    rw [Word.pred?_eq (by omega) (by omega), Option.bind_eq_bind, Option.bind_some]
    by_cases hrange : maxInt64 < (number - 1) * min size unlimitedSize
    · have hnone : Word.mul? (number - 1) (min size unlimitedSize) = none :=
        Word.of?_eq_none hrange
      rw [hnone, if_pos hrange]
    · have hsome : Word.mul? (number - 1) (min size unlimitedSize) =
          some ((number - 1) * min size unlimitedSize) :=
        Word.of?_eq_some (by omega) (by omega)
      rw [hsome, if_neg hrange]

theorem ofRequest64_eq (number size : Option Int) (limits : PageLimits) :
    ofRequest64 number size limits = some (ofRequest number size limits) := by
  have hmax : 0 ≤ maxInt64 := by decide
  have hquotient : Word.div? maxInt64 (requestedSize size limits) =
      some (maxInt64 / requestedSize size limits) := by
    rw [Word.div?_eq hmax (Int.le_refl _) (one_le_requestedSize size limits),
      Int.tdiv_eq_ediv_of_nonneg hmax]
  unfold ofRequest64
  rw [hquotient]
  rfl

theorem Addressable.number_le {p : Page} (h : p.Addressable) : p.number - 1 ≤ maxInt64 := by
  obtain ⟨hnumber, hsize, hrange⟩ := h
  have hless : (p.number - 1) * 1 ≤ (p.number - 1) * p.size :=
    Int.mul_le_mul_of_nonneg_left hsize (by omega)
  omega

theorem Addressable.offset64_eq {p : Page} (h : p.Addressable) : p.offset64 = some p.offset := by
  have hmin : minInt64 ≤ 0 := by decide
  have hnumber := h.number_le
  have hnonneg := h.offset_nonneg
  unfold offset64
  rw [Word.pred?_eq h.1 (by omega), h.offset_eq]
  exact Word.of?_eq_some (by omega) h.2.2

/-- A request is held to the pages that can be counted. -/
theorem addressable_ofRequest (number size : Option Int) {limits : PageLimits}
    (hdefault : limits.defaultSize ≤ maxInt64) (hgreatest : limits.greatestSize ≤ maxInt64) :
    (ofRequest number size limits).Addressable := by
  have hsize := one_le_requestedSize size limits
  have hfits := requestedSize_le size hdefault hgreatest
  have hnumber := one_le_requestedNumber number
  rw [ofRequest_eq]
  generalize requestedSize size limits = size at *
  have hone : 1 ≤ maxInt64 / size := by
    apply (Int.le_ediv_iff_mul_le (by omega)).mpr
    omega
  have hlast : maxInt64 / size * size ≤ maxInt64 := Int.ediv_mul_le maxInt64 (by omega)
  refine ⟨show 1 ≤ min (requestedNumber number) (maxInt64 / size) by omega, hsize, ?_⟩
  calc (min (requestedNumber number) (maxInt64 / size) - 1) * size
      ≤ maxInt64 / size * size := Int.mul_le_mul_of_nonneg_right (by omega) (by omega)
    _ ≤ maxInt64 := hlast

/-- How a page comes about: it is asked for, made for a request, or the page of all rows. -/
inductive Made : Page → Prop
  | asked {number size : Int} {p : Page} (h : make number size = .ok p) : Made p
  | requested (number size : Option Int) (limits : PageLimits)
      (hdefault : isInt64 limits.defaultSize = true)
      (hgreatest : isInt64 limits.greatestSize = true) : Made (ofRequest number size limits)
  | unlimited : Made unlimited

theorem Made.addressable {p : Page} (h : Made p) : p.Addressable := by
  cases h with
  | asked h => exact of_make h
  | requested number size limits hdefault hgreatest =>
    exact addressable_ofRequest number size (isInt64_iff.mp hdefault).2
      (isInt64_iff.mp hgreatest).2
  | unlimited => exact of_make (show make 1 unlimitedSize = .ok Page.unlimited from rfl)

theorem make_eq_error_iff {number size : Int} :
    (∃ fault, make number size = .error fault) ↔
      number < 1 ∨ size < 1 ∨ maxInt64 < (number - 1) * min size unlimitedSize := by
  cases hmade : make number size with
  | ok p =>
    obtain ⟨⟨hnumber, hsize⟩, hrange, _⟩ := make_eq_ok_iff.mp hmade
    refine iff_of_false nofun ?_
    omega
  | error fault =>
    refine iff_of_true ⟨fault, rfl⟩ ?_
    apply Classical.byContradiction
    intro hsound
    have hok : make number size = .ok ⟨number, min size unlimitedSize⟩ :=
      make_eq_ok_iff.mpr ⟨by omega, by omega, rfl⟩
    rw [hmade] at hok
    cases hok

/-- Every page that is made can be counted up to: no step of its making and none of its offset
leaves 64 bits. -/
theorem made_pages_addressable :
    (∀ number size : Int, isInt64 number = true → isInt64 size = true →
      make64 number size = some (make number size) ∧
      ((∃ fault, make number size = .error fault) ↔
        number < 1 ∨ size < 1 ∨ maxInt64 < (number - 1) * min size 9999)) ∧
    (∀ (number size : Option Int) (limits : PageLimits),
      ofRequest64 number size limits = some (ofRequest number size limits)) ∧
    ∀ p, Made p → 1 ≤ p.number ∧ 1 ≤ p.size ∧ p.offset = (p.number - 1) * p.size ∧
      p.offset64 = some p.offset := by
  refine ⟨fun number size hnumber _ => ⟨?_, make_eq_error_iff⟩, ofRequest64_eq, fun p hp => ?_⟩
  · exact make64_eq (isInt64_iff.mp hnumber).2 size
  · have hcounted := hp.addressable
    exact ⟨hcounted.1, hcounted.2.1, hcounted.offset_eq, hcounted.offset64_eq⟩

/-- The last page of ten rows, and what is left of a request where no limit leaves a row. -/
theorem last_pages_addressable :
    make 922337203685477581 10 = .ok ⟨922337203685477581, 10⟩ ∧
    make64 922337203685477582 10 = some (.error (.pageOutOfRange 922337203685477582 10)) ∧
    (Page.mk 922337203685477581 10).offset64 = some 9223372036854775800 ∧
    (ofRequest (some maxInt64) (some 7) ⟨0, minInt64⟩).offset64 = some 9223372036854775806 := by
  obtain ⟨hasked, _, hmade⟩ := made_pages_addressable
  have hlast : make 922337203685477581 10 = .ok ⟨922337203685477581, 10⟩ := rfl
  have hbehind := (hasked 922337203685477582 10 (by decide) (by decide)).1
  have hten := hmade _ (.asked hlast)
  have hone := hmade _ (.requested (some maxInt64) (some 7) ⟨0, minInt64⟩ (by decide) (by decide))
  refine ⟨hlast, hbehind.trans rfl, ?_, ?_⟩
  · rw [hten.2.2.2]
    decide
  · rw [hone.2.2.2]
    decide

/-- A request for a page that can be made brings that page, unless the rows up to its end are too
many to count. That is the case of the last page that can be made of its size, and the request then
brings the page before it. -/
theorem ofRequest_keeps_page_iff {number size : Int} {p : Page} (h : make number size = .ok p) :
    (ofRequest (some number) (some size) standardLimits = p ↔ p.number * p.size ≤ maxInt64) ∧
    (maxInt64 < p.number * p.size → p.number = maxInt64 / p.size + 1 ∧
      ofRequest (some number) (some size) standardLimits = ⟨p.number - 1, p.size⟩) := by
  obtain ⟨⟨hnumber, hsize⟩, hrange, rfl⟩ := make_eq_ok_iff.mp h
  have hunlimited : 1 ≤ unlimitedSize := by decide
  have hchosen : requestedSize (some size) standardLimits = min size unlimitedSize := by
    show max (if 1 ≤ size then min size unlimitedSize else 10) 1 = min size unlimitedSize
    rw [if_pos hsize]
    omega
  have hwanted : requestedNumber (some number) = number := if_pos hnumber
  rw [ofRequest_eq, hchosen, hwanted]
  dsimp only
  have hpositive : 0 < min size unlimitedSize := by omega
  clear hchosen
  generalize min size unlimitedSize = size at *
  -- a request keeps the numbers up to this quotient, and the next one can still be counted up to
  have hkept : number ≤ maxInt64 / size ↔ number * size ≤ maxInt64 :=
    Int.le_ediv_iff_mul_le hpositive
  have hlast : number - 1 ≤ maxInt64 / size := (Int.le_ediv_iff_mul_le hpositive).mpr hrange
  simp only [Page.mk.injEq, and_true]
  omega

theorem ofRequest_keeps_page_of_ten :
    ofRequest (some 922337203685477580) (some 10) standardLimits = ⟨922337203685477580, 10⟩ ∧
    ofRequest (some 922337203685477581) (some 10) standardLimits = ⟨922337203685477580, 10⟩ := by
  have hkept : make 922337203685477580 10 = .ok ⟨922337203685477580, 10⟩ := rfl
  have hlast : make 922337203685477581 10 = .ok ⟨922337203685477581, 10⟩ := rfl
  exact ⟨(ofRequest_keeps_page_iff hkept).1.mpr (by decide),
    ((ofRequest_keeps_page_iff hlast).2 (by decide)).2⟩

/-- The last page of ten rows that can be counted up to is not the one that a request brings. -/
theorem ofRequest_misses_last_page :
    make 922337203685477581 10 = .ok ⟨922337203685477581, 10⟩ ∧
      ofRequest (some 922337203685477581) (some 10) standardLimits ≠ ⟨922337203685477581, 10⟩ :=
  ⟨rfl, by decide⟩

end Page

end TableQuery
