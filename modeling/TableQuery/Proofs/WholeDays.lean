import Mathlib.Tactic.IntervalCases
import TableQuery.DateRange
import TableQuery.Proofs.PaddedNumbers
import TableQuery.Proofs.RelatedTests
import TableQuery.Proofs.SortedRows
import TableQuery.Proofs.SpelledKeys
import TableQuery.Proofs.WireForm

namespace TableQuery

namespace Date

/-- Every fourth year is a leap year, of the years that end a century every fourth. -/
def IsLeapYear (year : Nat) : Prop :=
  4 ∣ year ∧ (100 ∣ year → 400 ∣ year)

instance (year : Nat) : Decidable (IsLeapYear year) :=
  inferInstanceAs (Decidable (_ ∧ _))

/-- The days of the months of a year in order. -/
def monthLengths (year : Nat) : List Nat :=
  [31, if IsLeapYear year then 29 else 28, 31, 30, 31, 30, 31, 31, 30, 31, 30, 31]

/-- The day is one of a month of its year. -/
def OnCalendar (d : Date) : Prop :=
  0 < d.month ∧ 0 < d.day ∧ ∃ length ∈ (monthLengths d.year)[d.month - 1]?, d.day ≤ length

variable {d : Date}

theorem isLeap_iff {year : Nat} : isLeap year = true ↔ IsLeapYear year := by
  simp only [isLeap, IsLeapYear, Bool.and_eq_true, Bool.or_eq_true, decide_eq_true_eq,
    bne_iff_ne, ne_eq]
  omega

theorem monthLengths_getElem? {year month : Nat} (hpositive : 0 < month) (hmost : month ≤ 12) :
    (monthLengths year)[month - 1]? = some (monthLength year month) := by
  interval_cases month <;> simp [monthLengths, monthLength, isLeap_iff]

theorem valid_iff : d.valid = true ↔ d.OnCalendar := by
  simp only [valid, OnCalendar, Bool.and_eq_true, decide_eq_true_eq, Option.mem_def]
  constructor
  · rintro ⟨⟨⟨hpositive, hmost⟩, hday⟩, hlength⟩
    exact ⟨hpositive, hday, _, monthLengths_getElem? hpositive hmost, hlength⟩
  · rintro ⟨hpositive, hday, length, hfound, hlength⟩
    have hindex : d.month - 1 < 12 := (List.getElem?_eq_some_iff.mp hfound).1
    have hmost : d.month ≤ 12 := by omega
    rw [monthLengths_getElem? hpositive hmost] at hfound
    cases hfound
    exact ⟨⟨⟨hpositive, hmost⟩, hday⟩, hlength⟩

theorem OnCalendar.month_le (h : d.OnCalendar) : d.month ≤ 12 := by
  have hvalid := valid_iff.mpr h
  simp only [valid, Bool.and_eq_true, decide_eq_true_eq] at hvalid
  exact hvalid.1.1.2

theorem OnCalendar.day_le (h : d.OnCalendar) : d.day ≤ 31 := by
  have hvalid := valid_iff.mpr h
  simp only [valid, Bool.and_eq_true, decide_eq_true_eq] at hvalid
  have hlength : monthLength d.year d.month ≤ 31 := by
    unfold monthLength
    split_ifs <;> decide
  exact hvalid.2.trans hlength

/-- A day of the calendar in a year of four digits. -/
structure Written (d : Date) : Prop where
  onCalendar : d.OnCalendar
  year : d.year < 10 ^ 4

theorem Written.month (h : d.Written) : d.month < 10 ^ 2 := by
  have hmost := h.onCalendar.month_le
  omega

theorem Written.day (h : d.Written) : d.day < 10 ^ 2 := by
  have hmost := h.onCalendar.day_le
  omega

/-- The day as `dd/mm/YYYY`. -/
def dayFirst (d : Date) : List Char :=
  padded 2 d.day ++ '/' :: (padded 2 d.month ++ '/' :: padded 4 d.year)

theorem Written.length_dayFirst (h : d.Written) : d.dayFirst.length = 10 := by
  have hd : (padded 2 d.day).length = 2 := length_padded (by decide) h.day
  have hm : (padded 2 d.month).length = 2 := length_padded (by decide) h.month
  have hy : (padded 4 d.year).length = 4 := length_padded (by decide) h.year
  simp [dayFirst, hd, hm, hy]

theorem readDayFirst?_eq_some_iff {cs : List Char} :
    readDayFirst? cs = some d ↔ d.Written ∧ cs = d.dayFirst := by
  constructor
  · intro h
    unfold readDayFirst? at h
    split at h
    next d₁ d₂ m₁ m₂ y₁ y₂ y₃ y₄ =>
      obtain ⟨day, hday, h⟩ := Option.bind_eq_some_iff.mp h
      obtain ⟨month, hmonth, h⟩ := Option.bind_eq_some_iff.mp h
      obtain ⟨year, hyear, h⟩ := Option.bind_eq_some_iff.mp h
      have hd : [d₁, d₂] = padded 2 day := ((number?_eq_some_iff (by simp)).mp hday).2
      have hm : [m₁, m₂] = padded 2 month := ((number?_eq_some_iff (by simp)).mp hmonth).2
      obtain ⟨hbound, hyear⟩ := (number?_eq_some_iff (by simp)).mp hyear
      have hy : [y₁, y₂, y₃, y₄] = padded 4 year := hyear
      dsimp only at h
      split at h
      next hvalid =>
        cases h
        refine ⟨⟨valid_iff.mp hvalid, hbound⟩, ?_⟩
        simp [dayFirst, ← hd, ← hm, ← hy]
      next => cases h
    next => cases h
  · rintro ⟨hwritten, rfl⟩
    have hd := length_padded (by decide) hwritten.day
    have hm := length_padded (by decide) hwritten.month
    have hy := length_padded (by decide) hwritten.year
    obtain ⟨d₁, d₂, hday⟩ := List.length_eq_two.mp hd
    obtain ⟨m₁, m₂, hmonth⟩ := List.length_eq_two.mp hm
    obtain ⟨y₁, y₂, y₃, y₄, hyear⟩ : ∃ y₁ y₂ y₃ y₄, padded 4 d.year = [y₁, y₂, y₃, y₄] := by
      match hcs : padded 4 d.year, hy with
      | [y₁, y₂, y₃, y₄], _ => exact ⟨_, _, _, _, rfl⟩
    have hday' : number? [d₁, d₂] = some d.day :=
      (number?_eq_some_iff (by simp)).mpr ⟨hwritten.day, hday.symm⟩
    have hmonth' : number? [m₁, m₂] = some d.month :=
      (number?_eq_some_iff (by simp)).mpr ⟨hwritten.month, hmonth.symm⟩
    have hyear' : number? [y₁, y₂, y₃, y₄] = some d.year :=
      (number?_eq_some_iff (by simp)).mpr ⟨hwritten.year, hyear.symm⟩
    simp [dayFirst, hday, hmonth, hyear, readDayFirst?, hday', hmonth', hyear',
      valid_iff.mpr hwritten.onCalendar]

/-- The days in the order of the calendar. -/
def order (a b : Date) : Ordering :=
  (compare a.year b.year).then ((compare a.month b.month).then (compare a.day b.day))

/-- The day is the other or comes before it. -/
def UpTo (a b : Date) : Prop :=
  a.year < b.year ∨
    a.year = b.year ∧ (a.month < b.month ∨ a.month = b.month ∧ a.day ≤ b.day)

instance (a b : Date) : Decidable (a.UpTo b) :=
  inferInstanceAs (Decidable (_ ∨ _))

theorem isLE_order {a b : Date} : (a.order b).isLE = true ↔ a.UpTo b := by
  simp only [order, UpTo, Ordering.isLE_then_iff_or, Nat.isLE_compare, Nat.compare_eq_lt,
    Nat.compare_eq_eq]

theorem orderBy_padded_append {width m n : Nat} (hwidth : 0 < width) (hm : m < 10 ^ width)
    (hn : n < 10 ^ width) (cs ds : List Char) :
    orderBy Char.toNat (padded width m ++ cs) (padded width n ++ ds) =
      (compare m n).then (orderBy Char.toNat cs ds) := by
  have hlength : (padded width m).length = (padded width n).length := by
    rw [length_padded hwidth hm, length_padded hwidth hn]
  rw [orderBy_append hlength, orderBy_padded hwidth hm hn]

/-- With the year first the characters of days are ordered as the days are. -/
theorem orderBy_characters_append {a b : Date} (ha : a.Written) (hb : b.Written)
    (cs ds : List Char) :
    orderBy Char.toNat (a.characters ++ cs) (b.characters ++ ds) =
      (a.order b).then (orderBy Char.toNat cs ds) := by
  simp only [characters, List.append_assoc, List.cons_append]
  rw [orderBy_padded_append (by decide) ha.year hb.year, orderBy_cons_self,
    orderBy_padded_append (by decide) ha.month hb.month, orderBy_cons_self,
    orderBy_padded_append (by decide) ha.day hb.day, order, Ordering.then_assoc,
    Ordering.then_assoc]

end Date

/-- A second of a day. -/
structure Timestamp where
  date : Date
  hour : Nat
  minute : Nat
  second : Nat
deriving DecidableEq, Repr

namespace Timestamp

/-- The second is one of its day, which is one of a year of four digits. -/
structure Valid (m : Timestamp) : Prop where
  date : m.date.Written
  hour : m.hour < 24
  minute : m.minute < 60
  second : m.second < 60

/-- The time as `HH:MM:SS`. -/
def timeCharacters (m : Timestamp) : List Char :=
  Date.padded 2 m.hour ++ ':' :: (Date.padded 2 m.minute ++ ':' :: Date.padded 2 m.second)

/-- The second as `YYYY-mm-dd HH:MM:SS`. -/
def text (m : Timestamp) : String :=
  String.ofList (m.date.characters ++ ' ' :: m.timeCharacters)

/-- The times of seconds, whatever their days are. -/
def timeOrder (m n : Timestamp) : Ordering :=
  (compare m.hour n.hour).then ((compare m.minute n.minute).then (compare m.second n.second))

variable {m n : Timestamp}

theorem orderBy_text (hm : m.Valid) (hn : n.Valid) :
    orderBy Char.toNat m.text.toList n.text.toList = (m.date.order n.date).then (m.timeOrder n) := by
  have hhour : m.hour < 10 ^ 2 ∧ n.hour < 10 ^ 2 :=
    ⟨hm.hour.trans (by decide), hn.hour.trans (by decide)⟩
  have hminute : m.minute < 10 ^ 2 ∧ n.minute < 10 ^ 2 :=
    ⟨hm.minute.trans (by decide), hn.minute.trans (by decide)⟩
  have hsecond : m.second < 10 ^ 2 ∧ n.second < 10 ^ 2 :=
    ⟨hm.second.trans (by decide), hn.second.trans (by decide)⟩
  simp only [text, String.toList_ofList, timeCharacters]
  rw [Date.orderBy_characters_append hm.date hn.date, orderBy_cons_self,
    Date.orderBy_padded_append (by decide) hhour.1 hhour.2, orderBy_cons_self,
    Date.orderBy_padded_append (by decide) hminute.1 hminute.2, orderBy_cons_self,
    Date.orderBy_padded (by decide) hsecond.1 hsecond.2, timeOrder]

/-- A day's first second comes before all of its seconds, and its last after all of them. -/
theorem timeOrder_ends (hm : m.Valid) (d : Date) :
    ((Timestamp.mk d 0 0 0).timeOrder m).isLE = true ∧
      (m.timeOrder (Timestamp.mk d 23 59 59)).isLE = true := by
  have hhour := hm.hour
  have hminute := hm.minute
  have hsecond := hm.second
  simp only [timeOrder, Ordering.isLE_then_iff_or, Nat.isLE_compare, Nat.compare_eq_lt,
    Nat.compare_eq_eq]
  omega

theorem valid_firstSecond {d : Date} (h : d.Written) : (Timestamp.mk d 0 0 0).Valid :=
  ⟨h, Nat.zero_lt_succ _, Nat.zero_lt_succ _, Nat.zero_lt_succ _⟩

theorem valid_lastSecond {d : Date} (h : d.Written) : (Timestamp.mk d 23 59 59).Valid :=
  ⟨h, Nat.lt_succ_self _, Nat.lt_succ_self _, Nat.lt_succ_self _⟩

theorem first_isLE {d : Date} (hd : d.Written) (hm : m.Valid) :
    (orderBy Char.toNat (Timestamp.mk d 0 0 0).text.toList m.text.toList).isLE = true ↔
      d.UpTo m.date := by
  rw [orderBy_text (valid_firstSecond hd) hm, Ordering.isLE_then_iff_or, (timeOrder_ends hm d).1,
    ← Date.isLE_order]
  cases d.order m.date <;> decide

theorem isLE_last {d : Date} (hd : d.Written) (hm : m.Valid) :
    (orderBy Char.toNat m.text.toList (Timestamp.mk d 23 59 59).text.toList).isLE = true ↔
      m.date.UpTo d := by
  rw [orderBy_text hm (valid_lastSecond hd), Ordering.isLE_then_iff_or, (timeOrder_ends hm d).2,
    ← Date.isLE_order]
  cases m.date.order d <;> decide

end Timestamp

namespace Datum

/-- A second is no number for the store: a hyphen follows its year. -/
theorem number?_text {m : Timestamp} (hm : m.Valid) : number? m.text = none := by
  have hdigits : ∀ c ∈ Date.padded 4 m.date.year, c.isDigit = true := fun _ =>
    Date.isDigit_padded
  have hne : Date.padded 4 m.date.year ≠ [] := by
    intro hnil
    have hlength := Date.length_padded (by decide) hm.date.year
    rw [hnil] at hlength
    cases hlength
  have hread (rest : List Char) :=
    leadingNumber?_digits hne hdigits ('-' :: rest) (by simp)
  simp only [number?, Timestamp.text, String.toList_ofList, Date.characters, List.append_assoc,
    List.cons_append, hread]
  split_ifs <;> simp [isNumberBlank]

theorem order_text (s t : String) :
    (text s).order (text t) = orderBy Char.toNat s.toList t.toList := by
  simp [order, rank]

end Datum

namespace Sql.Relator

theorem holds_le (a b : Datum) : le.holds (a.order b) = (a.order b).isLE := by
  cases a.order b <;> rfl

theorem holds_ge (a b : Datum) : ge.holds (a.order b) = (b.order a).isLE := by
  have hswap : b.order a = (a.order b).swap := Std.OrientedCmp.eq_swap
  rw [hswap]
  cases a.order b <;> rfl

end Sql.Relator

theorem Affinity.comparing_numberless (affinity : Option Affinity) {s : String}
    (h : Datum.number? s = none) : comparing affinity none (.text s) = .text s := by
  rcases affinity with _ | _ | _ | _ | _ <;>
    simp [comparing, comparing.single, numberOfText, textOfNumber, h]

namespace DateRange

/-- The text writes the two days of the range, and between them a hyphen with one blank on each
side. -/
structure Writes (s : String) (r : DateRange) : Prop where
  first : r.first.Written
  last : r.last.Written
  characters : ∃ before behind, Text.isBlank before = true ∧ Text.isBlank behind = true ∧
    s.toList = r.first.dayFirst ++ before :: '-' :: behind :: r.last.dayFirst

theorem read?_eq_some_iff {s : String} {r : DateRange} : read? s = some r ↔ Writes s r := by
  constructor
  · intro h
    unfold read? readCharacters? at h
    split at h
    next before behind rest hdrop =>
      split at h
      next hblank =>
        obtain ⟨first, hfirst, h⟩ := Option.bind_eq_some_iff.mp h
        obtain ⟨last, hlast, h⟩ := Option.bind_eq_some_iff.mp h
        cases h
        obtain ⟨hwritten, htake⟩ := Date.readDayFirst?_eq_some_iff.mp hfirst
        obtain ⟨hwritten', rfl⟩ := Date.readDayFirst?_eq_some_iff.mp hlast
        obtain ⟨hbefore, hbehind⟩ := Bool.and_eq_true_iff.mp hblank
        refine ⟨hwritten, hwritten', before, behind, hbefore, hbehind, ?_⟩
        rw [← htake, ← hdrop, List.take_append_drop]
      next => cases h
    next => cases h
  · rintro ⟨hfirst, hlast, before, behind, hbefore, hbehind, hs⟩
    have hlength := hfirst.length_dayFirst
    have hread := Date.readDayFirst?_eq_some_iff.mpr ⟨hfirst, rfl⟩
    have hread' := Date.readDayFirst?_eq_some_iff.mpr ⟨hlast, rfl⟩
    rw [read?, readCharacters?, hs, List.drop_left' hlength, List.take_left' hlength]
    simp [hbefore, hbehind, hread, hread']

/-- A day within the range. -/
def Includes (r : DateRange) (d : Date) : Prop :=
  r.first.UpTo d ∧ d.UpTo r.last

instance (r : DateRange) (d : Date) : Decidable (r.Includes d) :=
  inferInstanceAs (Decidable (_ ∧ _))

theorem start_eq (r : DateRange) : r.start = (Timestamp.mk r.first 0 0 0).text := by
  have htime : " 00:00:00".toList =
      ' ' :: (Date.padded 2 0 ++ ':' :: (Date.padded 2 0 ++ ':' :: Date.padded 2 0)) := by
    decide +kernel
  rw [start, Timestamp.text, Timestamp.timeCharacters, htime]

theorem finish_eq (r : DateRange) : r.finish = (Timestamp.mk r.last 23 59 59).text := by
  have htime : " 23:59:59".toList =
      ' ' :: (Date.padded 2 23 ++ ':' :: (Date.padded 2 59 ++ ':' :: Date.padded 2 59)) := by
    decide +kernel
  rw [finish, Timestamp.text, Timestamp.timeCharacters, htime]

variable {s : String} {r : DateRange} {m : Timestamp}

theorem Writes.start_le_iff (h : Writes s r) (hm : m.Valid) :
    r.start ≤ m.text ↔ r.first.UpTo m.date := by
  rw [start_eq, text_le_iff, Timestamp.first_isLE h.first hm]

theorem Writes.le_finish_iff (h : Writes s r) (hm : m.Valid) :
    m.text ≤ r.finish ↔ m.date.UpTo r.last := by
  rw [finish_eq, text_le_iff, Timestamp.isLE_last h.last hm]

/-- A column's texts are compared with the two ends of a range as texts, whatever its affinity. -/
theorem Writes.betweenMeaning (h : Writes s r) (hm : m.Valid) (affinity : Option Affinity) :
    Test.betweenMeaning (.text r.start) (.text r.finish) ⟨affinity, .text m.text⟩ =
      some (decide (r.Includes m.date)) := by
  have hnumber := Datum.number?_text hm
  have hstart : Datum.number? r.start = none := by
    rw [start_eq]
    exact Datum.number?_text (Timestamp.valid_firstSecond h.first)
  have hfinish : Datum.number? r.finish = none := by
    rw [finish_eq]
    exact Datum.number?_text (Timestamp.valid_lastSecond h.last)
  have hlow : ((Datum.text r.start).order (.text m.text)).isLE = decide (r.first.UpTo m.date) := by
    refine Bool.eq_iff_iff.mpr ?_
    rw [Datum.order_text, ← text_le_iff, h.start_le_iff hm, decide_eq_true_eq]
  have hhigh : ((Datum.text m.text).order (.text r.finish)).isLE = decide (m.date.UpTo r.last) := by
    refine Bool.eq_iff_iff.mpr ?_
    rw [Datum.order_text, ← text_le_iff, h.le_finish_iff hm, decide_eq_true_eq]
  simp only [Test.betweenMeaning, Cell.between, Cell.compare, Cell.ofValue, Datum.ofValue,
    Affinity.comparing_numberless _ hnumber, Affinity.comparing_numberless _ hstart,
    Affinity.comparing_numberless _ hfinish, Datum.isNull, Sql.Relator.holds_ge, Sql.Relator.holds_le,
    hlow, hhigh]
  by_cases hfirst : r.first.UpTo m.date <;> by_cases hlast : m.date.UpTo r.last <;>
    simp [Includes, truthAnd, hfirst, hlast]

/-- The texts that are read as ranges are those of two days of the calendar with a hyphen between
blanks. Of the seconds written year first, the texts from the one end to the other are those of the
days within the range, and these are what a search of related rows by the range finds. -/
theorem admits_whole_days (s : String) :
    (∀ r, read? s = some r ↔ Writes s r) ∧
    ∀ r, read? s = some r →
      r.start = (Timestamp.mk r.first 0 0 0).text ∧
      r.finish = (Timestamp.mk r.last 23 59 59).text ∧
      (∀ m : Timestamp, m.Valid → (r.start ≤ m.text ∧ m.text ≤ r.finish ↔ r.Includes m.date)) ∧
      ∀ entry name, entry.field? "relationship_name" = some (.text name) →
        ∃ p, Condition.readPredicate "where_has_like_between" (.text s) entry = .ok p ∧
          p.relation? = some name ∧
          ∀ (affinity : Option Affinity) (m : Timestamp), m.Valid →
            p.ofRelated ⟨affinity, .text m.text⟩ = some (decide (r.Includes m.date)) := by
  refine ⟨fun r => read?_eq_some_iff, fun r hread => ?_⟩
  have hwrites := read?_eq_some_iff.mp hread
  refine ⟨start_eq r, finish_eq r, fun m hm => ?_, fun entry name hname => ?_⟩
  · exact and_congr (hwrites.start_le_iff hm) (hwrites.le_finish_iff hm)
  · refine ⟨.hasBetween name (.text r.start) (.text r.finish), ?_, rfl, fun affinity m hm =>
      hwrites.betweenMeaning hm affinity⟩
    have hrange : Condition.rangeValues "where_has_like_between" (.text s) =
        .ok (.text r.start, .text r.finish) := by
      rw [Condition.rangeValues, hread]
    have hpredicate : Condition.readPredicate "where_has_like_between" (.text s) entry =
        Condition.Operand.read "where_has_like_between" (.text s) entry .relatedRange := by
      rfl
    rw [hpredicate, Condition.Operand.read, hrange, Condition.relationName_of_field hname]
    rfl

/-- The range of the days of a leap month holds the last second of its last day. -/
theorem leap_february_whole :
    ∃ r, read? "01/02/2024 - 29/02/2024" = some r ∧
      (Timestamp.mk ⟨2024, 2, 29⟩ 23 59 59).Valid ∧ r.Includes ⟨2024, 2, 29⟩ ∧
      (Timestamp.mk ⟨2024, 2, 29⟩ 23 59 59).text ≤ r.finish ∧
      ∃ p, Condition.readPredicate "where_has_like_between" (.text "01/02/2024 - 29/02/2024")
          (.object [("relationship_name", .text "orders")]) = .ok p ∧
        p.ofRelated ⟨none, .text (Timestamp.mk ⟨2024, 2, 29⟩ 23 59 59).text⟩ = some true := by
  have hread : read? "01/02/2024 - 29/02/2024" = some ⟨⟨2024, 2, 1⟩, ⟨2024, 2, 29⟩⟩ := by
    decide +kernel
  have hvalid : (Timestamp.mk ⟨2024, 2, 29⟩ 23 59 59).Valid :=
    ⟨⟨Date.valid_iff.mp (by decide), by decide⟩, by decide, by decide, by decide⟩
  have hincludes : Includes ⟨⟨2024, 2, 1⟩, ⟨2024, 2, 29⟩⟩ ⟨2024, 2, 29⟩ := by decide
  obtain ⟨_, _, hends, hreads⟩ := (admits_whole_days "01/02/2024 - 29/02/2024").2 _ hread
  obtain ⟨p, hp, _, hfinds⟩ :=
    hreads (.object [("relationship_name", .text "orders")]) "orders" rfl
  exact ⟨_, hread, hvalid, hincludes, ((hends _ hvalid).mpr hincludes).2, p, hp,
    (hfinds none _ hvalid).trans (congrArg some (decide_eq_true hincludes))⟩

end DateRange

end TableQuery
