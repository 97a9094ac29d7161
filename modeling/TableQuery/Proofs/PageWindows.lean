import TableQuery.Store.Select
import TableQuery.Page

namespace TableQuery

namespace Page

variable {α : Type}

/-- The rows of a list that stand on the page. -/
def window (p : Page) (rows : List α) : List α :=
  (rows.drop ((p.number - 1) * p.size).toNat).take p.size.toNat

theorem make_eq_ok_iff {number size : Int} {p : Page} :
    make number size = .ok p ↔
      (1 ≤ number ∧ 1 ≤ size) ∧ (number - 1) * min size unlimitedSize ≤ maxInt64 ∧
        p = ⟨number, min size unlimitedSize⟩ := by
  unfold make
  split
  next h => exact iff_of_false nofun fun ⟨hleast, _⟩ => by omega
  next h =>
    dsimp only
    split
    next hgreat => exact iff_of_false nofun fun ⟨_, hmost, _⟩ => by omega
    next hgreat =>
      simp only [Except.ok.injEq]
      constructor
      · rintro rfl
        exact ⟨by omega, by omega, rfl⟩
      · rintro ⟨_, _, rfl⟩
        rfl

/-- The page counts from one, and the rows before it can be counted in 64 bits. -/
def Addressable (p : Page) : Prop :=
  1 ≤ p.number ∧ 1 ≤ p.size ∧ (p.number - 1) * p.size ≤ maxInt64

theorem of_make {number size : Int} {p : Page} (h : make number size = .ok p) :
    p.Addressable := by
  obtain ⟨⟨hnumber, hsize⟩, hrange, rfl⟩ := make_eq_ok_iff.mp h
  have hunlimited : 1 ≤ unlimitedSize := by decide
  exact ⟨hnumber, show 1 ≤ min size unlimitedSize by omega, hrange⟩

theorem Addressable.offset_nonneg {p : Page} (h : p.Addressable) :
    0 ≤ (p.number - 1) * p.size := by
  obtain ⟨hnumber, hsize, _⟩ := h
  exact Int.mul_nonneg (by omega) (by omega)

theorem Addressable.offset_eq {p : Page} (h : p.Addressable) :
    p.offset = (p.number - 1) * p.size := by
  have hnonneg := h.offset_nonneg
  obtain ⟨_, _, hrange⟩ := h
  have hmin : minInt64 ≤ 0 := by decide
  unfold offset
  omega

/-- Limit and offset of a page take its window. -/
theorem window_eq {number size : Int} {p : Page} (h : make number size = .ok p) (rows : List α) :
    Store.window (some p.size) (some p.offset) rows = p.window rows := by
  obtain ⟨_, hsize, _⟩ := of_make h
  have hlimit : ¬p.size < 0 := by omega
  simp [Store.window, window, (of_make h).offset_eq, hlimit]

end Page

namespace Paged

theorem one_le_lastPageOf (total size : Int) : 1 ≤ lastPageOf total size :=
  Int.le_max_right _ _

/-- There is a page behind the page `n` exactly where the first `n` pages do not hold all rows. -/
theorem lt_lastPageOf_iff {total size n : Int} (htotal : 0 ≤ total) (hsize : 1 ≤ size)
    (hn : 1 ≤ n) : n < lastPageOf total size ↔ n * size < total := by
  have hmax : max size 1 = size := by omega
  have hsplit : size * total.tdiv size + total.tmod size = total := Int.mul_tdiv_add_tmod total size
  have hrest : total.tmod size < size := Int.tmod_lt_of_pos total (by omega)
  have hnonneg : 0 ≤ total.tmod size := Int.tmod_nonneg size htotal
  rw [Int.mul_comm] at hsplit
  unfold lastPageOf
  dsimp only
  rw [hmax]
  generalize total.tdiv size = q at *
  by_cases hexact : total.tmod size = 0
  · have hlast : n < max q 1 ↔ n < q := by omega
    rw [if_pos hexact, Int.add_zero, hlast, ← Int.mul_lt_mul_right (show 0 < size by omega)]
    omega
  · have hlast : n < max (q + 1) 1 ↔ n ≤ q := by omega
    rw [if_neg hexact, hlast]
    constructor
    · intro hle
      have hscaled : n * size ≤ q * size := Int.mul_le_mul_of_nonneg_right hle (by omega)
      omega
    · intro hless
      apply Int.not_lt.mp
      intro hgreat
      have hscaled : (q + 1) * size ≤ n * size :=
        Int.mul_le_mul_of_nonneg_right (by omega) (by omega)
      rw [Int.add_mul] at hscaled
      omega

/-- The pages up to the last hold all rows, and those before the last not more. -/
theorem lastPageOf_bounds {total size : Int} (htotal : 0 ≤ total) (hsize : 1 ≤ size) :
    total ≤ lastPageOf total size * size ∧ (lastPageOf total size - 1) * size ≤ total := by
  have hone := one_le_lastPageOf total size
  have hall := lt_lastPageOf_iff htotal hsize hone
  refine ⟨by omega, ?_⟩
  rcases (show lastPageOf total size - 1 = 0 ∨ 1 ≤ lastPageOf total size - 1 by omega) with
    hfirst | hlater
  · rw [hfirst, Int.zero_mul]
    exact htotal
  · exact Int.le_of_lt ((lt_lastPageOf_iff htotal hsize hlater).mp (by omega))

end Paged

namespace Page

variable {α : Type}

theorem window_past {p : Page} {rows : List α} (hsize : 1 ≤ p.size)
    (h : Paged.lastPageOf rows.length p.size < p.number) : p.window rows = [] := by
  have hall := (Paged.lastPageOf_bounds (Int.natCast_nonneg rows.length) hsize).1
  have hbefore : Paged.lastPageOf rows.length p.size * p.size ≤ (p.number - 1) * p.size :=
    Int.mul_le_mul_of_nonneg_right (by omega) (by omega)
  rw [window, List.drop_of_length_le (by omega), List.take_nil]

/-- The pages of a size, from the first on. -/
def firstPages (count : Nat) (size : Int) : List Page :=
  (List.range count).map fun i : Nat => ⟨i + 1, size⟩

theorem flatMap_firstPages (count : Nat) {size : Int} (hsize : 1 ≤ size) (rows : List α) :
    (firstPages count size).flatMap (·.window rows) = rows.take (count * size.toNat) := by
  induction count with
  | zero => simp [firstPages]
  | succ count ih =>
    have hskipped : (((count : Int) + 1 - 1) * size).toNat = count * size.toNat := by
      rw [Int.add_sub_cancel, Int.toNat_mul (Int.natCast_nonneg count) (by omega)]
      simp
    have hpages : firstPages (count + 1) size = firstPages count size ++ [⟨count + 1, size⟩] := by
      simp [firstPages, List.range_succ]
    rw [hpages, List.flatMap_append, ih, List.flatMap_singleton, window, hskipped, Nat.succ_mul,
      List.take_add]

/-- All pages up to the last are accepted, and one after the other they hold the rows. -/
theorem exists_pages {size : Int} {rows : List α} (hsize : 1 ≤ size)
    (hrows : (rows.length : Int) ≤ maxInt64) :
    ∃ pages : List Page,
      pages.length = (Paged.lastPageOf rows.length (min size unlimitedSize)).toNat ∧
      (∀ (i : Nat) page, pages[i]? = some page → make (i + 1) size = .ok page) ∧
      pages.flatMap (·.window rows) = rows := by
  have hunlimited : 1 ≤ unlimitedSize := by decide
  have hcut : 1 ≤ min size unlimitedSize := by omega
  obtain ⟨hall, hbefore⟩ := Paged.lastPageOf_bounds (Int.natCast_nonneg rows.length) hcut
  have hlast := Paged.one_le_lastPageOf rows.length (min size unlimitedSize)
  generalize Paged.lastPageOf rows.length (min size unlimitedSize) = last at *
  refine ⟨firstPages last.toNat (min size unlimitedSize), by simp [firstPages], ?_, ?_⟩
  · intro i page hpage
    rw [firstPages, List.getElem?_map] at hpage
    obtain ⟨j, hj, rfl⟩ := Option.map_eq_some_iff.mp hpage
    obtain ⟨hi, hij⟩ := List.getElem?_eq_some_iff.mp hj
    rw [List.getElem_range] at hij
    subst hij
    have hilast : (i : Int) ≤ last - 1 := by
      rw [List.length_range] at hi
      omega
    -- what stands before a page is less than the list, so it can be counted
    have hskipped : (i : Int) * min size unlimitedSize ≤ (last - 1) * min size unlimitedSize :=
      Int.mul_le_mul_of_nonneg_right hilast (by omega)
    have hpositive : ¬((i : Int) + 1 < 1 ∨ size < 1) := by omega
    have hrange : ¬maxInt64 < ((i : Int) + 1 - 1) * min size unlimitedSize := by
      rw [Int.add_sub_cancel]
      omega
    rw [make, if_neg hpositive]
    exact if_neg hrange
  · rw [flatMap_firstPages _ hcut]
    refine List.take_of_length_le ?_
    have hcount : (last.toNat * (min size unlimitedSize).toNat : Int) =
        last * min size unlimitedSize := by
      rw [Int.toNat_of_nonneg (by omega), Int.toNat_of_nonneg (by omega)]
    omega

end Page

end TableQuery
