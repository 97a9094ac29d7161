import Mathlib.Data.Rat.Floor
import TableQuery.Proofs.AddressablePages

namespace TableQuery

namespace Paged

variable {α β : Type}

/-- How many pages of a size a number of rows fills, worked out in 64 bits. -/
def lastPageOf64 (total size : Int) : Option Int := do
  let size := max size 1
  let quotient ← Word.div? total size
  let rest ← Word.mod? total size
  let pages ← Word.add? quotient (if rest = 0 then 0 else 1)
  pure (max pages 1)

theorem lastPageOf64_eq {total : Int} (htotal : 0 ≤ total) (hmost : total ≤ maxInt64)
    (size : Int) : lastPageOf64 total size = some (lastPageOf total size) := by
  have hmin : minInt64 ≤ 0 := by decide
  have hsize : 1 ≤ max size 1 := Int.le_max_right _ _
  unfold lastPageOf64 lastPageOf
  dsimp only
  generalize max size 1 = size at *
  have hquotient : 0 ≤ total.tdiv size := Int.tdiv_nonneg htotal (by omega)
  have hsplit : size * total.tdiv size + total.tmod size = total := Int.mul_tdiv_add_tmod total size
  have hrest : 0 ≤ total.tmod size := Int.tmod_nonneg size htotal
  have hless : 1 * total.tdiv size ≤ size * total.tdiv size :=
    Int.mul_le_mul_of_nonneg_right hsize hquotient
  have hsum : Word.add? (total.tdiv size) (if total.tmod size = 0 then 0 else 1) =
      some (total.tdiv size + if total.tmod size = 0 then 0 else 1) := by
    apply Word.of?_eq_some
    · split <;> omega
    · split <;> omega
  rw [Word.div?_eq htotal hmost hsize, Word.mod?_eq htotal hmost hsize]
  simp only [Option.bind_eq_bind, Option.bind_some, hsum]
  rfl

/-- The last page is the quotient of rows and size, rounded up, and the first where no rows are. -/
theorem lastPageOf_eq_ceil {total size : Int} (htotal : 0 ≤ total) (hsize : 1 ≤ size) :
    lastPageOf total size = max 1 ⌈(total : ℚ) / size⌉ := by
  have hpositive : (0 : ℚ) < size := by exact_mod_cast hsize
  refine eq_of_forall_lt_iff fun n => ?_
  rcases (show n < 1 ∨ 1 ≤ n by omega) with hfirst | hlater
  · have hone := one_le_lastPageOf total size
    exact iff_of_true (by omega) (lt_max_of_lt_left hfirst)
  · rw [lt_lastPageOf_iff htotal hsize hlater, lt_max_iff, Int.lt_ceil, lt_div_iff₀ hpositive]
    have hcast : (n : ℚ) * size < total ↔ n * size < total := by exact_mod_cast Iff.rfl
    rw [hcast]
    omega

/-- What a page tells of a list of `total` rows: where it ends and which pages are beside it. -/
structure Tells (e : Paged α) (total : Int) (p : Page) : Prop where
  lastPage : e.lastPage = max 1 ⌈(total : ℚ) / p.size⌉
  hasNextPage : e.hasNextPage = true ↔ p.number * p.size < total
  hasPreviousPage : e.hasPreviousPage = true ↔ 1 < p.number

theorem hasNextPage_of {total : Int} {p : Page} (items : List α) :
    (of items total p).hasNextPage = true ↔ p.number < lastPageOf total p.size :=
  decide_eq_true_iff

theorem tells_of {total : Int} {p : Page} (items : List α) (htotal : 0 ≤ total)
    (hsize : 1 ≤ p.size) (hnumber : 1 ≤ p.number) : (of items total p).Tells total p where
  lastPage := lastPageOf_eq_ceil htotal hsize
  hasNextPage := (hasNextPage_of items).trans (lt_lastPageOf_iff htotal hsize hnumber)
  hasPreviousPage := decide_eq_true_iff

theorem Tells.map {e : Paged α} {total : Int} {p : Page} (h : e.Tells total p) (f : α → β) :
    (e.map f).Tells total p :=
  { h with }

end Paged

namespace Page

variable {α : Type} {items : Page → List α} {total size : Int}

/-- The pages seen from a page on by a reader who asks for the next one as long as there is one. -/
inductive Followed (items : Page → List α) (total : Int) : Page → List Page → Prop
  | last {p : Page} (h : (Paged.of (items p) total p).hasNextPage = false) :
      Followed items total p [p]
  | next {p : Page} {rest : List Page} (h : (Paged.of (items p) total p).hasNextPage = true)
      (hrest : Followed items total ⟨p.number + 1, p.size⟩ rest) :
      Followed items total p (p :: rest)

theorem Followed.unique {p : Page} {pages others : List Page} (h : Followed items total p pages)
    (hother : Followed items total p others) : pages = others := by
  induction h generalizing others with
  | last h =>
    cases hother with
    | last => rfl
    | next hnext => rw [h] at hnext; cases hnext
  | next h _ ih =>
    cases hother with
    | last hlast => rw [h] at hlast; cases hlast
    | next _ hrest => rw [ih hrest]

/-- The pages of a size from a number on. -/
def pagesFrom (number : Int) (count : Nat) (size : Int) : List Page :=
  (List.range count).map fun i : Nat => ⟨number + i, size⟩

theorem pagesFrom_succ (number : Int) (count : Nat) (size : Int) :
    pagesFrom number (count + 1) size = ⟨number, size⟩ :: pagesFrom (number + 1) count size := by
  unfold pagesFrom
  rw [List.range_succ_eq_map, List.map_cons, List.map_map]
  congr 1
  · simp
  · apply List.map_congr_left
    intro i _
    simp only [Function.comp_apply, Nat.succ_eq_add_one, Page.mk.injEq, and_true]
    omega

theorem followed_pagesFrom (number : Int) (count : Nat)
    (h : number + count = Paged.lastPageOf total size) :
    Followed items total ⟨number, size⟩ (pagesFrom number (count + 1) size) := by
  induction count generalizing number with
  | zero =>
    rw [pagesFrom_succ]
    apply Followed.last
    apply decide_eq_false
    show ¬number < Paged.lastPageOf total size
    omega
  | succ count ih =>
    rw [pagesFrom_succ]
    apply Followed.next
    · apply (Paged.hasNextPage_of _).mpr
      show number < Paged.lastPageOf total size
      omega
    · exact ih (number + 1) (by omega)

theorem firstPages_eq (count : Nat) (size : Int) : firstPages count size = pagesFrom 1 count size := by
  unfold firstPages pagesFrom
  apply List.map_congr_left
  intro i _
  rw [Int.add_comm]

/-- Who follows the list from its first page sees the pages up to the last one, each once. -/
theorem followed_iff {pages : List Page} :
    Followed items total ⟨1, size⟩ pages ↔
      pages = firstPages (Paged.lastPageOf total size).toNat size := by
  have hone := Paged.one_le_lastPageOf total size
  have hcount : (Paged.lastPageOf total size).toNat =
      (Paged.lastPageOf total size).toNat - 1 + 1 := by omega
  have hall : Followed items total ⟨1, size⟩
      (firstPages (Paged.lastPageOf total size).toNat size) := by
    rw [firstPages_eq, hcount]
    apply followed_pagesFrom
    omega
  constructor
  · exact fun h => h.unique hall
  · rintro rfl
    exact hall

theorem mem_firstPages {count : Nat} {p : Page} :
    p ∈ firstPages count size ↔ p.size = size ∧ 1 ≤ p.number ∧ p.number ≤ count := by
  unfold firstPages
  rw [List.mem_map]
  constructor
  · rintro ⟨i, hi, rfl⟩
    have := List.mem_range.mp hi
    refine ⟨rfl, ?_, ?_⟩ <;> dsimp only <;> omega
  · rintro ⟨rfl, hleast, hmost⟩
    refine ⟨(p.number - 1).toNat, List.mem_range.mpr (by omega), ?_⟩
    have hback : ((p.number - 1).toNat : Int) + 1 = p.number := by omega
    rw [hback]

/-- The row with the index `i` is on the page. -/
def Holds (p : Page) (i : Int) : Prop :=
  p.offset ≤ i ∧ i < p.offset + p.size

theorem Addressable.holds_iff {p : Page} (h : p.Addressable) {i : Int} :
    p.Holds i ↔ p.number = i / p.size + 1 := by
  have hpositive : 0 < p.size := by
    have := h.2.1
    omega
  have hend : (p.number - 1) * p.size + p.size = p.number * p.size := by
    rw [Int.sub_mul]
    omega
  unfold Holds
  rw [h.offset_eq, hend, ← Int.le_ediv_iff_mul_le hpositive, ← Int.ediv_lt_iff_lt_mul hpositive]
  omega

theorem addressable_of_mem_firstPages (htotal : 0 ≤ total) (hmost : total ≤ maxInt64)
    (hsize : 1 ≤ size) {p : Page}
    (hp : p ∈ firstPages (Paged.lastPageOf total size).toNat size) : p.Addressable := by
  obtain ⟨rfl, hnumber, hlast⟩ := mem_firstPages.mp hp
  have hone := Paged.one_le_lastPageOf total p.size
  have hbefore : (p.number - 1) * p.size ≤ (Paged.lastPageOf total p.size - 1) * p.size :=
    Int.mul_le_mul_of_nonneg_right (by omega) (by omega)
  have hbound := (Paged.lastPageOf_bounds htotal hsize).2
  exact ⟨hnumber, hsize, by omega⟩

/-- Each row is on one page up to the last and on no other. -/
theorem existsUnique_holds (htotal : 0 ≤ total) (hmost : total ≤ maxInt64) (hsize : 1 ≤ size)
    {i : Int} (hi : 0 ≤ i) (hrow : i < total) :
    ∃! p, p ∈ firstPages (Paged.lastPageOf total size).toNat size ∧ p.Holds i := by
  have hquotient : 0 ≤ i / size := Int.ediv_nonneg hi (by omega)
  have hback : i / size * size ≤ i := Int.ediv_mul_le i (by omega)
  have hone := Paged.one_le_lastPageOf total size
  have hlast : i / size < Paged.lastPageOf total size := by
    rcases (show i / size = 0 ∨ 1 ≤ i / size by omega) with hfirst | hlater
    · omega
    · apply (Paged.lt_lastPageOf_iff htotal hsize hlater).mpr
      omega
  have hmem : Page.mk (i / size + 1) size ∈
      firstPages (Paged.lastPageOf total size).toNat size := by
    apply mem_firstPages.mpr
    refine ⟨rfl, show 1 ≤ i / size + 1 by omega, ?_⟩
    show i / size + 1 ≤ ((Paged.lastPageOf total size).toNat : Int)
    omega
  refine ⟨⟨i / size + 1, size⟩, ⟨hmem, ?_⟩, ?_⟩
  · exact (addressable_of_mem_firstPages htotal hmost hsize hmem).holds_iff.mpr rfl
  · rintro p ⟨hp, hholds⟩
    have hnumber := (addressable_of_mem_firstPages htotal hmost hsize hp).holds_iff.mp hholds
    obtain ⟨rfl, _, _⟩ := mem_firstPages.mp hp
    rw [← hnumber]

end Page

namespace Paged

/-- A page tells the last page, worked out in 64 bits, and the pages beside it, also once its items
are mapped. Who goes on as long as there is a next page sees all pages up to the last, and each row
is on exactly one of them. -/
theorem envelope_tells_pages {total size : Int} (htotal : 0 ≤ total) (hmost : total ≤ maxInt64)
    (hsize : 1 ≤ size) :
    lastPageOf64 total size = some (lastPageOf total size) ∧
    (∀ {α β : Type} (items : List α) (f : α → β) (number : Int), 1 ≤ number →
      (of items total ⟨number, size⟩).Tells total ⟨number, size⟩ ∧
      ((of items total ⟨number, size⟩).map f).Tells total ⟨number, size⟩) ∧
    (∀ {α : Type} (items : Page → List α) (pages : List Page),
      Page.Followed items total ⟨1, size⟩ pages ↔
        pages = Page.firstPages (lastPageOf total size).toNat size) ∧
    ∀ i, 0 ≤ i → i < total →
      ∃! p, p ∈ Page.firstPages (lastPageOf total size).toNat size ∧ p.Holds i := by
  refine ⟨lastPageOf64_eq htotal hmost size, fun items f number hnumber => ?_,
    fun items pages => Page.followed_iff, fun i => Page.existsUnique_holds htotal hmost hsize⟩
  have htells := tells_of items htotal hsize (show 1 ≤ (Page.mk number size).number from hnumber)
  exact ⟨htells, htells.map f⟩

/-- The most rows that can be counted, in pages of two, and twenty-five rows in pages of ten. -/
theorem envelope_tells_most_pages :
    lastPageOf64 maxInt64 2 = some 4611686018427387904 ∧
    (of [1, 2] maxInt64 ⟨4611686018427387903, 2⟩).hasNextPage = true ∧
    ((of [1] maxInt64 ⟨4611686018427387904, 2⟩).map Nat.succ).hasNextPage = false ∧
    Page.Followed (fun _ => [()]) 25 ⟨1, 10⟩ [⟨1, 10⟩, ⟨2, 10⟩, ⟨3, 10⟩] ∧
    ∃! p, p ∈ [Page.mk 1 10, ⟨2, 10⟩, ⟨3, 10⟩] ∧ p.Holds 20 := by
  obtain ⟨hlast, htells, _⟩ :=
    envelope_tells_pages (show 0 ≤ maxInt64 by decide) (Int.le_refl _) (show (1 : Int) ≤ 2 by decide)
  obtain ⟨_, _, hfollowed, hrows⟩ := envelope_tells_pages (show (0 : Int) ≤ 25 by decide)
    (show 25 ≤ maxInt64 by decide) (show (1 : Int) ≤ 10 by decide)
  have hnext := (htells [1, 2] Nat.succ 4611686018427387903 (by decide)).1.hasNextPage
  have hend := (htells [1] Nat.succ 4611686018427387904 (by decide)).2.hasNextPage
  refine ⟨hlast.trans (by decide), hnext.mpr (by decide), ?_, (hfollowed _ _).mpr (by decide),
    hrows 20 (by decide) (by decide)⟩
  apply Bool.eq_false_iff.mpr
  intro hless
  exact absurd (hend.mp hless) (by decide)

end Paged

end TableQuery
