import TableQuery.Proofs.KeptValues
import TableQuery.Proofs.OrderedRows
import TableQuery.Repository.Write

namespace TableQuery

namespace Schema

/-- What an upsert makes of the rows of one key: `old` had it before, the middle rows of the batch
have it, `now` have it after. One row is left, with the last values in the cells to update; its
other cells are as they were in the old row or, where there was none, come from the first row of
the batch, apart from a key that the first row does not bring. -/
def Settled (s : Schema) (update : List Nat) (old : List Row) : List Row → List Row → Prop
  | [], now => now = old
  | first :: rest, now => ∃ row, now = [row] ∧
      (∀ last ∈ (first :: rest).getLast?, ∀ i ∈ update, row.cell i = last.cell i) ∧
      (∀ stored ∈ old, ∀ i, i ∉ update → row.cell i = stored.cell i) ∧
      (old = [] → ∀ i, i ∉ update → i ≠ s.keyIndex ∨ first.cell i ≠ .null →
        row.cell i = first.cell i)

variable {s : Schema} {update : List Nat} {old middle now : List Row} {new : Row}

/-- The first row of a batch comes before all others: what these find is what it has left. -/
theorem Settled.cons {news : List Row} (hfirst : s.Settled update old [new] middle)
    (hrest : s.Settled update middle news now) : s.Settled update old (new :: news) now := by
  obtain ⟨row, rfl, hupdate, hstored, hnone⟩ := hfirst
  cases news with
  | nil =>
    have hnow : now = [row] := hrest
    exact ⟨row, hnow, hupdate, hstored, hnone⟩
  | cons next rest =>
    obtain ⟨last, rfl, hupdate', hstored', _⟩ := hrest
    have hkept : ∀ i, i ∉ update → last.cell i = row.cell i :=
      hstored' row List.mem_cons_self
    refine ⟨last, rfl, ?_, ?_, ?_⟩
    · rw [List.getLast?_cons_cons]
      exact hupdate'
    · intro stored hmem i hi
      rw [hkept i hi]
      exact hstored stored hmem i hi
    · intro hold i hi hbrought
      rw [hkept i hi]
      exact hnone hold i hi hbrought

/-- It does not matter in which order or how often the cells to update are listed. -/
theorem settled_congr {update' : List Nat} (h : ∀ i, i ∈ update ↔ i ∈ update') :
    s.Settled update old middle now ↔ s.Settled update' old middle now := by
  cases middle with
  | nil => exact Iff.rfl
  | cons first rest => simp only [Settled, h]

theorem length_changedRow (s : Schema) (row : Row) (changes : List (Nat × Datum)) :
    (s.changedRow row changes).length = row.length := by
  induction changes generalizing row with
  | nil => rfl
  | cons change changes ih => rw [changedRow_cons, ih, List.length_set]

/-- A row of a batch that may meet a stored one in the columns `ks`: it has values there, and its
cells to update are as their columns keep them. -/
structure Meets (s : Schema) (ks : List Nat) (update : List Nat) (new : Row) : Prop where
  key : ∀ k ∈ ks, new.cell k ≠ .null
  not_key : ∀ i ∈ update, i ≠ s.keyIndex
  lt : ∀ i ∈ update, i < s.cells.length
  kept : ∀ i ∈ update, s.storedAt i (new.cell i) = new.cell i

end Schema

namespace Table

open Schema (collides)

variable {t t' : Table} {ks : List Nat} {update : List Nat}

/-- No two rows have the same values in columns. -/
def Once (t : Table) (ks : List Nat) : Prop :=
  t.rows.Pairwise fun a b => collides ks a b = false

instance (t : Table) (ks : List Nat) : Decidable (t.Once ks) :=
  inferInstanceAs (Decidable (List.Pairwise _ _))

theorem once_iff : t.Once ks ↔ ∀ new, (t.rows.filter (collides ks new)).length ≤ 1 := by
  constructor
  · intro honce new
    have hpair : (t.rows.filter (collides ks new)).Pairwise fun a b => collides ks a b = false :=
      List.Pairwise.sublist List.filter_sublist honce
    have hmeet : ∀ row ∈ t.rows.filter (collides ks new), collides ks new row = true :=
      fun row hrow => (List.mem_filter.mp hrow).2
    match t.rows.filter (collides ks new), hpair, hmeet with
    | [], _, _ => exact Nat.zero_le 1
    | [_], _, _ => exact Nat.le_refl 1
    | a :: b :: _, hpair, hmeet =>
      -- rows that meet the same row meet each other
      have hb := hmeet b (List.mem_cons_of_mem _ List.mem_cons_self)
      rw [Schema.collides_congr (hmeet a List.mem_cons_self),
        (List.pairwise_cons.mp hpair).1 b List.mem_cons_self] at hb
      cases hb
  · intro hlength
    refine List.pairwise_iff_forall_sublist.mpr fun {a b} hsub => ?_
    cases hmeet : collides ks a b with
    | false => rfl
    | true =>
      have hself : collides ks a a = true := by
        rw [Schema.collides_congr hmeet]
        exact Schema.collides_symm hmeet
      have hboth := (hsub.filter (collides ks a)).length_le
      rw [List.filter_cons_of_pos hself, List.filter_cons_of_pos hmeet] at hboth
      have hone := hlength a
      simp only [List.filter_nil, List.length_cons, List.length_nil] at hboth
      omega

/-- What one row of a batch changes: the rows with its key, and no others. -/
structure Stepped (t t' : Table) (ks : List Nat) (update : List Nat) (new : Row) : Prop where
  schema : t'.schema = t.schema
  ordered : t'.Ordered
  others : ∀ q : Row → Bool, (∀ row, collides ks new row = true → q row = false) →
    t'.rows.filter q = t.rows.filter q
  settled : t.schema.Settled update (t.rows.filter (collides ks new)) [new]
    (t'.rows.filter (collides ks new))

theorem Stepped.filter_other {new other : Row} (h : t.Stepped t' ks update new)
    (hother : collides ks other new = false) :
    t'.rows.filter (collides ks other) = t.rows.filter (collides ks other) := by
  refine h.others _ fun row hrow => ?_
  cases hmeet : collides ks other row with
  | false => rfl
  | true =>
    rw [Schema.collides_congr hmeet, Schema.collides_symm hrow] at hother
    cases hother

theorem Stepped.once {new : Row} (h : t.Stepped t' ks update new) (honce : t.Once ks) :
    t'.Once ks := by
  refine once_iff.mpr fun other => ?_
  cases hmeet : collides ks other new with
  | true =>
    obtain ⟨row, hrow, _⟩ := h.settled
    rw [Schema.collides_congr hmeet, hrow]
    exact Nat.le_refl 1
  | false =>
    rw [h.filter_other hmeet]
    exact once_iff.mp honce other

/-- What an upsert of a batch makes of a table: the rows of each key are settled, whatever the key
of a row `new` in the columns `ks`, and rows that no row of the batch meets stay in their order. -/
structure Upserted (t t' : Table) (ks update : List Nat) (batch : List Row) : Prop where
  settled : ∀ new, t.schema.Settled update (t.rows.filter (collides ks new))
    (batch.filter (collides ks new)) (t'.rows.filter (collides ks new))
  others : t'.rows.filter (fun row => batch.all fun new => !collides ks new row) =
    t.rows.filter fun row => batch.all fun new => !collides ks new row

theorem Upserted.congr {update' : List Nat} {batch : List Row}
    (h : t.Upserted t' ks update batch) (hsame : ∀ i, i ∈ update ↔ i ∈ update') :
    t.Upserted t' ks update' batch :=
  ⟨fun new => (Schema.settled_congr hsame).mp (h.settled new), h.others⟩

/-- Rows without the keys of a batch are among the rows before exactly if they are afterwards. -/
theorem Upserted.mem_iff {batch : List Row} {row : Row} (h : t.Upserted t' ks update batch)
    (hnone : ∀ new ∈ batch, collides ks new row = false) : row ∈ t'.rows ↔ row ∈ t.rows := by
  have hothers : ∀ rows : List Row,
      row ∈ rows.filter (fun row => batch.all fun new => !collides ks new row) ↔ row ∈ rows := by
    intro rows
    rw [List.mem_filter, and_iff_left_iff_imp]
    intro _
    simpa using hnone
  rw [← hothers, h.others, hothers]

end Table

end TableQuery
