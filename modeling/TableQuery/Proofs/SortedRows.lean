import TableQuery.Proofs.OrderedRows
import TableQuery.Proofs.PlainProjection
import TableQuery.Proofs.TextBytes

namespace TableQuery

open Sql

section Lists

variable {α β : Type} {le : α → α → Bool} {R : α → α → Prop}

theorem insertSorted_map (f : β → α) (b : β) (bs : List β) :
    insertSorted le (f b) (bs.map f) = (insertSorted (fun c d => le (f c) (f d)) b bs).map f := by
  induction bs with
  | nil => rfl
  | cons c bs ih =>
    rw [List.map_cons, insertSorted, insertSorted, ih]
    split <;> simp

theorem sortedBy_map (f : β → α) (bs : List β) :
    sortedBy le (bs.map f) = (sortedBy (fun c d => le (f c) (f d)) bs).map f := by
  induction bs with
  | nil => rfl
  | cons b bs ih =>
    have hcons : sortedBy le ((b :: bs).map f) = insertSorted le (f b) (sortedBy le (bs.map f)) :=
      rfl
    rw [hcons, ih, insertSorted_map]
    rfl

theorem pairwise_sortedBy (htrans : ∀ {x y z}, R x y → R y z → R x z)
    (hplace : ∀ a b, (le a b = true → R a b) ∧ (le a b = false → R b a)) (as : List α) :
    (sortedBy le as).Pairwise R := by
  induction as with
  | nil => exact .nil
  | cons a as ih => exact pairwise_insertSorted htrans (fun b _ => hplace a b) ih

theorem orderBy_eq_compareLex (number : α → Nat) (as bs : List α) :
    orderBy number as bs = compare (as.map number) (bs.map number) := by
  induction as generalizing bs with
  | nil => cases bs <;> rfl
  | cons a as ih =>
    cases bs with
    | nil => rfl
    | cons b bs => rw [orderBy, ih, List.map_cons, List.map_cons, List.compare_cons_cons]

end Lists

namespace Datum

/-- Cells are ordered by rank, then by number, then by content. -/
theorem order_eq_compareLex : order = compareLex (compareOn fun d : Datum => d.sortKey.1)
    (compareLex (compareOn fun d => d.sortKey.2.1) (compareOn fun d => d.sortKey.2.2)) := by
  funext a b
  -- what is left are cells of two ranks, where nothing behind the ranks is looked at
  cases a <;> cases b <;>
    simp [order, compareLex, compareOn, sortKey, rank, units, orderBy_eq_compareLex,
      Text.compare_map_bytes] <;> rfl

instance : Std.TransCmp order := by
  rw [order_eq_compareLex]
  infer_instance

/-- A cell does not come behind another one. -/
def UpTo (a b : Datum) : Prop :=
  a.order b ≠ .gt

instance (a b : Datum) : Decidable (a.UpTo b) :=
  inferInstanceAs (Decidable (_ ≠ _))

variable {a b c : Datum}

theorem UpTo.trans (h : a.UpTo b) (h' : b.UpTo c) : a.UpTo c := by
  exact Ordering.ne_gt_iff_isLE.mpr (Std.TransCmp.isLE_trans (Ordering.ne_gt_iff_isLE.mp h)
    (Ordering.ne_gt_iff_isLE.mp h'))

theorem UpTo.total (h : ¬a.UpTo b) : b.UpTo a := by
  have hswap : b.order a = (a.order b).swap := Std.OrientedCmp.eq_swap
  rw [UpTo, hswap, not_not.mp h]
  decide

end Datum

/-- The same rows stand in the order of their cells in one column. -/
structure Row.Sorts (k : Nat) (rows sorted : List Row) : Prop where
  perm : sorted.Perm rows
  ordered : sorted.Pairwise fun a b => (a.cell k).UpTo (b.cell k)

namespace Store

theorem tupleLe_asc (cell : Tuple → Datum) (a b : Tuple) :
    tupleLe [(.asc, cell)] a b = true ↔ (cell a).UpTo (cell b) := by
  simp only [tupleLe, List.map_cons, List.map_nil, orderKeys, Datum.UpTo]
  cases (cell a).order (cell b) <;> simp

/-- Rows are sorted upwards by the cell that is read from each. -/
theorem sortedBy_rows {cell : Tuple → Datum} {k : Nat}
    (hcell : ∀ row : Row, cell [row] = row.cell k) (rows : List Row) :
    ∃ sorted, Row.Sorts k rows sorted ∧
      sortedBy (tupleLe [(.asc, cell)]) (rows.map fun row => [row]) =
        sorted.map fun row => [row] := by
  refine ⟨_, ⟨perm_sortedBy rows, ?_⟩, sortedBy_map (fun row => [row]) rows⟩
  refine pairwise_sortedBy (fun hab hbc => hab.trans hbc) (fun a b => ?_) rows
  have hle := tupleLe_asc cell [a] [b]
  rw [hcell, hcell] at hle
  refine ⟨hle.mp, fun hnot => Datum.UpTo.total fun hab => ?_⟩
  rw [hle.mpr hab] at hnot
  cases hnot

section

variable {store : Store} {t : Table} {name : String} {k : Nat} {shown : List (String × Origin)}
  {columns : List ResultColumn} {direction : Direction} {cell : Tuple → Datum}

/-- A sort key reads its own column of the table, unless a result is given its name. -/
theorem orderCell_own (hname : IsPlain name) (hindex : t.schema.index? name = some k)
    (hgiven : ∀ column ∈ columns, column.named = true → Text.sameName column.name name = true →
      column.origin = .cell ⟨0, k⟩)
    (h : orderCell store ⟨[(t.schema.name, t.schema)], shown⟩ columns ⟨name, direction⟩ = .ok cell)
    (row : Row) : cell [row] = row.cell k := by
  have hexpr : columnExpr name = .ok (.column none name) := by
    have hcolumn : reference? none name = some (.column none name) := reference?_plain hname
    unfold columnExpr
    rw [statementName_plain hname]
    simp only [bind, Except.bind, hcolumn]
  have hown : (t.schema.index? name).isSome := by
    rw [hindex]
    rfl
  unfold orderCell at h
  rw [hexpr] at h
  simp only [bind, Except.bind] at h
  split at h
  next column hfind =>
    cases h
    have hfound := List.find?_some hfind
    rw [Bool.and_eq_true] at hfound
    rw [hgiven column (List.mem_of_find?_eq_some hfind) hfound.1 hfound.2]
    rfl
  next =>
    split at h
    next => cases h
    next =>
      cases h
      have hlookup := Table.lookup_own none (by simp) hown shown [row]
      simp only [Expr.eval, hlookup, Table.cellOf, hindex]
      rfl

end

/-- What is selected by one sort key without a page is sorted by what the key reads. -/
theorem sorted_of_selected {store : Store} {s : Select} {p : Prepared} {tuples : List Tuple}
    {key : SortKey} (horder : s.order = [key]) (hlimit : s.limit = none) (hoffset : s.offset = none)
    (h : store.selected s p = .ok tuples) :
    ∃ cell, orderCell store p.scope p.columns key = .ok cell ∧
      tuples = sortedBy (tupleLe [(key.direction, cell)]) (p.tuples store) := by
  unfold selected at h
  rw [horder, hlimit, hoffset] at h
  obtain ⟨keys, hkeys, h⟩ := Except.of_bind_ok h
  obtain ⟨found, hfound, hkeys⟩ := Except.of_bind_ok hkeys
  obtain ⟨cell, hcell, hfound⟩ := Except.of_bind_ok hfound
  cases hfound
  cases hkeys
  dsimp only at h
  split at h
  next => cases h
  next =>
    cases h
    exact ⟨cell, hcell, rfl⟩

end Store

end TableQuery
