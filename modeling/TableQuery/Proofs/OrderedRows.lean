import Mathlib.Data.List.Pairwise
import TableQuery.Proofs.ChangedRow
import TableQuery.Proofs.KeyAgreement

namespace TableQuery

section Lists

variable {α : Type} {le : α → α → Bool} {R : α → α → Prop} {a : α} {as : List α} {q : α → Bool}

theorem filter_insertSorted_alone (h : q a = true) (hnone : as.filter q = []) :
    (insertSorted le a as).filter q = [a] := by
  induction as with
  | nil => simp [insertSorted, h]
  | cons b as ih =>
    have hb : q b = false := by
      simpa using List.filter_eq_nil_iff.mp hnone b List.mem_cons_self
    have hrest : as.filter q = [] := by
      rwa [List.filter_cons_of_neg (by simp [hb])] at hnone
    unfold insertSorted
    split
    next => rw [List.filter_cons_of_pos h, hnone]
    next => rw [List.filter_cons_of_neg (by simp [hb]), ih hrest]

theorem pairwise_insertSorted (htrans : ∀ {x y z}, R x y → R y z → R x z)
    (hplace : ∀ b ∈ as, (le a b = true → R a b) ∧ (le a b = false → R b a))
    (h : as.Pairwise R) : (insertSorted le a as).Pairwise R := by
  induction as with
  | nil => simp [insertSorted]
  | cons b as ih =>
    obtain ⟨hfirst, hrest⟩ := List.pairwise_cons.mp h
    unfold insertSorted
    split
    next hle =>
      have hab : R a b := (hplace b List.mem_cons_self).1 hle
      refine List.pairwise_cons.mpr ⟨fun c hc => ?_, h⟩
      rcases List.mem_cons.mp hc with rfl | hc
      · exact hab
      · exact htrans hab (hfirst c hc)
    next hle =>
      have hba : R b a := (hplace b List.mem_cons_self).2 (by simpa using hle)
      refine List.pairwise_cons.mpr ⟨fun c hc => ?_, ?_⟩
      · rcases mem_insertSorted.mp hc with rfl | hc
        · exact hba
        · exact hfirst c hc
      · exact ih (fun c hc => hplace c (List.mem_cons_of_mem _ hc)) hrest

/-- What takes the place of an element in the order stands where that element stood. -/
theorem insertSorted_erase [BEq α] [LawfulBEq α] [DecidableEq α] {old new : α}
    (hmem : old ∈ as) (h : as.Pairwise R) (hself : ¬ R old old) (hbehind : ∀ b ∈ as, R old b → le new b = true)
    (hbefore : ∀ b ∈ as, R b old → le new b = false) :
    insertSorted le new (as.erase old) = as.map fun b => if b = old then new else b := by
  induction as with
  | nil => cases hmem
  | cons b as ih =>
    obtain ⟨hfirst, hrest⟩ := List.pairwise_cons.mp h
    by_cases hb : b = old
    · subst hb
      have hsame : (as.map fun c => if c = b then new else c) = as := by
        refine (List.map_congr_left fun c hc => ?_).trans (List.map_id _)
        have hne : c ≠ b := fun heq => hself (heq ▸ hfirst c hc)
        rw [if_neg hne, id]
      rw [List.erase_cons_head, List.map_cons, hsame, if_pos rfl]
      cases as with
      | nil => rfl
      | cons c as =>
        have hle : le new c = true :=
          hbehind c (List.mem_cons_of_mem _ List.mem_cons_self) (hfirst c List.mem_cons_self)
        rw [insertSorted, if_pos hle]
    · have hold : old ∈ as := (List.mem_cons.mp hmem).resolve_left (Ne.symm hb)
      have hle : le new b = false := hbefore b List.mem_cons_self (hfirst old hold)
      rw [List.erase_cons_tail (by simpa using hb), insertSorted, if_neg (by simp [hle]),
        List.map_cons, if_neg hb, ih hold hrest
          (fun c hc => hbehind c (List.mem_cons_of_mem _ hc))
          fun c hc => hbefore c (List.mem_cons_of_mem _ hc)]

end Lists

namespace Schema

variable {ks : List Nat} {k : Nat} {a b c : Row}

theorem collides_iff : collides ks a b = true ↔ ∀ k ∈ ks,
    a.cell k ≠ .null ∧ b.cell k ≠ .null ∧ (a.cell k).sortKey = (b.cell k).sortKey := by
  simp [collides, Datum.order_eq_iff, Datum.isNull_eq_false, and_assoc]

theorem collides_one_iff : collides [k] a b = true ↔
    a.cell k ≠ .null ∧ b.cell k ≠ .null ∧ (a.cell k).sortKey = (b.cell k).sortKey := by
  simp [collides_iff]

theorem collides_symm (h : collides ks a b = true) : collides ks b a = true := by
  refine collides_iff.mpr fun k hk => ?_
  obtain ⟨ha, hb, hsame⟩ := collides_iff.mp h k hk
  exact ⟨hb, ha, hsame.symm⟩

/-- Rows that collide collide with the same rows. -/
theorem collides_congr (h : collides ks a b = true) : collides ks a = collides ks b := by
  funext c
  rw [Bool.eq_iff_iff, collides_iff, collides_iff]
  refine forall₂_congr fun k hk => ?_
  obtain ⟨ha, hb, hsame⟩ := collides_iff.mp h k hk
  rw [hsame]
  simp [ha, hb]

/-- The key of the rows is one of the cells, and it is looked at when a row is tested. -/
structure Keyed (s : Schema) : Prop where
  lt : s.keyIndex < s.cells.length
  unique : ∃ unique ∈ s.uniques, unique.columns.mapM s.index? = some [s.keyIndex]

instance (s : Schema) : Decidable s.Keyed :=
  decidable_of_iff (_ ∧ _) ⟨fun h => ⟨h.1, h.2⟩, fun h => ⟨h.lt, h.unique⟩⟩

theorem of_checkUniques {s : Schema} {others : List Row} {row : Row} {uniques : List Unique}
    (h : s.checkUniques others row uniques = .ok ()) {unique : Unique} (hmem : unique ∈ uniques)
    (hks : unique.columns.mapM s.index? = some ks) :
    ∀ other ∈ others, collides ks row other = false := by
  induction uniques with
  | nil => cases hmem
  | cons first rest ih =>
    unfold checkUniques at h
    rcases List.mem_cons.mp hmem with rfl | hmem
    · rw [hks] at h
      dsimp only at h
      split at h
      next => cases h
      next hnone => simpa using hnone
    · split at h
      next => exact ih h hmem
      next =>
        split at h
        next => cases h
        next => exact ih h hmem

end Schema

/-- One row comes before another by the integers in a cell. -/
def Row.Before (k : Nat) (a b : Row) : Prop :=
  ∃ m n : Int, a.cell k = .int m ∧ b.cell k = .int n ∧ m < n

namespace Row

variable {k : Nat} {a b c : Row}

instance (d : Datum) : Decidable (∃ n, d = .int n) :=
  match d with
  | .int n => isTrue ⟨n, rfl⟩
  | .null | .real _ | .text _ | .garbled _ | .blob _ => isFalse (by simp)

instance (k : Nat) (a b : Row) : Decidable (Before k a b) :=
  match ha : a.cell k, hb : b.cell k with
  | .int m, .int n => decidable_of_iff (m < n) (by simp [Before, ha, hb])
  | .int _, .null | .int _, .real _ | .int _, .text _ | .int _, .garbled _ | .int _, .blob _ =>
    isFalse (by simp [Before, hb])
  | .null, _ | .real _, _ | .text _, _ | .garbled _, _ | .blob _, _ =>
    isFalse (by simp [Before, ha])

theorem Before.trans (h : Before k a b) (h' : Before k b c) : Before k a c := by
  obtain ⟨l, m, hl, hm, hlt⟩ := h
  obtain ⟨m', n, hm', hn, hlt'⟩ := h'
  rw [hm] at hm'
  cases hm'
  exact ⟨l, n, hl, hn, by omega⟩

theorem Before.irrefl (a : Row) : ¬ Before k a a := by
  rintro ⟨m, n, hm, hn, hlt⟩
  rw [hm] at hn
  cases hn
  omega

theorem rowLe_iff {m n : Int} (ha : a.cell k = .int m) (hb : b.cell k = .int n) :
    Table.rowLe k a b = true ↔ m ≤ n := by
  rw [Table.rowLe, ha, hb, Datum.order_int, decide_eq_true_iff, Ne, Int.compare_eq_gt, Int.not_lt]

end Row

namespace Table

/-- A table as writes leave it: rows of one width, in the strict order of their integer keys. -/
structure Ordered (t : Table) : Prop where
  schema : t.schema.Keyed
  width : ∀ row ∈ t.rows, row.length = t.schema.cells.length
  keyed : ∀ row ∈ t.rows, ∃ n, row.cell t.schema.keyIndex = .int n
  sorted : t.rows.Pairwise (Row.Before t.schema.keyIndex)

instance (t : Table) : Decidable t.Ordered :=
  decidable_of_iff (_ ∧ _ ∧ _ ∧ _)
    ⟨fun h => ⟨h.1, h.2.1, h.2.2.1, h.2.2.2⟩, fun h => ⟨h.schema, h.width, h.keyed, h.sorted⟩⟩

variable {t t' : Table}

theorem Ordered.wide (h : t.Ordered) {row : Row} (hmem : row ∈ t.rows) :
    t.schema.columns.length ≤ row.length := by
  rw [h.width row hmem]
  exact t.schema.length_columns_le

/-- A row whose key no row has is placed by its key. -/
theorem Ordered.place (h : t.Ordered) {row : Row} {n : Int}
    (hwidth : row.length = t.schema.cells.length) (hkey : row.cell t.schema.keyIndex = .int n)
    (hnew : ∀ other ∈ t.rows, Schema.collides [t.schema.keyIndex] row other = false) :
    Ordered { t with rows := t.place t.rows row } where
  schema := h.schema
  width other hother := by
    rcases mem_place.mp hother with rfl | hother
    · exact hwidth
    · exact h.width other hother
  keyed other hother := by
    rcases mem_place.mp hother with rfl | hother
    · exact ⟨n, hkey⟩
    · exact h.keyed other hother
  sorted := by
    refine pairwise_insertSorted (fun hab hbc => hab.trans hbc) (fun other hother => ?_) h.sorted
    obtain ⟨m, hm⟩ := h.keyed other hother
    have hne : n ≠ m := by
      rintro rfl
      have hmeet : Schema.collides [t.schema.keyIndex] row other = true := by
        simp [Schema.collides_iff, hkey, hm]
      rw [hnew other hother] at hmeet
      cases hmeet
    have hle := Row.rowLe_iff hkey hm
    constructor
    · intro hplace
      have hnm := hle.mp hplace
      exact ⟨n, m, hkey, hm, by omega⟩
    · intro hplace
      have hnm : ¬ n ≤ m := fun hnm => by
        rw [hle.mpr hnm] at hplace
        cases hplace
      exact ⟨m, n, hm, hkey, by omega⟩

/-- A row that gives way to one with its key is exchanged where it stands. -/
theorem Ordered.replaceRow_rows (h : t.Ordered) {old new : Row} (hmem : old ∈ t.rows)
    (hkey : new.cell t.schema.keyIndex = old.cell t.schema.keyIndex) :
    (t.replaceRow old new).rows = t.rows.map fun row => if row = old then new else row := by
  obtain ⟨n, hn⟩ := h.keyed old hmem
  have hnew := hkey.trans hn
  refine insertSorted_erase hmem h.sorted (Row.Before.irrefl old) ?_ ?_
  · rintro other hother ⟨l, m, hl, hm, hlt⟩
    rw [hn] at hl
    cases hl
    exact (Row.rowLe_iff hnew hm).mpr (by omega)
  · rintro other hother ⟨l, m, hl, hm, hlt⟩
    rw [hn] at hm
    cases hm
    have hle : ¬ Table.rowLe t.schema.keyIndex new other = true := fun hle => by
      have := (Row.rowLe_iff hnew hl).mp hle
      omega
    simpa using hle

theorem Ordered.replaceRow (h : t.Ordered) {old new : Row} (hmem : old ∈ t.rows)
    (hwidth : new.length = t.schema.cells.length)
    (hkey : new.cell t.schema.keyIndex = old.cell t.schema.keyIndex) :
    (t.replaceRow old new).Ordered := by
  have hrows := h.replaceRow_rows hmem hkey
  have hkeys : ∀ row : Row, Row.cell (if row = old then new else row) t.schema.keyIndex =
      row.cell t.schema.keyIndex := by
    intro row
    split
    next hrow => rw [hkey, hrow]
    next => rfl
  refine ⟨h.schema, ?_, ?_, ?_⟩
  · rw [hrows]
    refine List.forall_mem_map.mpr fun row hrow => ?_
    split
    next => exact hwidth
    next => exact h.width row hrow
  · rw [hrows]
    refine List.forall_mem_map.mpr fun row hrow => ?_
    obtain ⟨n, hn⟩ := h.keyed row hrow
    exact ⟨n, (hkeys row).trans hn⟩
  · rw [hrows, List.pairwise_map]
    refine h.sorted.imp fun {a b} hab => ?_
    obtain ⟨m, n, hm, hn, hlt⟩ := hab
    exact ⟨m, n, (hkeys a).trans hm, (hkeys b).trans hn, hlt⟩

theorem of_changeRow {row changed : Row} {changes : List (Nat × Datum)}
    (h : t.changeRow row changes = .ok (t', changed)) :
    changed = t.schema.changedRow row changes ∧ t' = t.replaceRow row changed := by
  obtain ⟨_, _, h⟩ := Except.of_bind_ok h
  obtain ⟨_, _, h⟩ := Except.of_bind_ok h
  obtain ⟨_, _, h⟩ := Except.of_bind_ok h
  cases h
  exact ⟨rfl, rfl⟩

/-- The key that a row gets is its own or a new one, and the rest of the row stays. -/
theorem keyed_row {row whole : Row} (h : t.keyed row = .ok (t', whole))
    (hlt : t.schema.keyIndex < row.length) :
    whole.length = row.length ∧ (∃ n, whole.cell t.schema.keyIndex = .int n) ∧
      ∀ i, i ≠ t.schema.keyIndex ∨ row.cell i ≠ .null → whole.cell i = row.cell i := by
  unfold keyed at h
  split at h
  next hnull =>
    obtain ⟨key, _, h⟩ := Except.of_bind_ok h
    cases h
    refine ⟨List.length_set, ⟨key, Schema.cell_set_self hlt _⟩, ?_⟩
    rintro i (hi | hi)
    · exact Schema.cell_set_of_ne hi.symm _ _
    · refine Schema.cell_set_of_ne ?_ _ _
      rintro rfl
      exact hi hnull
  next key hkey =>
    cases h
    exact ⟨rfl, ⟨key, hkey⟩, fun _ _ => rfl⟩
  next => cases h

theorem of_nextKey {n : Int} (h : t.nextKey = .ok n) :
    t.greatestKey < n ∧ (t.schema.counted.isSome = true → t.lastKey < n) ∧ n ≤ maxInt64 := by
  unfold nextKey at h
  dsimp only at h
  split at h
  next =>
    split at h
    next hlast =>
      cases h
      exact ⟨by omega, fun _ => by omega, by omega⟩
    next => cases h
  next hcounted =>
    split at h
    next hlast =>
      cases h
      exact ⟨by omega, fun h => absurd h hcounted, by omega⟩
    next => cases h

/-- No key is greater than that of the last row. -/
theorem Ordered.le_greatestKey (h : t.Ordered) {row : Row} (hmem : row ∈ t.rows) :
    ∃ n, row.cell t.schema.keyIndex = .int n ∧ n ≤ t.greatestKey := by
  obtain ⟨n, hn⟩ := h.keyed row hmem
  refine ⟨n, hn, ?_⟩
  have hne : t.rows ≠ [] := List.ne_nil_of_mem hmem
  obtain ⟨m, hm⟩ := h.keyed _ (List.getLast_mem hne)
  have hgreatest : t.greatestKey = m := by
    unfold greatestKey
    rw [List.getLast?_eq_some_getLast hne]
    dsimp only
    rw [hm]
  have hsorted : t.rows.Pairwise fun a b => ∀ k l : Int,
      a.cell t.schema.keyIndex = .int k → b.cell t.schema.keyIndex = .int l → k ≤ l := by
    refine h.sorted.imp fun {a b} hab k l hk hl => ?_
    obtain ⟨k', l', hk', hl', hlt⟩ := hab
    rw [hk] at hk'
    rw [hl] at hl'
    cases hk'
    cases hl'
    exact Int.le_of_lt hlt
  have hlast := hsorted.rel_getLast_of_rel_getLast_getLast hmem fun k l hk hl => by
    rw [hk] at hl
    cases hl
    exact Int.le_refl k
  rw [hgreatest]
  exact hlast n m hn hm

/-- A row without a key gets one that is new and, of a table that counts, greater than any given. -/
theorem keyed_of_null {row whole : Row} (h : t.keyed row = .ok (t', whole))
    (hnull : row.cell t.schema.keyIndex = .null) (hlt : t.schema.keyIndex < row.length) :
    ∃ n, t.nextKey = .ok n ∧ whole.cell t.schema.keyIndex = .int n := by
  unfold keyed at h
  rw [hnull] at h
  obtain ⟨n, hn, h⟩ := Except.of_bind_ok h
  cases h
  exact ⟨n, hn, Schema.cell_set_self hlt _⟩

/-- A new row with its key meets a stored one, for which it is dropped or which it changes, or it
is placed by its key. -/
theorem addRow_cases {given : List (Nat × Datum)} {meeting : Option Meeting} {written : Written}
    (h : t.addRow given meeting = .ok (t', written)) :
    ∃ noted row, t.keyed (t.schema.newRow given) = .ok (noted, row) ∧
      ((∃ m ∈ meeting, ∃ stored, t.rows.find? (Schema.collides m.columns row) = some stored ∧
        ((m.update = [] ∧ t' = noted ∧ written = .dropped) ∨
          m.update ≠ [] ∧ ∃ changed, written = .changed changed ∧
            noted.changeRow stored (m.update.map fun i => (i, row.cell i)) =
              .ok (t', changed))) ∨
      ((∀ m ∈ meeting, t.rows.find? (Schema.collides m.columns row) = none) ∧
        t.schema.checkUniques t.rows row t.schema.uniques = .ok () ∧
        t' = { noted with rows := t.place t.rows row } ∧ written = .added row)) := by
  unfold addRow at h
  obtain ⟨⟨noted, row⟩, hkeyed, h⟩ := Except.of_bind_ok h
  obtain ⟨hschema, hrows⟩ := of_keyed hkeyed
  obtain ⟨_, _, h⟩ := Except.of_bind_ok h
  refine ⟨noted, row, hkeyed, ?_⟩
  split at h
  next m stored hfound =>
    obtain ⟨m', hm, hfound⟩ := Option.bind_eq_some_iff.mp hfound
    obtain ⟨stored', hfound, hsame⟩ := Option.map_eq_some_iff.mp hfound
    cases hsame
    refine .inl ⟨m, hm, stored, hrows ▸ hfound, ?_⟩
    split at h
    next hempty =>
      cases h
      exact .inl ⟨List.isEmpty_iff.mp hempty, rfl, rfl⟩
    next hempty =>
      obtain ⟨⟨changed, newRow⟩, hchange, h⟩ := Except.of_bind_ok h
      cases h
      exact .inr ⟨fun hnil => hempty (by simp [hnil]), newRow, rfl, hchange⟩
  next hnone =>
    obtain ⟨_, hunique, h⟩ := Except.of_bind_ok h
    cases h
    rw [hschema, hrows] at hunique
    refine .inr ⟨fun m hm => ?_, hunique, ?_, rfl⟩
    · rw [Option.mem_def.mp hm, hrows] at hnone
      simpa using hnone
    · simp only [Table.place, hschema, hrows]

theorem length_newRow (s : Schema) (given : List (Nat × Datum)) :
    (s.newRow given).length = s.cells.length := by
  simp [Schema.newRow]

theorem schema_of_addRow {given : List (Nat × Datum)} {meeting : Option Meeting}
    {written : Written} (h : t.addRow given meeting = .ok (t', written)) :
    t'.schema = t.schema := by
  obtain ⟨noted, row, hkeyed, hcases⟩ := addRow_cases h
  have hschema := (of_keyed hkeyed).1
  rcases hcases with ⟨_, _, _, _, hmet⟩ | ⟨_, _, rfl, _⟩
  · rcases hmet with ⟨_, rfl, _⟩ | ⟨_, changed, _, hchange⟩
    · exact hschema
    · obtain ⟨_, rfl⟩ := of_changeRow hchange
      exact hschema
  · exact hschema

theorem Ordered.congr (h : t.Ordered) (hschema : t'.schema = t.schema)
    (hrows : t'.rows = t.rows) : t'.Ordered := by
  refine ⟨hschema ▸ h.schema, ?_, ?_, ?_⟩
  · rw [hschema, hrows]
    exact h.width
  · rw [hschema, hrows]
    exact h.keyed
  · rw [hschema, hrows]
    exact h.sorted

/-- A tested row with its key finds its place. -/
theorem Ordered.added (hordered : t.Ordered) {given : List (Nat × Datum)} {noted : Table}
    {row : Row} (hkeyed : t.keyed (t.schema.newRow given) = .ok (noted, row))
    (hunique : t.schema.checkUniques t.rows row t.schema.uniques = .ok ()) :
    Ordered { noted with rows := t.place t.rows row } := by
  have hlength := length_newRow t.schema given
  obtain ⟨hwidth, ⟨n, hn⟩, _⟩ := keyed_row hkeyed (hlength ▸ hordered.schema.lt)
  obtain ⟨unique, hmem, hindex⟩ := hordered.schema.unique
  have hplaced := hordered.place (hwidth.trans hlength) hn
    (Schema.of_checkUniques hunique hmem hindex)
  exact hplaced.congr (of_keyed hkeyed).1 rfl

/-- Only where there is something to update does a new row change another. -/
theorem update_of_addRow {given : List (Nat × Datum)} {meeting : Option Meeting} {row : Row}
    (h : t.addRow given meeting = .ok (t', .changed row)) : ∃ m ∈ meeting, m.update ≠ [] := by
  obtain ⟨_, _, _, ⟨m, hm, _, _, hdone⟩ | ⟨_, _, _, hadded⟩⟩ := addRow_cases h
  · rcases hdone with ⟨_, _, hdropped⟩ | ⟨hupdate, _⟩
    · cases hdropped
    · exact ⟨m, hm, hupdate⟩
  · cases hadded

/-- The table with the rows of a batch, one after the other. -/
def addRows (t : Table) (batch : List (List (Nat × Datum))) (meeting : Option Meeting) :
    Except StoreFault Table :=
  batch.foldlM (fun t given => (t.addRow given meeting).map Prod.fst) t

theorem of_addRows_cons {given : List (Nat × Datum)} {batch : List (List (Nat × Datum))}
    {meeting : Option Meeting} (h : t.addRows (given :: batch) meeting = .ok t') :
    ∃ next written, t.addRow given meeting = .ok (next, written) ∧
      next.addRows batch meeting = .ok t' := by
  unfold addRows at h
  rw [List.foldlM_cons] at h
  obtain ⟨next, hnext, h⟩ := Except.of_bind_ok h
  obtain ⟨⟨first, written⟩, hadd, rfl⟩ := Except.of_map_ok hnext
  exact ⟨first, written, hadd, h⟩

end Table

/-- An update changes the one row that has its key. The changed row takes its place and comes back,
and the change is logged. -/
theorem Store.of_update_alone {store store' : Store} {u : Update} {t : Table} {row : Row}
    {result : WriteResult} (ht : store.table u.table = .ok t) (hkey : Sql.IsPlain u.key)
    (hown : (t.schema.index? u.key).isSome) (hv : u.keyValue ≠ .null)
    (hrow : t.rowsWith u.key u.keyValue = [row]) (h : store.update u = .ok (store', result)) :
    ∃ changes between, t.schema.assigned u.assignments = .ok changes ∧
      result.rows = [t.readRow (t.schema.changedRow row changes)] ∧
      (store.setTable (t.replaceRow row (t.schema.changedRow row changes))).logChange t.schema.name
        t.schema (t.schema.changedRow row changes) = .ok between ∧
      ∃ schemas, store' = between.noteWritten schemas := by
  obtain ⟨changes, between, hchanges, hchanged, hnoted⟩ := of_update_one ht hkey hown hv hrow h
  obtain ⟨next, changed, hchange, hlog, rfl⟩ := of_updateRow ht hchanged
  obtain ⟨rfl, rfl⟩ := Table.of_changeRow hchange
  exact ⟨changes, between, hchanges, rfl, hlog, hnoted⟩

end TableQuery
