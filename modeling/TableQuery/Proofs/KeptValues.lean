import TableQuery.Proofs.IntegerDoubles
import TableQuery.Store.Write

namespace TableQuery

/-- A text, an integer that a double can stand for, or null. -/
def Value.Exact : Value → Prop
  | .text _ => True
  | .int n => n.natAbs ≤ twoTo 53
  | .null => True
  | _ => False

/-- Reading a cell of a column tells whether the column would make that cell of a value. -/
def Datum.Tells (kind : Option Affinity) (d : Datum) (v : Value) : Prop :=
  match d, v with
  | .int m, .int n => isInt64 m = true ∧ (m.natAbs ≤ twoTo 53 ∨ n.natAbs < twoTo 53)
  | .real _, .int _ => kind.isSome ∧ kind ≠ some .any
  | .real x, .null => x.finite = true
  | .garbled _, .null => False
  | .blob _, .text _ => False
  | _, _ => True

namespace Value

theorem looselyEq_null {v : Value} (h : looselyEq .null v = true) : v = .null := by
  cases v <;> simp_all [looselyEq, number?]

theorem looselyEq_text {s : String} {v : Value} (h : looselyEq (.text s) v = true) :
    v = .text s := by
  cases v <;> simp_all [looselyEq, number?]

theorem not_looselyEq_text {v : Value} {x : Double} (h : v.number? = some x) (s : String) :
    v.looselyEq (.text s) = false := by
  cases v <;> simp_all [looselyEq, number?]

theorem not_looselyEq_null {v : Value} {x : Double} (h : v.number? = some x) :
    v.looselyEq .null = false := by
  cases v <;> simp_all [looselyEq, number?]

theorem units_of_looselyEq {v w : Value} {x y : Double} (hv : v.number? = some x)
    (hw : w.number? = some y) (h : v.looselyEq w = true) : x.units = y.units := by
  unfold looselyEq at h
  rw [hv, hw] at h
  simp only [Double.sameNumber, Bool.and_eq_true, decide_eq_true_eq] at h
  exact h.2

end Value

/-- What is no integer, or an integer of 64 bits. -/
def Datum.Fits (d : Datum) : Prop :=
  ∀ n, d = .int n → isInt64 n = true

theorem Record.isInt64_of_value {r : Record} {column : String} {n : Int}
    (h : r.value column = .int n) : isInt64 n = true := by
  have hjson : ∀ j : Json, Value.ofJson j = .int n → isInt64 n = true := by
    intro j hj
    cases j with
    | int m =>
      rw [Value.ofJson] at hj
      split at hj
      next hm =>
        cases hj
        exact hm
      next => cases hj
    | _ => cases hj
  unfold Record.value at h
  split at h
  next j _ => exact hjson j h
  next => cases h

/-- What a record holds fits, as it was read. -/
theorem Record.value_fits (r : Record) (column : String) :
    (Datum.ofValue (r.value column)).Fits := by
  intro n hn
  cases hvalue : r.value column with
  | int m =>
    rw [hvalue] at hn
    cases hn
    exact isInt64_of_value hvalue
  | bool b =>
    rw [hvalue] at hn
    cases hn
    cases b <;> decide
  | _ =>
    rw [hvalue] at hn
    cases hn

theorem Value.Exact.fits {v : Value} (h : v.Exact) : (Datum.ofValue v).Fits := by
  intro n hn
  cases v with
  | int m =>
    cases hn
    have h53 : twoTo 53 = 9007199254740992 := rfl
    have hleast : minInt64 = -9223372036854775808 := rfl
    have hgreatest : maxInt64 = 9223372036854775807 := rfl
    have hsmall : n.natAbs ≤ twoTo 53 := h
    apply isInt64_iff.mpr
    omega
  | bool b => exact h.elim
  | _ => cases hn

theorem Datum.leadingNumber?_cases {cs rest : List Char} {d : Datum}
    (h : leadingNumber? cs = some (d, rest)) :
    (∃ n, d = .int n ∧ isInt64 n = true) ∨ ∃ x, d = .real x := by
  unfold leadingNumber? at h
  dsimp only at h
  repeat' split at h
  all_goals first
    | cases h; exact .inr ⟨_, rfl⟩
    | cases h; exact .inl ⟨_, rfl, by simp_all⟩
    | cases h

theorem Datum.number?_cases {s : String} {d : Datum} (h : Datum.number? s = some d) :
    (∃ n, d = .int n ∧ isInt64 n = true) ∨ ∃ x, d = .real x := by
  unfold number? at h
  split at h
  next hfound =>
    split at h
    next =>
      cases h
      exact leadingNumber?_cases hfound
    next => cases h
  next => cases h

namespace Double

theorem ofInt_zero_of_units {n : Int} (h : isInt64 n = true) (hnull : (ofInt n).units = 0) :
    ofInt n = zero := by
  have hunits : (ofInt 0).units = 0 := by decide +kernel
  have hzero : n = 0 :=
    eq_of_units_ofInt h (by decide) (.inr (by decide)) (hnull.trans hunits.symm)
  rw [hzero]
  decide

end Double

namespace Affinity

theorem numberOfText_cases {d : Datum} (h : d.Fits) :
    (∃ n, numberOfText d = .int n ∧ isInt64 n = true) ∨ (∃ x, numberOfText d = .real x) ∨
      (numberOfText d = d ∧ ∀ a : Affinity, a ≠ text → a.store d = d) := by
  cases d with
  | int n => exact .inl ⟨n, rfl, h n rfl⟩
  | real x => exact .inr (.inl ⟨x, rfl⟩)
  | null =>
    refine .inr (.inr ⟨rfl, fun a _ => ?_⟩)
    cases a <;> rfl
  | garbled t =>
    refine .inr (.inr ⟨rfl, fun a _ => ?_⟩)
    cases a <;> rfl
  | blob bytes =>
    refine .inr (.inr ⟨rfl, fun a _ => ?_⟩)
    cases a <;> rfl
  | text s =>
    cases hnumber : Datum.number? s with
    | none =>
      have hkept : numberOfText (.text s) = .text s := by
        simp [numberOfText, hnumber]
      refine .inr (.inr ⟨hkept, fun a ha => ?_⟩)
      cases a with
      | text => exact absurd rfl ha
      | any => rfl
      | _ => simp only [store, hkept]
    | some d =>
      have hmade : numberOfText (.text s) = d := by
        simp [numberOfText, hnumber]
      rw [hmade]
      rcases Datum.number?_cases hnumber with ⟨n, rfl, hn⟩ | ⟨x, rfl⟩
      · exact .inl ⟨n, rfl, hn⟩
      · exact .inr (.inl ⟨x, rfl⟩)

theorem store_store (a : Affinity) {d : Datum} (h : d.Fits) : a.store (a.store d) = a.store d := by
  cases a with
  | any => rfl
  | text => cases d <;> rfl
  | integer =>
    rcases numberOfText_cases h with ⟨n, hn, _⟩ | ⟨x, hx⟩ | ⟨_, hkept⟩
    · have hstore : store integer d = .int n := by
        simp only [store, hn]
      rw [hstore]
      rfl
    · have hstore : store integer d = wholeNumber x := by
        simp only [store, hx]
      have hwhole : wholeNumber x = .real x ∨ ∃ n, wholeNumber x = .int n := by
        unfold wholeNumber
        split
        next => split <;> simp
        next => exact .inl rfl
      rw [hstore]
      rcases hwhole with hreal | ⟨n, hint⟩
      · rw [hreal]
        exact hreal
      · rw [hint]
        rfl
    · rw [hkept integer (by simp), hkept integer (by simp)]
  -- an integer becomes its double, and both zeros become the one zero
  | real =>
    rcases numberOfText_cases h with ⟨n, hn, hfits⟩ | ⟨x, hx⟩ | ⟨_, hkept⟩
    · have hstore : store real d = .real (Double.ofInt n) := by
        simp only [store, hn]
      rw [hstore]
      by_cases hnull : (Double.ofInt n).units = 0
      · rw [Double.ofInt_zero_of_units hfits hnull]
        rfl
      · simp [store, numberOfText, hnull]
    · have hstore : store real d = .real (if x.units = 0 then .zero else x) := by
        simp only [store, hx]
      rw [hstore]
      by_cases hnull : x.units = 0
      · rw [if_pos hnull]
        rfl
      · simp [store, numberOfText, hnull]
    · rw [hkept real (by simp), hkept real (by simp)]

end Affinity

theorem Affinity.store_fits (a : Affinity) {d : Datum} (h : d.Fits) : (a.store d).Fits := by
  have hwhole : ∀ x, (wholeNumber x).Fits := by
    intro x n hn
    unfold wholeNumber at hn
    split at hn
    next m _ =>
      split at hn
      next hbetween =>
        cases hn
        simp only [Bool.and_eq_true, decide_eq_true_eq] at hbetween
        rw [isInt64, Bool.and_eq_true, decide_eq_true_iff, decide_eq_true_iff]
        omega
      next => cases hn
    next => cases hn
  cases a with
  | any => exact h
  | text =>
    cases d with
    | int n => exact fun m hm => by cases hm
    | real x => exact fun m hm => by cases hm
    | _ => exact h
  | integer =>
    rcases numberOfText_cases h with ⟨n, hn, hfits⟩ | ⟨x, hx⟩ | ⟨_, hkept⟩
    · intro m hm
      simp only [store, hn] at hm
      cases hm
      exact hfits
    · intro m hm
      simp only [store, hx] at hm
      exact hwhole x m hm
    · rw [hkept integer (by simp)]
      exact h
  | real =>
    rcases numberOfText_cases h with ⟨n, hn, _⟩ | ⟨x, hx⟩ | ⟨_, hkept⟩
    · intro m hm
      simp only [store, hn] at hm
      cases hm
    · intro m hm
      simp only [store, hx] at hm
      cases hm
    · rw [hkept real (by simp)]
      exact h

namespace Datum

/-- What is neither bytes nor unreadable is bound again as it was read. -/
theorem ofValue_ofJson {d : Datum} (hfits : d.Fits) (hbytes : ∀ bytes, d ≠ .blob bytes)
    (hread : (Value.ofJson d.toJson).isNull = false) : ofValue (Value.ofJson d.toJson) = d := by
  cases d with
  | null => cases hread
  | int n => simp [toJson, Value.ofJson, hfits n rfl, ofValue]
  | real x =>
    cases hfinite : x.finite with
    | true => simp [toJson, Value.ofJson, hfinite, ofValue]
    | false =>
      simp only [toJson, hfinite] at hread
      cases hread
  | text s => rfl
  | garbled t => cases hread
  | blob bytes => exact absurd rfl (hbytes bytes)

end Datum

theorem Schema.storedAt_storedAt (s : Schema) (i : Nat) {d : Datum} (h : d.Fits) :
    s.storedAt i (s.storedAt i d) = s.storedAt i d := by
  unfold storedAt
  cases s.cells[i]? with
  | none => rfl
  | some column => exact column.affinity.store_store h

/-- A double that a column keeps and that is the number of an integer is what the column makes of
the integer. -/
theorem Affinity.store_int_of_real {a : Affinity} {x : Double} {n : Int}
    (hkept : a.store (.real x) = .real x) (ha : a ≠ .any) (hn : n.natAbs ≤ twoTo 53)
    (hx : x.finite = true) (h : x.units = (Double.ofInt n).units) :
    a.store (.int n) = .real x := by
  have hunits := h.trans (Double.units_ofInt_small hn)
  cases a with
  | any => exact absurd rfl ha
  | text => cases hkept
  | real =>
    have hzero : (if x.units = 0 then Double.zero else x) = x := Datum.real.inj hkept
    have hofInt : Double.ofInt n = x := by
      by_cases hnull : x.units = 0
      · have hpos : Double.unitsPerOne ≠ 0 := by decide +kernel
        rw [hnull] at hunits
        have hn0 : n = 0 := (Int.mul_eq_zero.mp hunits.symm).resolve_right hpos
        rw [if_pos hnull] at hzero
        rw [hn0, ← hzero]
        decide
      · exact (Double.eq_of_units h hnull).symm
    exact congrArg Datum.real hofInt
  | integer =>
    have hpos : Double.unitsPerOne ≠ 0 := by decide +kernel
    have h53 : twoTo 53 = 9007199254740992 := rfl
    have hwhole : x.toInt? = some n := by
      simp [Double.toInt?, hx, hunits, Int.mul_ediv_cancel _ hpos]
    have hstored : Affinity.wholeNumber x = .real x := hkept
    have hleast : minInt64 = -9223372036854775808 := rfl
    have hgreatest : maxInt64 = 9223372036854775807 := rfl
    have hwithin : (decide (minInt64 < n) && decide (n < maxInt64)) = true := by
      rw [Bool.and_eq_true, decide_eq_true_iff, decide_eq_true_iff]
      omega
    rw [Affinity.wholeNumber, hwhole] at hstored
    dsimp only at hstored
    rw [if_pos hwithin] at hstored
    cases hstored

/-- A value that looks the same as a kept cell is stored as that cell, where reading tells. -/
theorem Schema.storedAt_of_looselyEq {s : Schema} {i : Nat} {d : Datum} {v : Value}
    (hkept : s.storedAt i d = d) (hv : v.Exact)
    (htells : d.Tells ((s.cells[i]?).map Column.affinity) v)
    (h : (Value.ofJson d.toJson).looselyEq v = true) : s.storedAt i (.ofValue v) = d := by
  cases d with
  | null =>
    rw [Value.looselyEq_null h]
    exact hkept
  | text t =>
    rw [Value.looselyEq_text h]
    exact hkept
  | garbled t =>
    have hnull := Value.looselyEq_null h
    subst hnull
    exact htells.elim
  | blob bytes =>
    have hread := Value.looselyEq_text h
    subst hread
    exact htells.elim
  | int m =>
    obtain ⟨x, hx⟩ : ∃ x, (Value.ofJson (Datum.int m).toJson).number? = some x := by
      simp only [Datum.toJson, Value.ofJson]
      split <;> exact ⟨_, rfl⟩
    cases v with
    | text t => rw [Value.not_looselyEq_text hx] at h; cases h
    | null => rw [Value.not_looselyEq_null hx] at h; cases h
    | real y => exact hv.elim
    | bool b => exact hv.elim
    | int n =>
      have hread : Value.ofJson (Datum.int m).toJson = .int m := by
        simp [Datum.toJson, Value.ofJson, htells.1]
      rw [hread] at h
      have hunits := Value.units_of_looselyEq rfl rfl h
      rw [← Double.eq_of_units_ofInt htells.1 hv htells.2 hunits]
      exact hkept
  | real x =>
    by_cases hx : x.finite = true
    · have hread : Value.ofJson (Datum.real x).toJson = .real x := by
        simp [Datum.toJson, hx, Value.ofJson]
      rw [hread] at h
      cases v with
      | text t => rw [Value.not_looselyEq_text rfl] at h; cases h
      | null => rw [Value.not_looselyEq_null rfl] at h; cases h
      | real y => exact hv.elim
      | bool b => exact hv.elim
      | int n =>
        have hunits := Value.units_of_looselyEq rfl rfl h
        obtain ⟨hsome, hany⟩ := htells
        unfold Schema.storedAt at hkept ⊢
        cases hcolumn : s.cells[i]? with
        | none => simp [hcolumn] at hsome
        | some column =>
          rw [hcolumn] at hkept hany
          exact Affinity.store_int_of_real hkept (fun hsame => hany (congrArg some hsame)) hv hx
            hunits
    · have hread : Value.ofJson (Datum.real x).toJson = .null := by
        simp [Datum.toJson, hx, Value.ofJson]
      rw [hread] at h
      have hnull := Value.looselyEq_null h
      subst hnull
      exact absurd htells hx

end TableQuery
