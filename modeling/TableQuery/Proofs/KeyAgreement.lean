import TableQuery.Proofs.ClauseMeaning
import TableQuery.Proofs.ShownColumns

namespace TableQuery

theorem Text.intText_injective : Function.Injective Text.intText := by
  intro m n h
  have hcharacters : intCharacters m = intCharacters n := String.ofList_injective h
  have hdigits : ∀ k : Nat, '-' ∉ Nat.toDigits 10 k := fun k hmem => by
    have hdigit := Nat.isDigit_of_mem_toDigits (by decide) (by decide) hmem
    exact absurd hdigit (by decide)
  have habs : ∀ {j k : Nat}, Nat.toDigits 10 j = Nat.toDigits 10 k → j = k := fun {j k} hsame => by
    have hvalue := congrArg (Nat.ofDigitChars 10 · 0) hsame
    simpa [Nat.ofDigitChars_toDigits] using hvalue
  unfold intCharacters at hcharacters
  split at hcharacters <;> split at hcharacters
  next hm hn =>
    have := habs (List.cons.inj hcharacters).2
    omega
  next => exact absurd (hcharacters ▸ List.mem_cons_self) (hdigits n.natAbs)
  next => exact absurd (hcharacters ▸ List.mem_cons_self) (hdigits m.natAbs)
  next hm hn =>
    have := habs hcharacters
    omega

theorem orderBy_eq_iff {α : Type} {number : α → Nat} (hnumber : Function.Injective number)
    (as bs : List α) : orderBy number as bs = .eq ↔ as = bs := by
  induction as generalizing bs with
  | nil => cases bs <;> simp [orderBy]
  | cons a as ih =>
    cases bs with
    | nil => simp [orderBy]
    | cons b bs =>
      rw [orderBy, Ordering.then_eq_eq, Nat.compare_eq_eq, ih, hnumber.eq_iff, List.cons.injEq]

namespace Datum

/-- Rank, number and content of a cell: what its place in the order of cells depends on. -/
def sortKey (d : Datum) : Nat × Int × List Nat :=
  (d.rank, d.units,
    match d with
    | text s => (Text.bytes s).map UInt8.toNat
    | garbled t => t.bytes.map UInt8.toNat
    | blob bytes => bytes
    | _ => [])

theorem order_eq_iff (a b : Datum) : a.order b = .eq ↔ a.sortKey = b.sortKey := by
  have hnumber : Function.Injective Char.toNat := fun a b h => Char.ext (UInt32.toNat_inj.mp h)
  have hbyte : Function.Injective UInt8.toNat := fun _ _ h => UInt8.toNat_inj.mp h
  have hlist : ∀ as bs : Text.Bytes, as.map UInt8.toNat = bs.map UInt8.toNat ↔ as = bs :=
    fun _ _ => List.map_inj_right fun _ _ h => hbyte h
  cases a <;> cases b <;>
    simp [order, sortKey, rank, units, orderBy_eq_iff hnumber, orderBy_eq_iff hbyte,
      orderBy_eq_iff Function.injective_id, hlist, Text.bytes_inj,
      String.toList_inj]

theorem order_self (d : Datum) : d.order d = .eq :=
  (order_eq_iff d d).mpr rfl

theorem order_text_eq_iff (s t : String) : (text s).order (text t) = .eq ↔ s = t := by
  have hnumber : Function.Injective Char.toNat := fun a b h => Char.ext (UInt32.toNat_inj.mp h)
  have horder : (text s).order (text t) = orderBy Char.toNat s.toList t.toList := by
    simp [order, rank]
  rw [horder, orderBy_eq_iff hnumber, String.toList_inj]

theorem order_int_eq_iff (m n : Int) : (int m).order (int n) = .eq ↔ m = n := by
  rw [order_int]
  exact Std.LawfulEqOrd.compare_eq_iff_eq

end Datum

namespace Cell

/-- Both are integers, or texts that no number stands beside, or one is null: then they are equal
as cells exactly where they look the same. -/
def Alike (c k : Cell) : Prop :=
  match c.datum, k.datum with
  | .null, _ => True
  | _, .null => True
  | .int m, .int n => isInt64 m = true ∧ isInt64 n = true
  | .text _, .text _ =>
    c.affinity.any Affinity.isNumeric = false ∧ k.affinity.any Affinity.isNumeric = false
  | _, _ => False

instance (c k : Cell) : Decidable (c.Alike k) := by
  unfold Alike
  split <;> infer_instance

theorem comparing_text {a b : Option Affinity} (ha : a.any Affinity.isNumeric = false)
    (hb : b.any Affinity.isNumeric = false) (s : String) :
    Affinity.comparing a b (.text s) = .text s := by
  rcases a with _ | _ | _ | _ | _ <;> rcases b with _ | _ | _ | _ | _ <;>
    simp_all [Affinity.isNumeric, Affinity.comparing, Affinity.comparing.single,
      Affinity.textOfNumber]

/-- Whatever the columns prefer, two integers stay integers or both become their texts. -/
theorem comparing_int (a b : Option Affinity) (m n : Int) :
    ((Affinity.comparing a b (.int m)).order (Affinity.comparing a b (.int n)) = .eq) ↔ m = n := by
  have hconvert : Affinity.comparing a b = Affinity.numberOfText ∨
      Affinity.comparing a b = Affinity.textOfNumber ∨ Affinity.comparing a b = id := by
    rcases a with _ | _ | _ | _ | _ <;> rcases b with _ | _ | _ | _ | _ <;>
      simp [Affinity.isNumeric, Affinity.comparing, Affinity.comparing.single]
  rcases hconvert with hconvert | hconvert | hconvert
  · rw [hconvert]
    exact Datum.order_int_eq_iff m n
  · rw [hconvert]
    simp only [Affinity.textOfNumber, Datum.order_text_eq_iff, Text.intText_injective.eq_iff]
  · rw [hconvert]
    exact Datum.order_int_eq_iff m n

theorem value_int {c : Cell} {n : Int} (h : c.datum = .int n) (hn : isInt64 n = true) :
    c.value = .int n := by
  simp [value, h, Datum.toJson, Value.ofJson, hn]

theorem value_text {c : Cell} {s : String} (h : c.datum = .text s) : c.value = .text s := by
  simp [value, h, Datum.toJson, Value.ofJson]

theorem Alike.cases {c k : Cell} (h : c.Alike k) (hc : c.datum ≠ .null) (hk : k.datum ≠ .null) :
    (∃ m n, c.datum = .int m ∧ k.datum = .int n ∧ c.value = .int m ∧ k.value = .int n) ∨
      ∃ s t, c.datum = .text s ∧ k.datum = .text t ∧ c.value = .text s ∧ k.value = .text t ∧
        c.affinity.any Affinity.isNumeric = false ∧ k.affinity.any Affinity.isNumeric = false := by
  unfold Alike at h
  split at h
  next hnull => exact absurd hnull hc
  next hnull _ => exact absurd hnull hk
  next m n hm hn => exact .inl ⟨m, n, hm, hn, value_int hm h.1, value_int hn h.2⟩
  next s t hs ht => exact .inr ⟨s, t, hs, ht, value_text hs, value_text ht, h.1, h.2⟩
  next => exact h.elim

theorem compare_null {r : Sql.Relator} {c k : Cell} (h : c.datum = .null ∨ k.datum = .null) :
    Cell.compare r c k = none := by
  rcases h with h | h <;> simp [Cell.compare, h, Datum.isNull]

theorem Alike.equal_iff {c k : Cell} (h : c.Alike k) :
    Cell.compare .eq c k = some true ↔ c.datum = k.datum ∧ c.datum ≠ .null := by
  by_cases hc : c.datum = .null
  · simp [compare_null (.inl hc), hc]
  by_cases hk : k.datum = .null
  · simp only [compare_null (.inr hk), hk, reduceCtorEq, false_iff]
    exact fun hsame => hc hsame.1
  rcases h.cases hc hk with ⟨m, n, hm, hn, _, _⟩ | ⟨s, t, hs, ht, _, _, ha, hb⟩
  · simp only [Cell.compare, hm, hn, Datum.isNull, Bool.or_self, Bool.false_eq_true, ↓reduceIte,
      Sql.Relator.holds, Option.some.injEq, decide_eq_true_iff, comparing_int]
    simp
  · simp only [Cell.compare, hs, ht, Datum.isNull, Bool.or_self, Bool.false_eq_true, ↓reduceIte,
      Sql.Relator.holds, Option.some.injEq, decide_eq_true_iff, comparing_text ha hb,
      Datum.order_text_eq_iff]
    simp

theorem Alike.display_iff {c k : Cell} (h : c.Alike k) (hc : c.datum ≠ .null)
    (hk : k.datum ≠ .null) : c.value.display = k.value.display ↔ c.datum = k.datum := by
  rcases h.cases hc hk with ⟨m, n, hm, hn, hcv, hkv⟩ | ⟨s, t, hs, ht, hcv, hkv, _, _⟩
  · rw [hcv, hkv, hm, hn]
    simpa [Value.display] using Text.intText_injective.eq_iff
  · rw [hcv, hkv, hs, ht]
    simp [Value.display]

/-- A key that was read and is bound again is the same key. -/
theorem Alike.bound {c k : Cell} (h : c.Alike k) (hc : c.datum ≠ .null) (hk : k.datum ≠ .null) :
    c.Alike (.ofValue k.value) ∧ (Cell.ofValue k.value).datum = k.datum := by
  have hvalue : ∀ v : Value, (Cell.ofValue v).affinity = none := fun _ => rfl
  rcases h.cases hc hk with ⟨m, n, hm, hn, _, hkv⟩ | ⟨s, t, hs, ht, _, hkv, ha, _⟩
  · rw [hkv]
    refine ⟨?_, hn.symm⟩
    unfold Alike at h ⊢
    rw [hm, hn] at h
    rw [hm]
    exact h
  · rw [hkv]
    refine ⟨?_, ht.symm⟩
    unfold Alike
    rw [hs]
    exact ⟨ha, rfl⟩

theorem value_isNull {c : Cell} (h : c.datum = .null) : c.value.isNull = true := by
  simp [value, h, Datum.toJson, Value.ofJson, Value.isNull]

theorem Alike.value_not_null {c k : Cell} (h : c.Alike k) (hc : c.datum ≠ .null)
    (hk : k.datum ≠ .null) : k.value.isNull = false := by
  rcases h.cases hc hk with ⟨m, n, _, _, _, hkv⟩ | ⟨s, t, _, _, _, hkv, _, _⟩ <;>
    rw [hkv] <;> rfl

end Cell

end TableQuery
