import TableQuery.Double.Basic

namespace TableQuery

theorem twoTo_add (m n : Nat) : twoTo (m + n) = twoTo m * twoTo n :=
  Nat.pow_add 2 m n

theorem twoTo_le {m n : Nat} (h : m ≤ n) : twoTo m ≤ twoTo n :=
  Nat.pow_le_pow_right (by decide) h

theorem twoTo_lt {m n : Nat} (h : m < n) : twoTo m < twoTo n :=
  Nat.pow_lt_pow_right (by decide) h

namespace Double

def magnitude (x : Double) : Nat :=
  x.significand * twoTo x.scale

theorem units_eq (x : Double) :
    x.units = if x.negative then -(x.magnitude : Int) else x.magnitude :=
  rfl

theorem fraction_lt (x : Double) : x.fraction < twoTo 52 :=
  Nat.mod_lt _ (twoTo_pos 52)

theorem magnitude_lt (x : Double) : x.magnitude < twoTo (x.rawExponent + 52) := by
  have hfraction := x.fraction_lt
  unfold magnitude significand scale
  split
  next h =>
    have hone : twoTo 0 = 1 := rfl
    simpa [h, hone] using hfraction
  next h =>
    have hscale : x.rawExponent + 52 = 53 + (x.rawExponent - 1) := by omega
    have htwice : twoTo 53 = twoTo 52 * 2 := twoTo_succ 52
    rw [hscale, twoTo_add]
    exact Nat.mul_lt_mul_of_pos_right (by omega) (twoTo_pos _)

theorem le_magnitude {x : Double} (h : x.rawExponent ≠ 0) :
    twoTo (x.rawExponent + 51) ≤ x.magnitude := by
  have hscale : x.rawExponent + 51 = 52 + (x.rawExponent - 1) := by omega
  rw [hscale, twoTo_add, magnitude, significand, scale, if_neg h]
  exact Nat.mul_le_mul_right _ (by omega)

theorem magnitude_lt_of_rawExponent {x y : Double} (h : x.rawExponent < y.rawExponent) :
    x.magnitude < y.magnitude :=
  calc x.magnitude
      _ < twoTo (x.rawExponent + 52) := x.magnitude_lt
      _ ≤ twoTo (y.rawExponent + 51) := twoTo_le (by omega)
      _ ≤ y.magnitude := le_magnitude (by omega)

theorem eq_of_magnitude {x y : Double} (h : x.magnitude = y.magnitude) :
    x.rawExponent = y.rawExponent ∧ x.fraction = y.fraction := by
  rcases Nat.lt_trichotomy x.rawExponent y.rawExponent with hlt | heq | hlt
  · have := magnitude_lt_of_rawExponent hlt
    omega
  · refine ⟨heq, ?_⟩
    unfold magnitude significand scale at h
    rw [heq] at h
    have hsame := Nat.eq_of_mul_eq_mul_right (twoTo_pos _) h
    split at hsame <;> omega
  · have := magnitude_lt_of_rawExponent hlt
    omega

/-- Doubles other than zero are told apart by the number they stand for. -/
theorem eq_of_units {x y : Double} (h : x.units = y.units) (hx : x.units ≠ 0) : x = y := by
  have hsign : x.negative = y.negative := by
    rw [units_eq] at h hx
    rw [units_eq] at h
    cases hxs : x.negative <;> cases hys : y.negative <;> simp [hxs, hys] at h hx ⊢ <;> omega
  have hmagnitude : x.magnitude = y.magnitude := by
    rw [units_eq, units_eq, hsign] at h
    split at h <;> omega
  obtain ⟨hexponent, hfraction⟩ := eq_of_magnitude hmagnitude
  have hlt : ∀ z : Double, z.bits.toNat < 18446744073709551616 := fun z => z.bits.toNat_lt
  have hbits : x.bits.toNat = y.bits.toNat := by
    have hx := hlt x
    have hy := hlt y
    have h52 : twoTo 52 = 4503599627370496 := rfl
    have h11 : twoTo 11 = 2048 := rfl
    have h63 : twoTo 63 = 9223372036854775808 := rfl
    unfold rawExponent at hexponent
    unfold fraction at hfraction
    unfold negative at hsign
    rw [h52, h11] at hexponent
    rw [h52] at hfraction
    rw [h63, decide_eq_decide] at hsign
    omega
  obtain ⟨xbits⟩ := x
  obtain ⟨ybits⟩ := y
  exact congrArg Double.mk (UInt64.toNat_inj.mp hbits)

/-- What the bits of an exponent and a significand of 53 digits stand for. -/
theorem units_ofMagnitude (negative : Bool) {e m : Nat} (hm : twoTo 52 ≤ m) (hm' : m ≤ twoTo 53)
    (he : e + 2 < 2047) :
    (ofMagnitude negative (e * twoTo 52 + m)).units =
      if negative then -((m * twoTo e : Nat) : Int) else (m * twoTo e : Nat) := by
  have h52 : twoTo 52 = 4503599627370496 := rfl
  have h53 : twoTo 53 = 9007199254740992 := rfl
  have h11 : twoTo 11 = 2048 := rfl
  have h63 : twoTo 63 = 9223372036854775808 := rfl
  rw [h52] at hm
  rw [h53] at hm'
  have hbits : (ofMagnitude negative (e * twoTo 52 + m)).bits.toNat =
      if negative then e * 4503599627370496 + m + 9223372036854775808
      else e * 4503599627370496 + m := by
    unfold ofMagnitude
    rw [UInt64.toNat_ofNat', h52, h63]
    cases negative <;> simp <;> omega
  have hnegative : (ofMagnitude negative (e * twoTo 52 + m)).negative = negative := by
    unfold Double.negative
    rw [hbits, h63]
    cases negative with
    | false =>
      simp
      omega
    | true => simp
  have hmagnitude : (ofMagnitude negative (e * twoTo 52 + m)).magnitude = m * twoTo e := by
    have hexponent : (ofMagnitude negative (e * twoTo 52 + m)).rawExponent =
        e + m / 4503599627370496 := by
      unfold rawExponent
      rw [hbits, h52, h11]
      cases negative <;> simp <;> omega
    have hfraction : (ofMagnitude negative (e * twoTo 52 + m)).fraction =
        m % 4503599627370496 := by
      unfold fraction
      rw [hbits, h52]
      cases negative with
      | false => simp
      | true =>
        simp
        omega
    unfold magnitude significand scale
    rw [hexponent, hfraction, h52, if_neg (by omega)]
    by_cases htop : m = 9007199254740992
    · -- the significand has run over into the next exponent
      subst htop
      have hscale : e + 9007199254740992 / 4503599627370496 - 1 = e + 1 := by omega
      rw [hscale, twoTo_succ]
      omega
    · have hscale : e + m / 4503599627370496 - 1 = e := by omega
      have hsignificand : m % 4503599627370496 + 4503599627370496 = m := by omega
      rw [hscale, hsignificand]
  rw [units_eq, hnegative, hmagnitude]

theorem roundedQuotient_bounds (n d : Nat) :
    n / d ≤ roundedQuotient n d ∧ roundedQuotient n d ≤ n / d + 1 := by
  unfold roundedQuotient
  dsimp only
  split
  next => omega
  next => split <;> omega

theorem roundedQuotient_one (n : Nat) : roundedQuotient n 1 = n := by
  simp [roundedQuotient, Nat.mod_one]

/-- The significand of an integer that is written with `k + 1` binary digits. -/
def significandOf (n k : Nat) : Nat :=
  roundedQuotient (n * twoTo (52 - k)) (twoTo (k - 52))

theorem significandOf_bounds {n k : Nat} (hlow : twoTo k ≤ n) (hhigh : n < twoTo (k + 1)) :
    twoTo 52 ≤ significandOf n k ∧ significandOf n k ≤ twoTo 53 := by
  have hone : twoTo 0 = 1 := rfl
  unfold significandOf
  by_cases hk : k ≤ 52
  · have hzero : k - 52 = 0 := by omega
    have hsum : 52 = k + (52 - k) := by omega
    have hnext : 53 = (k + 1) + (52 - k) := by omega
    rw [hzero, hone, roundedQuotient_one]
    constructor
    · calc twoTo 52
          _ = twoTo k * twoTo (52 - k) := by rw [← twoTo_add, ← hsum]
          _ ≤ n * twoTo (52 - k) := Nat.mul_le_mul_right _ hlow
    · calc n * twoTo (52 - k)
          _ ≤ twoTo (k + 1) * twoTo (52 - k) := Nat.mul_le_mul_right _ (Nat.le_of_lt hhigh)
          _ = twoTo 53 := by rw [← twoTo_add, ← hnext]
  · have hzero : 52 - k = 0 := by omega
    have hsum : k = 52 + (k - 52) := by omega
    have hnext : k + 1 = 53 + (k - 52) := by omega
    rw [hzero, hone, Nat.mul_one]
    obtain ⟨hleast, hmost⟩ := roundedQuotient_bounds n (twoTo (k - 52))
    have hpos := twoTo_pos (k - 52)
    constructor
    · refine Nat.le_trans ?_ hleast
      rw [Nat.le_div_iff_mul_le hpos, ← twoTo_add, ← hsum]
      exact hlow
    · have hquotient : n / twoTo (k - 52) < twoTo 53 := by
        rw [Nat.div_lt_iff_lt_mul hpos, ← twoTo_add, ← hnext]
        exact hhigh
      omega

/-- An integer becomes the double of its first 53 binary digits, rounded by the others. -/
theorem ofInt_eq {n : Int} (hn : n ≠ 0) (hbound : n.natAbs < twoTo 64) :
    ofInt n = ofMagnitude (n < 0)
      ((n.natAbs.log2 + 1022) * twoTo 52 + significandOf n.natAbs n.natAbs.log2) := by
  have habs : n.natAbs ≠ 0 := by omega
  have hlow : twoTo n.natAbs.log2 ≤ n.natAbs := Nat.log2_self_le habs
  have hhigh : n.natAbs < twoTo (n.natAbs.log2 + 1) := Nat.lt_log2_self
  have hlog : n.natAbs.log2 < 64 := (Nat.log2_lt habs).mpr hbound
  have hmost := (significandOf_bounds hlow hhigh).2
  generalize hk : n.natAbs.log2 = k at *
  have hone : Nat.log2 1 = 0 := by decide
  have hdigits : ¬n.natAbs * twoTo (52 - ((k : Int) - (Nat.log2 1 : Nat))).toNat <
      1 * twoTo 52 * twoTo (((k : Int) - (Nat.log2 1 : Nat)) - 52).toNat := by
    have hless : (52 - ((k : Int) - (Nat.log2 1 : Nat))).toNat = 52 - k := by omega
    have hmore : (((k : Int) - (Nat.log2 1 : Nat)) - 52).toNat = k - 52 := by omega
    rw [hless, hmore, Nat.one_mul, ← twoTo_add]
    have hsum : 52 + (k - 52) = k + (52 - k) := by omega
    rw [hsum, twoTo_add]
    exact Nat.not_lt.mpr (Nat.mul_le_mul_right _ hlow)
  have hshift : max ((k : Int) - (Nat.log2 1 : Nat) - 52) (-1074) = (k : Int) - 52 := by omega
  have hless : (-((k : Int) - 52)).toNat = 52 - k := by omega
  have hmore : ((k : Int) - 52).toNat = k - 52 := by omega
  have hexponent : ((k : Int) - 52 + 1074).toNat = k + 1022 := by omega
  have hfinite : (k + 1022) * twoTo 52 + significandOf n.natAbs k ≤ infinityBits := by
    have h52 : twoTo 52 = 4503599627370496 := rfl
    have h53 : twoTo 53 = 9007199254740992 := rfl
    rw [h53] at hmost
    rw [infinityBits, h52]
    omega
  unfold ofInt ofRatio
  dsimp only
  rw [if_neg habs, hk, if_neg hdigits, hshift, hless, hmore, hexponent, Nat.one_mul]
  exact congrArg (ofMagnitude _) (Nat.min_eq_left hfinite)

theorem units_ofInt {n : Int} (hn : n ≠ 0) (hbound : n.natAbs < twoTo 64) :
    (ofInt n).units =
      if n < 0 then -((significandOf n.natAbs n.natAbs.log2 *
        twoTo (n.natAbs.log2 + 1022) : Nat) : Int)
      else (significandOf n.natAbs n.natAbs.log2 * twoTo (n.natAbs.log2 + 1022) : Nat) := by
  have habs : n.natAbs ≠ 0 := by omega
  have hlog : n.natAbs.log2 < 64 := (Nat.log2_lt habs).mpr hbound
  obtain ⟨hleast, hmost⟩ := significandOf_bounds (Nat.log2_self_le habs) Nat.lt_log2_self
  rw [ofInt_eq hn hbound, units_ofMagnitude _ hleast hmost (by omega)]
  simp only [decide_eq_true_eq]

theorem natAbs_units (x : Double) : x.units.natAbs = x.magnitude := by
  rw [units_eq]
  split <;> omega

theorem finite_of_magnitude_lt {x : Double} (h : x.magnitude < twoTo (2047 + 51)) :
    x.finite = true := by
  have hexponent : x.rawExponent ≠ 2047 := by
    intro htop
    have hnonzero : x.rawExponent ≠ 0 := by omega
    have hlarge := le_magnitude hnonzero
    rw [htop] at hlarge
    exact Nat.not_le.mpr h hlarge
  simpa [finite] using hexponent

theorem finite_ofInt {n : Int} (hbound : n.natAbs < twoTo 64) : (ofInt n).finite = true := by
  by_cases hn : n = 0
  · rw [hn]
    decide +kernel
  · have habs : n.natAbs ≠ 0 := by omega
    have hlog : n.natAbs.log2 < 64 := (Nat.log2_lt habs).mpr hbound
    have hmost := (significandOf_bounds (Nat.log2_self_le habs) Nat.lt_log2_self).2
    refine finite_of_magnitude_lt ?_
    calc (ofInt n).magnitude
        _ = significandOf n.natAbs n.natAbs.log2 * twoTo (n.natAbs.log2 + 1022) := by
          rw [← natAbs_units, units_ofInt hn hbound]
          split <;> omega
        _ ≤ twoTo 53 * twoTo (n.natAbs.log2 + 1022) := Nat.mul_le_mul_right _ hmost
        _ = twoTo (53 + (n.natAbs.log2 + 1022)) := (twoTo_add _ _).symm
        _ < twoTo (2047 + 51) := twoTo_lt (by omega)

/-- Integers of at most 53 binary digits, and the next one, are kept. -/
theorem units_ofInt_small {n : Int} (h : n.natAbs ≤ twoTo 53) :
    (ofInt n).units = n * unitsPerOne := by
  have h53 : twoTo 53 = 9007199254740992 := rfl
  have hcases : n = 0 ∨ n = 9007199254740992 ∨ n = -9007199254740992 ∨
      (n ≠ 0 ∧ n.natAbs < twoTo 53) := by omega
  -- the two ends have 54 digits, so the general form does not reach them
  rcases hcases with rfl | rfl | rfl | ⟨hn, h⟩
  · decide +kernel
  · decide +kernel
  · decide +kernel
  · have habs : n.natAbs ≠ 0 := by omega
    have hlog : n.natAbs.log2 < 53 := (Nat.log2_lt habs).mpr h
    have hexact : significandOf n.natAbs n.natAbs.log2 * twoTo (n.natAbs.log2 + 1022) =
        n.natAbs * twoTo 1074 := by
      have hzero : n.natAbs.log2 - 52 = 0 := by omega
      have hone : twoTo 0 = 1 := rfl
      have hsum : 52 - n.natAbs.log2 + (n.natAbs.log2 + 1022) = 1074 := by omega
      rw [significandOf, hzero, hone, roundedQuotient_one, Nat.mul_assoc, ← twoTo_add, hsum]
    rw [units_ofInt hn (Nat.lt_of_lt_of_le h (twoTo_le (by decide))), hexact, unitsPerOne]
    generalize twoTo 1074 = one
    rw [Int.natCast_mul, ← Int.neg_mul]
    split
    next =>
      have hneg : -(n.natAbs : Int) = n := by omega
      rw [hneg]
    next =>
      have hpos : (n.natAbs : Int) = n := by omega
      rw [hpos]

theorem le_units_ofInt {n : Int} (h : twoTo 53 ≤ n.natAbs) (hbound : n.natAbs < twoTo 64) :
    twoTo 53 * twoTo 1074 ≤ (ofInt n).units.natAbs := by
  have habs : n.natAbs ≠ 0 := by
    have := twoTo_pos 53
    omega
  have hn : n ≠ 0 := by omega
  have hlog : 53 ≤ n.natAbs.log2 := (Nat.le_log2 habs).mpr h
  have hleast := (significandOf_bounds (Nat.log2_self_le habs) Nat.lt_log2_self).1
  have hmagnitude : (ofInt n).units.natAbs =
      significandOf n.natAbs n.natAbs.log2 * twoTo (n.natAbs.log2 + 1022) := by
    rw [units_ofInt hn hbound]
    split <;> omega
  rw [hmagnitude]
  calc twoTo 53 * twoTo 1074
      _ = twoTo 52 * twoTo (53 + 1022) := by rw [← twoTo_add, ← twoTo_add]
      _ ≤ twoTo 52 * twoTo (n.natAbs.log2 + 1022) :=
        Nat.mul_le_mul_left _ (twoTo_le (by omega))
      _ ≤ significandOf n.natAbs n.natAbs.log2 * twoTo (n.natAbs.log2 + 1022) :=
        Nat.mul_le_mul_right _ hleast

theorem natAbs_lt_of_isInt64 {n : Int} (h : isInt64 n = true) : n.natAbs < twoTo 64 := by
  have h64 : twoTo 64 = 18446744073709551616 := rfl
  have hleast : minInt64 = -9223372036854775808 := rfl
  have hgreatest : maxInt64 = 9223372036854775807 := rfl
  obtain ⟨hlow, hhigh⟩ := (Bool.and_eq_true _ _).mp h
  have hlow := of_decide_eq_true hlow
  have hhigh := of_decide_eq_true hhigh
  omega

/-- An integer that a double stands for is told from any other of 64 bits, but the greatest only
from those below. -/
theorem eq_of_units_ofInt {m n : Int} (hm : isInt64 m = true) (hn : n.natAbs ≤ twoTo 53)
    (hclose : m.natAbs ≤ twoTo 53 ∨ n.natAbs < twoTo 53)
    (h : (ofInt m).units = (ofInt n).units) : m = n := by
  have hpos : (0 : Int) < unitsPerOne := by decide +kernel
  have hone : unitsPerOne = (twoTo 1074 : Int) := rfl
  rw [units_ofInt_small hn] at h
  by_cases hsmall : m.natAbs ≤ twoTo 53
  · rw [units_ofInt_small hsmall] at h
    exact Int.eq_of_mul_eq_mul_right (Int.ne_of_gt hpos) h
  · have hlarge := le_units_ofInt (by omega) (natAbs_lt_of_isInt64 hm)
    rw [h, Int.natAbs_mul, hone, Int.natAbs_natCast] at hlarge
    have hless := Nat.mul_lt_mul_of_pos_right (hclose.resolve_left hsmall) (twoTo_pos 1074)
    omega

end Double

end TableQuery
