import Mathlib.Tactic
import TableQuery.Text.Utf8

/-! UTF-8 keeps the order of texts: by their bytes they are ordered as by their characters. -/

namespace TableQuery.Text

/-- The bytes of a character, as numbers. -/
def codeBytes (n : Nat) : List Nat :=
  if n ≤ 127 then [n]
  else if n ≤ 2047 then [n / 64 % 32 + 192, n % 64 + 128]
  else if n ≤ 65535 then [n / 4096 % 16 + 224, n / 64 % 64 + 128, n % 64 + 128]
  else [n / 262144 % 8 + 240, n / 4096 % 64 + 128, n / 64 % 64 + 128, n % 64 + 128]

theorem toNat_lt (c : Char) : c.toNat < 0x110000 := by
  have h := c.valid
  simp only [UInt32.isValidChar, Nat.isValidChar] at h
  change c.val.toNat < _
  omega

theorem map_utf8EncodeChar (c : Char) :
    (String.utf8EncodeChar c).map UInt8.toNat = codeBytes c.toNat := by
  have h := toNat_lt c
  simp only [String.utf8EncodeChar, codeBytes, Char.toNat_val, apply_ite (List.map UInt8.toNat),
    List.map_cons, List.map_nil, UInt8.toNat_ofNat']
  split_ifs <;> simp only [List.cons.injEq, and_true] <;> omega

theorem map_bytes (s : String) :
    (bytes s).map UInt8.toNat = s.toList.flatMap fun c => codeBytes c.toNat := by
  simp only [bytes_eq_flatMap, List.map_flatMap, map_utf8EncodeChar]

theorem compare_cons_of_le {a b : Nat} {as bs : List Nat} (h : a ≤ b)
    (hrest : a = b → compare as bs = .lt) : compare (a :: as) (b :: bs) = .lt := by
  rw [List.compare_cons_cons]
  rcases Nat.lt_or_eq_of_le h with hlt | rfl
  · rw [Nat.compare_eq_lt.mpr hlt]
    rfl
  · simpa using hrest rfl

/-- The first byte tells how many there are, and each part of a number counts before the next. -/
theorem compare_codeBytes_lt {m n : Nat} (h : m < n) (hn : n < 0x110000) (as bs : List Nat) :
    compare (codeBytes m ++ as) (codeBytes n ++ bs) = .lt := by
  unfold codeBytes
  split_ifs <;> try omega
  all_goals
    refine compare_cons_of_le (by omega) fun hfirst => ?_
    try omega
  all_goals
    refine compare_cons_of_le (by omega) fun hsecond => ?_
    try omega
  all_goals
    refine compare_cons_of_le (by omega) fun hthird => ?_
    try omega
  exact compare_cons_of_le (by omega) fun hlast => by omega

theorem compare_append_self (front as bs : List Nat) :
    compare (front ++ as) (front ++ bs) = compare as bs := by
  induction front with
  | nil => rfl
  | cons a front ih => simpa [List.compare_cons_cons] using ih

theorem compare_codeBytes {m n : Nat} (hm : m < 0x110000) (hn : n < 0x110000) (as bs : List Nat) :
    compare (codeBytes m ++ as) (codeBytes n ++ bs) = (compare m n).then (compare as bs) := by
  rcases Nat.lt_trichotomy m n with h | rfl | h
  · rw [compare_codeBytes_lt h hn, Nat.compare_eq_lt.mpr h]
    rfl
  · rw [compare_append_self, Nat.compare_eq_eq.mpr rfl]
    rfl
  · have hswap : compare (codeBytes m ++ as) (codeBytes n ++ bs) =
        (compare (codeBytes n ++ bs) (codeBytes m ++ as)).swap := Std.OrientedCmp.eq_swap
    rw [Nat.compare_eq_gt.mpr h, hswap, compare_codeBytes_lt h hm]
    rfl

theorem codeBytes_ne_nil (n : Nat) : codeBytes n ≠ [] := by
  unfold codeBytes
  split_ifs <;> simp

theorem compare_map_bytes (s t : String) :
    compare ((bytes s).map UInt8.toNat) ((bytes t).map UInt8.toNat) =
      compare (s.toList.map Char.toNat) (t.toList.map Char.toNat) := by
  rw [map_bytes, map_bytes]
  generalize s.toList = cs
  generalize t.toList = ds
  induction cs generalizing ds with
  | nil =>
    cases ds with
    | nil => rfl
    | cons d ds =>
      obtain ⟨b, rest, hb⟩ := List.exists_cons_of_ne_nil (codeBytes_ne_nil d.toNat)
      rw [List.flatMap_cons, hb]
      rfl
  | cons c cs ih =>
    cases ds with
    | nil =>
      obtain ⟨b, rest, hb⟩ := List.exists_cons_of_ne_nil (codeBytes_ne_nil c.toNat)
      rw [List.flatMap_cons, hb]
      rfl
    | cons d ds =>
      rw [List.flatMap_cons, List.flatMap_cons, compare_codeBytes (toNat_lt c) (toNat_lt d), ih,
        List.map_cons, List.map_cons, List.compare_cons_cons]

end TableQuery.Text
