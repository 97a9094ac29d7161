import Mathlib.Data.List.TakeWhile
import TableQuery.Proofs.AttachedRows
import TableQuery.Proofs.KeptValues
import TableQuery.Shop

namespace TableQuery

open Sql

theorem Text.digitsValue_toDigits (n : Nat) : digitsValue (Nat.toDigits 10 n) = n := by
  have hfold : ∀ (cs : List Char) (k : Nat), (∀ c ∈ cs, c.isDigit = true) →
      cs.foldl (fun n c => n * 10 + (digit? c).getD 0) k = Nat.ofDigitChars 10 cs k := by
    intro cs
    induction cs with
    | nil => exact fun k _ => by simp
    | cons c cs ih =>
      intro k hdigits
      have hc := hdigits c (by simp)
      rw [List.foldl_cons, ih _ fun d hmem => hdigits d (by simp [hmem]), Nat.ofDigitChars_cons,
        Nat.mul_comm]
      simp [digit?, hc]
  rw [digitsValue, hfold _ 0 fun c hmem => Nat.isDigit_of_mem_toDigits (by decide) (by decide) hmem]
  exact Nat.ofDigitChars_toDigits (by decide) (by decide)

namespace Datum

theorem isNumberBlank_of_isDigit {c : Char} (h : c.isDigit = true) : isNumberBlank c = false := by
  by_contra hblank
  simp only [isNumberBlank, Bool.not_eq_false, Bool.or_eq_true, Bool.and_eq_true,
    decide_eq_true_eq] at hblank
  rcases hblank with rfl | ⟨_, hsmall⟩
  · exact absurd h (by decide)
  · simp only [Char.isDigit, Bool.and_eq_true, decide_eq_true_eq] at h
    have hlow : 48 ≤ c.toNat := h.1
    omega

/-- Digits write an integer, unless a point or an exponent follows. -/
theorem leadingNumber?_digits {ds : List Char} (hne : ds ≠ [])
    (hdigits : ∀ c ∈ ds, c.isDigit = true) (rest : List Char)
    (hrest : ∀ c ∈ rest.head?, c.isDigit = false ∧ c ≠ '.' ∧ c ≠ 'e' ∧ c ≠ 'E') :
    leadingNumber? (ds ++ rest) =
      if isInt64 (Text.digitsValue ds) then some (int (Text.digitsValue ds), rest)
      else some (real (Double.ofDigits false ds [] 0), rest) := by
  obtain ⟨c, cs, rfl⟩ := List.exists_cons_of_ne_nil hne
  have hc : c.isDigit = true := hdigits c (by simp)
  have hkept : (c :: cs ++ rest).dropWhile isNumberBlank = c :: cs ++ rest := by
    rw [List.cons_append, List.dropWhile_cons_of_neg (by simp [isNumberBlank_of_isDigit hc])]
  have hwhole : (c :: cs ++ rest).takeWhile Char.isDigit = c :: cs := by
    rw [List.takeWhile_append_of_pos hdigits]
    cases rest with
    | nil => simp
    | cons d rest => simp [(hrest d rfl).1]
  have hexponent : exponentPart rest = none := by
    cases rest with
    | nil => rfl
    | cons d rest => simp [exponentPart, (hrest d rfl).2.2]
  rw [leadingNumber?, hkept]
  split
  next negative shown hread =>
    -- a digit is no sign
    have hread : (negative, shown) = (false, c :: cs ++ rest) := by
      rw [← hread]
      split
      next h => exact absurd hc (by rw [(List.cons.inj h).1]; decide)
      next h => exact absurd hc (by rw [(List.cons.inj h).1]; decide)
      next => rfl
    obtain ⟨rfl, rfl⟩ := Prod.mk.inj hread
    simp only [hwhole, List.drop_left]
    split
    next => exact absurd rfl (hrest '.' rfl).2.1
    next => simp [hexponent]

theorem leadingNumber?_intCharacters {n : Int} (h : isInt64 n = true) :
    leadingNumber? (Text.intCharacters n) = some (int n, []) := by
  have hdigits : ∀ c ∈ Nat.toDigits 10 n.natAbs, c.isDigit = true := fun c hmem =>
    Nat.isDigit_of_mem_toDigits (by decide) (by decide) hmem
  have hvalue := Text.digitsValue_toDigits n.natAbs
  have hsome : Nat.toDigits 10 n.natAbs ≠ [] :=
    List.ne_nil_of_length_pos Nat.length_toDigits_pos
  by_cases hnegative : n < 0
  · have hminus : Text.intCharacters n = '-' :: Nat.toDigits 10 n.natAbs := if_pos hnegative
    have hsign : (-(n.natAbs : Int)) = n := by omega
    have hall : (Nat.toDigits 10 n.natAbs).takeWhile Char.isDigit = Nat.toDigits 10 n.natAbs :=
      List.takeWhile_eq_self_iff.mpr hdigits
    have hkept : ('-' :: Nat.toDigits 10 n.natAbs).dropWhile isNumberBlank =
        '-' :: Nat.toDigits 10 n.natAbs := by
      simp [isNumberBlank]
    rw [hminus, leadingNumber?, hkept]
    simp only [hall, hvalue, List.drop_length, exponentPart, ↓reduceIte, hsign]
    simp [hsome, h]
  · have hplain : Text.intCharacters n = Nat.toDigits 10 n.natAbs := if_neg hnegative
    have hsign : (n.natAbs : Int) = n := by omega
    have hread := leadingNumber?_digits hsome hdigits [] (by simp)
    rw [List.append_nil, hvalue, hsign, if_pos h] at hread
    rw [hplain, hread]

theorem number?_intText {n : Int} (h : isInt64 n = true) :
    number? (Text.intText n) = some (int n) := by
  rw [number?, Text.intText, String.toList_ofList, leadingNumber?_intCharacters h]
  rfl

/-- A bound value stays a text, or comes before all texts. -/
theorem numberOfText_ofValue (v : Value) :
    (∃ s, Affinity.numberOfText (ofValue v) = text s) ∨
      (Affinity.numberOfText (ofValue v)).rank ≤ 1 := by
  cases v with
  | text s =>
    cases hnumber : number? s with
    | none => exact .inl ⟨s, by simp [ofValue, Affinity.numberOfText, hnumber]⟩
    | some d =>
      rcases number?_cases hnumber with ⟨m, rfl, _⟩ | ⟨x, rfl⟩ <;>
        simp [ofValue, Affinity.numberOfText, hnumber, rank]
  | _ => simp [ofValue, Affinity.numberOfText, rank]

end Datum

def Value.IsKey : Value → Prop
  | .text _ => True
  | .int _ => True
  | .null => True
  | _ => False

namespace Cell

/-- A cell of a column of integers equals a value that comes from no column where both are the same
once texts of numbers have become numbers. -/
theorem compare_integer {c : Cell} {d : Datum} (hc : c.affinity = some .integer) :
    Cell.compare .eq c ⟨none, d⟩ = some true ↔ c.datum ≠ .null ∧ d ≠ .null ∧
      (Affinity.numberOfText c.datum).order (Affinity.numberOfText d) = .eq := by
  have hconvert : Affinity.comparing c.affinity none = Affinity.numberOfText := by
    rw [hc]
    rfl
  have hnull : ∀ d : Datum, d.isNull = true ↔ d = .null := fun d => by
    cases d <;> simp [Datum.isNull]
  unfold Cell.compare
  rw [hconvert]
  by_cases hleft : c.datum = .null
  · simp [hleft, Datum.isNull]
  · by_cases hright : d = .null
    · simp [hright, Datum.isNull]
    · have hcond : ¬(c.datum.isNull || d.isNull) = true := by
        rw [Bool.or_eq_true, hnull, hnull]
        exact not_or.mpr ⟨hleft, hright⟩
      rw [if_neg hcond]
      simp [hleft, hright, Relator.holds]

section

variable {c : Cell} (hc : c.affinity = some .integer)

include hc

theorem compare_intText {n : Int} (hn : isInt64 n = true) :
    Cell.compare .eq c (.ofValue (.text (Text.intText n))) = some true ↔
      Cell.compare .eq c (.ofValue (.int n)) = some true := by
  have hnumber : Affinity.numberOfText (.text (Text.intText n)) =
      Affinity.numberOfText (.int n) := by
    simp [Affinity.numberOfText, Datum.number?_intText hn]
  have htext : Cell.ofValue (.text (Text.intText n)) = ⟨none, .text (Text.intText n)⟩ := rfl
  have hint : Cell.ofValue (.int n) = ⟨none, .int n⟩ := rfl
  rw [htext, hint, compare_integer hc, compare_integer hc, hnumber]
  simp

/-- No value equals a cell that no value makes. -/
theorem compare_blob {bytes : List Nat} (hblob : c.datum = .blob bytes) (v : Value) :
    Cell.compare .eq c (.ofValue v) ≠ some true := by
  intro hequal
  obtain ⟨_, _, horder⟩ := (compare_integer hc).mp hequal
  have hrank := (Ordering.then_eq_eq.mp horder).1
  rw [hblob, Nat.compare_eq_eq] at hrank
  have hblobs : (Affinity.numberOfText (.blob bytes)).rank = 3 := rfl
  rcases Datum.numberOfText_ofValue v with ⟨s, hs⟩ | hothers
  · rw [hs] at hrank
    cases hrank
  · omega

theorem compare_garbled {t : Text.Garbled} (hgarbled : c.datum = .garbled t) (v : Value) :
    Cell.compare .eq c (.ofValue v) ≠ some true := by
  intro hequal
  have hvalue : Cell.ofValue v = ⟨none, .ofValue v⟩ := rfl
  obtain ⟨_, _, horder⟩ := (compare_integer hc).mp (hvalue ▸ hequal)
  have hbyte : Function.Injective UInt8.toNat := fun _ _ h => UInt8.toNat_inj.mp h
  have hkept : Affinity.numberOfText (.garbled t) = .garbled t := rfl
  rw [hgarbled, hkept] at horder
  rcases Datum.numberOfText_ofValue v with ⟨s, hs⟩ | hothers
  · rw [hs] at horder
    exact t.bytes_ne s ((orderBy_eq_iff hbyte _ _).mp (Ordering.then_eq_eq.mp horder).2)
  · have hrank := Nat.compare_eq_eq.mp (Ordering.then_eq_eq.mp horder).1
    have htwo : (Datum.garbled t).rank = 2 := rfl
    omega

theorem compare_text_self {s : String} (htext : c.datum = .text s) :
    Cell.compare .eq c (.ofValue (.text s)) = some true := by
  refine (compare_integer hc).mpr ⟨by simp [htext], by simp [Datum.ofValue], ?_⟩
  rw [htext]
  exact Datum.order_self _

theorem compare_int_self {n : Int} (hint : c.datum = .int n) :
    Cell.compare .eq c (.ofValue (.int n)) = some true := by
  refine (compare_integer hc).mpr ⟨by simp [hint], by simp [Datum.ofValue], ?_⟩
  rw [hint]
  exact Datum.order_self _

end

end Cell

namespace EagerLoad

variable {load : EagerLoad} {related : Store.Prepared} {parents : List Record} {parent : Record}
  {t : String} {row : Row}

def keyAffinity? (load : EagerLoad) (related : Store.Prepared) : Option Affinity :=
  ((related.ownPlace? load.relation.relatedKey).bind related.scope.column?).map Column.affinity

theorem affinity_relatedCell (hshows : related.ShowsOwn load.relation.relatedKey) (row : Row) :
    (load.relatedCell related row).affinity = load.keyAffinity? related := by
  obtain ⟨place, hplace⟩ := Option.isSome_iff_exists.mp hshows.1
  rw [relatedCell, Store.Prepared.ownCell, keyAffinity?, hplace]
  rfl

/-- Of the rows that equal a text, a load matches those that show their key as that text. -/
theorem matches_iff_of_belongs (hshows : related.ShowsOwn load.relation.relatedKey)
    (hinteger : (load.relatedCell related row).affinity = some .integer)
    (hparent : parent ∈ parents) (ht : parent.value load.relation.parentKey = .text t)
    (hkeys : ∀ other ∈ parents, (other.value load.relation.parentKey).display = t →
      (other.value load.relation.parentKey).IsKey)
    (hbelongs : load.Belongs related (.ofValue (.text t)) row) :
    load.Matches related (load.keys parents) (.text t) row ↔
      (load.relatedCell related row).value.display = t := by
  have hshown : related.shownCell load.relation.relatedKey [row] = load.relatedCell related row :=
    Store.Prepared.shownCell_of_showsOwn hshows [row]
  have hnull : (parent.value load.relation.parentKey).isNull = false := by
    rw [ht]
    rfl
  unfold Matches
  rw [hshown]
  refine ⟨fun h => h.2.2, fun hdisplay => ⟨rfl, ?_, hdisplay⟩⟩
  -- the key that is asked for may be that of another parent, but it is spelled alike
  obtain ⟨key, hkey, hsame⟩ := exists_key hparent hnull
  obtain ⟨_, other, hother, hvalue⟩ := of_mem_keys hkey
  rw [ht] at hsame
  have hkind := hkeys other hother (hvalue ▸ hsame)
  rw [hvalue] at hkind
  refine Cell.member_eq_true_iff.mpr ⟨_, List.mem_map_of_mem hkey, ?_⟩
  cases key with
  | text s =>
    obtain rfl : s = t := hsame
    exact hbelongs
  | int n =>
    have hspelled : Text.intText n = t := hsame
    rw [← hspelled] at hbelongs
    exact (Cell.compare_intText hinteger (Record.isInt64_of_value hvalue)).mp hbelongs
  | null => exact absurd (of_mem_keys hkey).1 (by decide)
  | _ => exact hkind.elim

/-- What a load matches with a text equals it, unless it is a double. -/
theorem belongs_of_matches (hshows : related.ShowsOwn load.relation.relatedKey)
    (hinteger : (load.relatedCell related row).affinity = some .integer)
    (hfits : (load.relatedCell related row).datum.Fits)
    (hreal : ∀ x, (load.relatedCell related row).datum ≠ .real x) {keys : List Value}
    (h : load.Matches related keys (.text t) row) :
    load.Belongs related (.ofValue (.text t)) row := by
  have hshown : related.shownCell load.relation.relatedKey [row] = load.relatedCell related row :=
    Store.Prepared.shownCell_of_showsOwn hshows [row]
  obtain ⟨_, hmember, hdisplay⟩ := h
  rw [hshown] at hdisplay
  obtain ⟨item, hitem, hequal⟩ := Cell.member_eq_true_iff.mp hmember
  obtain ⟨key, _, rfl⟩ := List.mem_map.mp hitem
  cases hdatum : (load.relatedCell related row).datum with
  | null =>
    rw [Cell.compare_null (.inl hdatum)] at hequal
    cases hequal
  | int n =>
    have hn := hfits n hdatum
    have hspelled : Text.intText n = t := by
      rw [Cell.value_int hdatum hn] at hdisplay
      exact hdisplay
    rw [← hspelled]
    exact (Cell.compare_intText hinteger hn).mpr (Cell.compare_int_self hinteger hdatum)
  | real x => exact absurd hdatum (hreal x)
  | text s =>
    have hspelled : s = t := by
      rw [Cell.value_text hdatum] at hdisplay
      exact hdisplay
    rw [← hspelled]
    exact Cell.compare_text_self hinteger hdatum
  | garbled t => exact absurd hequal (Cell.compare_garbled hinteger hdatum key)
  | blob bytes => exact absurd hequal (Cell.compare_blob hinteger hdatum key)

/-- A load attaches to a record whose key is a text the rows that show their key as that text, of
those whose key equals it: an integer is attached for its decimal spelling and for no other one.
So what is attached is what equals the key, exactly where what equals it is spelled like it. -/
theorem run_attaches_keys_as_spelled {rows : List Record} {session after : Session}
    (hkey : IsPlain load.relation.relatedKey)
    (hrelated : session.store.prepare false { table := load.relation.table } load.selectList =
      .ok related)
    (hshows : related.ShowsOwn load.relation.relatedKey)
    (hinteger : load.keyAffinity? related = some .integer)
    (hfits : ∀ row ∈ related.first.rows, (load.relatedCell related row).datum.Fits)
    (h : (load.run parents).exec session = (.ok rows, after)) :
    ∃ found, rows = parents.map (load.attach found) ∧
      ∀ parent ∈ parents, ∀ t, parent.value load.relation.parentKey = .text t →
        (∀ other ∈ parents, (other.value load.relation.parentKey).display = t →
          (other.value load.relation.parentKey).IsKey) →
        ∃ attaches : Row → Bool,
          load.relatedTo found parent = rowsWhere related attaches ∧
          ∀ row ∈ related.first.rows,
            (load.Belongs related (.ofValue (.text t)) row →
              (attaches row = true ↔ (load.relatedCell related row).value.display = t)) ∧
            (∀ n, (load.relatedCell related row).datum = .int n →
              (attaches row = true ↔ t = Text.intText n)) ∧
            ((∀ x, (load.relatedCell related row).datum ≠ .real x) →
              ((attaches row = true ↔ load.Belongs related (.ofValue (.text t)) row) ↔
                (load.Belongs related (.ofValue (.text t)) row →
                  (load.relatedCell related row).value.display = t))) := by
  have haffinity : ∀ row, (load.relatedCell related row).affinity = some .integer := fun row =>
    (affinity_relatedCell hshows row).trans hinteger
  obtain ⟨events, hexec⟩ := load.exec_run parents session
  rw [h] at hexec
  cases hfound : load.related session.store parents with
  | error fault =>
    rw [hfound] at hexec
    cases hexec
  | ok found =>
    rw [hfound] at hexec
    cases hexec
    refine ⟨found, rfl, fun parent hparent t ht hkeys => ?_⟩
    refine ⟨fun row => load.Matches related (load.keys parents) (.text t) row, ?_, ?_⟩
    · rw [relatedTo_eq hkey hrelated hshows.1 hfound parent, ht]
    · intro row hrow
      have hspelled : load.Belongs related (.ofValue (.text t)) row →
          (load.Matches related (load.keys parents) (.text t) row ↔
            (load.relatedCell related row).value.display = t) :=
        matches_iff_of_belongs hshows (haffinity row) hparent ht hkeys
      have hequal : (∀ x, (load.relatedCell related row).datum ≠ .real x) →
          load.Matches related (load.keys parents) (.text t) row →
            load.Belongs related (.ofValue (.text t)) row := fun hreal =>
        belongs_of_matches hshows (haffinity row) (hfits row hrow) hreal
      simp only [decide_eq_true_eq]
      refine ⟨hspelled, fun n hn => ⟨fun hmatches => ?_, fun ht => ?_⟩, fun hreal => ?_⟩
      · have hdisplay := (hspelled (hequal (by simp [hn]) hmatches)).mp hmatches
        rw [Cell.value_int hn (hfits row hrow n hn)] at hdisplay
        exact hdisplay.symm
      · subst ht
        have hfit := hfits row hrow n hn
        refine (hspelled ?_).mpr (by rw [Cell.value_int hn hfit]; rfl)
        exact (Cell.compare_intText (haffinity row) hfit).mpr
          (Cell.compare_int_self (haffinity row) hn)
      · exact ⟨fun hiff hbelongs => (hspelled hbelongs).mp (hiff.mpr hbelongs), fun hall =>
          ⟨hequal hreal, fun hbelongs => (hspelled hbelongs).mpr (hall hbelongs)⟩⟩

end EagerLoad

namespace Shop

def ownersOfAssets : EagerLoad :=
  ⟨.belongsTo "owner" "customers" "owner_id" "id", ["id"]⟩

def ownedBy (owner : String) : Store where
  tables :=
    [{ schema := customerSchema
       rows := [[.int 1, .text "a", .null, .int 1, .null, .null, .null, .null, .null]] },
     { schema := assetSchema, rows := [[.int 1, .text "x", .null, .null, .text owner]] }]

def relatedOwners : ListOptions where
  steps := [.relate [⟨"owner", ["id"]⟩]]

/-- The number of the owner with a zero before it equals the key of the customer, who is not
attached. -/
theorem list_leaves_owner_of_other_spelling :
    Cell.compare .eq ⟨some .integer, .int 1⟩ (.ofValue (.text "01")) = some true ∧
      ((assets.list ["name"] [] relatedOwners).exec { store := ownedBy "01" }).1.toOption.map
        (fun found => found.records.map fun row => (row.value "owner_id", row.value "owner")) =
          some [(.text "01", .null)] := by
  decide +kernel

def assetOf (owner : String) : Record :=
  .ofList [("name", .text "x"), ("owner_id", .text owner)]

/-- The number of the owner as it is spelled finds the customers of that number. -/
theorem run_attaches_owner_as_spelled :
    ∃ (rows : List Record) (after : Session) (related : Store.Prepared) (found : List Record)
      (attaches : Row → Bool),
      (ownersOfAssets.run [assetOf "1"]).exec { store := ownedBy "1" } = (.ok rows, after) ∧
      rows = [assetOf "1"].map (ownersOfAssets.attach found) ∧
      ownersOfAssets.relatedTo found (assetOf "1") = EagerLoad.rowsWhere related attaches ∧
      ∀ row ∈ related.first.rows, ∀ n, (ownersOfAssets.relatedCell related row).datum = .int n →
        (attaches row = true ↔ "1" = Text.intText n) := by
  have hsound : (((ownedBy "1").prepare false { table := ownersOfAssets.relation.table }
      ownersOfAssets.selectList).toOption.any fun related =>
        decide (related.ShowsOwn "id") &&
        decide (ownersOfAssets.keyAffinity? related = some .integer) &&
        related.first.rows.all fun row =>
          decide ((ownersOfAssets.relatedCell related row).datum = .int 1)) = true := by
    decide +kernel
  have hloaded : ((ownersOfAssets.run [assetOf "1"]).exec
      { store := ownedBy "1" }).1.toOption.isSome = true := by
    decide +kernel
  obtain ⟨related, hrelated, hsound⟩ := (Option.any_eq_true _ _).mp hsound
  obtain ⟨hsound, hrows⟩ := (Bool.and_eq_true _ _).mp hsound
  obtain ⟨hshows, hinteger⟩ := (Bool.and_eq_true _ _).mp hsound
  have hprepared : ({ store := ownedBy "1" } : Session).store.prepare false
      { table := ownersOfAssets.relation.table } ownersOfAssets.selectList = .ok related :=
    Except.of_toOption hrelated
  have hfits : ∀ row ∈ related.first.rows, (ownersOfAssets.relatedCell related row).datum.Fits := by
    intro row hrow n hn
    have hone := of_decide_eq_true (List.all_eq_true.mp hrows row hrow)
    cases hone.symm.trans hn
    decide
  have hvalue : ∀ other ∈ [assetOf "1"],
      other.value ownersOfAssets.relation.parentKey = .text "1" := by
    decide
  rcases hrun : (ownersOfAssets.run [assetOf "1"]).exec { store := ownedBy "1" } with
    ⟨fault | rows, after⟩
  · rw [hrun] at hloaded
    cases hloaded
  · obtain ⟨found, hfound, hall⟩ := EagerLoad.run_attaches_keys_as_spelled
      (show IsPlain ownersOfAssets.relation.relatedKey by decide +kernel) hprepared
      (of_decide_eq_true hshows) (of_decide_eq_true hinteger) hfits hrun
    obtain ⟨attaches, hattached, hspelled⟩ := hall (assetOf "1") (by simp) "1"
      (hvalue _ (by simp)) fun other hother _ => by
        rw [hvalue other hother]
        trivial
    exact ⟨rows, after, related, found, attaches, rfl, hfound, hattached,
      fun row hrow => (hspelled row hrow).2.1⟩

end Shop

end TableQuery
