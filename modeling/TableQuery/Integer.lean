namespace TableQuery

/-- The least integer of 64 bits with a sign. -/
def minInt64 : Int :=
  -9223372036854775808

/-- The greatest integer of 64 bits with a sign. -/
def maxInt64 : Int :=
  9223372036854775807

/-- The greatest integer of 64 bits without a sign. -/
def maxNat64 : Int :=
  18446744073709551615

/-- The greatest integer of 32 bits without a sign. -/
def maxNat32 : Int :=
  4294967295

/-- The integers that fit in 64 bits with a sign. -/
def isInt64 (n : Int) : Bool :=
  minInt64 ≤ n && n ≤ maxInt64

theorem isInt64_iff {n : Int} : isInt64 n = true ↔ minInt64 ≤ n ∧ n ≤ maxInt64 := by
  rw [isInt64, Bool.and_eq_true, decide_eq_true_iff, decide_eq_true_iff]

/-- Two to the power `n`. -/
def twoTo (n : Nat) : Nat :=
  Nat.pow 2 n

/-- Ten to the power `n`. -/
def tenTo (n : Nat) : Nat :=
  Nat.pow 10 n

theorem twoTo_succ (n : Nat) : twoTo (n + 1) = twoTo n * 2 :=
  rfl

theorem twoTo_pos (n : Nat) : 0 < twoTo n :=
  Nat.pow_pos (by decide)

example : maxInt64 = twoTo 63 - 1 := rfl
example : maxNat64 = twoTo 64 - 1 := rfl

end TableQuery
