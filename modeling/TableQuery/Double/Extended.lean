import TableQuery.Double.Basic

namespace TableQuery

/-- A number of 64 binary digits: `significand` times two to the power `exponent`. It is what
decimals are scaled with on their way to a double and back. -/
structure Extended where
  significand : Nat
  exponent : Int
deriving DecidableEq, Repr, Inhabited

namespace Extended

/-- `n` times two to the power `exponent`, with 64 digits kept, ties to even. -/
def rounded (n : Nat) (exponent : Int) : Extended :=
  let excess := Nat.log2 n - 63
  if excess = 0 then ⟨n, exponent⟩
  else ⟨Double.roundedQuotient n (twoTo excess), exponent + excess⟩

def ofDouble (x : Double) : Extended :=
  ⟨x.significand, (x.scale : Int) - 1074⟩

def mul (a b : Extended) : Extended :=
  rounded (a.significand * b.significand) (a.exponent + b.exponent)

def powerOfTen (n : Nat) : Extended :=
  rounded (tenTo n) 0

/-- One by a power of ten. The shift leaves 64 digits before the point. -/
def inverseOfTen (n : Nat) : Extended :=
  let shift := Nat.log2 (tenTo n) + 64
  ⟨Double.roundedQuotient (twoTo shift) (tenTo n), -shift⟩

def le (a b : Extended) : Bool :=
  let low := min a.exponent b.exponent
  a.significand * twoTo (a.exponent - low).toNat ≤ b.significand * twoTo (b.exponent - low).toNat

/-- The number without its fraction. -/
def floor (x : Extended) : Nat :=
  x.significand * twoTo x.exponent.toNat / twoTo (-x.exponent).toNat

/-- The factors of one step of scaling. -/
structure Steps where
  hundred : Extended
  ten : Extended
  one : Extended

/-- Steps toward larger numbers. -/
def upward : Steps :=
  ⟨powerOfTen 100, powerOfTen 10, powerOfTen 1⟩

/-- Steps toward smaller numbers. -/
def downward : Steps :=
  ⟨inverseOfTen 100, inverseOfTen 10, inverseOfTen 1⟩

def times (factor : Extended) : Nat → Extended → Extended
  | 0, x => x
  | n + 1, x => times factor n (x.mul factor)

/-- The number times ten to the power `exponent`, by the largest steps first. Each step rounds. -/
def scaled (x : Extended) (exponent : Int) : Extended :=
  let steps := if exponent < 0 then downward else upward
  let n := exponent.natAbs
  times steps.one (n % 10) (times steps.ten (n / 10 % 10) (times steps.hundred (n / 100) x))

/-- The largest finite double. -/
def greatestDouble : Extended :=
  ⟨twoTo 53 - 1, 971⟩

/-- The nearest double; beyond the largest one infinity. -/
def toDouble (negative : Bool) (x : Extended) : Double :=
  if x.le greatestDouble then
    Double.ofRatio negative (x.significand * twoTo x.exponent.toNat) (twoTo (-x.exponent).toNat)
  else Double.ofMagnitude negative Double.infinityBits

/-- A number, and how many powers of ten it was divided by. -/
abbrev Scaled := Extended × Int

/-- Steps down while the number is not below a limit. -/
def lowered (limit factor : Extended) (power : Int) : Nat → Scaled → Scaled
  | 0, s => s
  | fuel + 1, (x, n) =>
    if limit.le x then lowered limit factor power fuel (x.mul factor, n + power) else (x, n)

/-- Steps up while the number is below a limit. -/
def raised (limit factor : Extended) (power : Int) : Nat → Scaled → Scaled
  | 0, s => s
  | fuel + 1, (x, n) =>
    if limit.le x then (x, n) else raised limit factor power fuel (x.mul factor, n - power)

/-- The number brought to 18 or 19 digits before the point. No double takes more than twelve steps
of one kind. -/
def normalised (x : Extended) : Scaled :=
  if (powerOfTen 19).le x then
    lowered (powerOfTen 19) downward.one 1 12
      (lowered (powerOfTen 29) downward.ten 10 12
        (lowered (powerOfTen 119) downward.hundred 100 12 (x, 0)))
  else
    raised (powerOfTen 17) upward.one 1 12
      (raised (powerOfTen 7) upward.ten 10 12
        (raised (inverseOfTen 97) upward.hundred 100 12 (x, 0)))

example : (powerOfTen 19).significand = tenTo 19 := by decide
example : (normalised (ofDouble Double.one)).1.floor = tenTo 17 := by decide +kernel

end Extended

end TableQuery
