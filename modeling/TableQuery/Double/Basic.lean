import TableQuery.Integer

namespace TableQuery

/-- A floating-point number in the binary64 format, held by its bits. -/
structure Double where
  bits : UInt64
deriving DecidableEq, Repr, Inhabited

namespace Double

def negative (x : Double) : Bool :=
  twoTo 63 ≤ x.bits.toNat

/-- The eleven exponent bits. -/
def rawExponent (x : Double) : Nat :=
  x.bits.toNat / twoTo 52 % twoTo 11

/-- The 52 bits below the exponent. -/
def fraction (x : Double) : Nat :=
  x.bits.toNat % twoTo 52

def finite (x : Double) : Bool :=
  x.rawExponent != 2047

/-- The magnitude is `significand` times two to the power `scale - 1074`. -/
def significand (x : Double) : Nat :=
  if x.rawExponent = 0 then x.fraction else x.fraction + twoTo 52

/-- Numbers without an exponent field share the scale of the smallest exponent. -/
def scale (x : Double) : Nat :=
  x.rawExponent - 1

/-- The value in units of the least positive double. Infinity counts as the next power of two
above every finite double, so the order of these integers is the order of the numbers. -/
def units (x : Double) : Int :=
  let magnitude := x.significand * twoTo x.scale
  if x.negative then -magnitude else magnitude

/-- How many of those units make one. -/
def unitsPerOne : Int :=
  twoTo 1074

/-- The bits of a magnitude with a sign before them. -/
def ofMagnitude (negative : Bool) (bits : Nat) : Double :=
  ⟨UInt64.ofNat (if negative then bits + twoTo 63 else bits)⟩

/-- A quotient rounded to the nearest whole number, a half going to the even neighbour. -/
def roundedQuotient (n d : Nat) : Nat :=
  let q := n / d
  let r := n % d
  if 2 * r < d then q else if d < 2 * r then q + 1 else q + q % 2

/-- The bits of the positive infinity, one above the largest finite magnitude. -/
def infinityBits : Nat :=
  2047 * twoTo 52

/-- The double nearest to `n / d`, ties to even. The exponent is chosen so that the rounded
quotient has 53 digits, or fewer at the smallest exponent. -/
def ofRatio (negative : Bool) (n d : Nat) : Double :=
  if n = 0 then ofMagnitude negative 0
  else
    let top : Int := (Nat.log2 n : Int) - Nat.log2 d
    let shift : Int :=
      if n * twoTo (52 - top).toNat < d * twoTo 52 * twoTo (top - 52).toNat then top - 53 else top - 52
    let shift := max shift (-1074)
    let m := roundedQuotient (n * twoTo (-shift).toNat) (d * twoTo shift.toNat)
    ofMagnitude negative (min ((shift + 1074).toNat * twoTo 52 + m) infinityBits)

def ofInt (n : Int) : Double :=
  ofRatio (n < 0) n.natAbs 1

/-- The double nearest to `digits` times ten to the power `exponent`. Powers beyond the format
are infinite or zero before they are computed. -/
def ofDecimal (negative : Bool) (digits : Nat) (exponent : Int) : Double :=
  if digits = 0 then ofMagnitude negative 0
  else if 400 < exponent then ofMagnitude negative infinityBits
  else if exponent + (Nat.log2 digits : Int) < -1200 then ofMagnitude negative 0
  else ofRatio negative (digits * tenTo exponent.toNat) (tenTo (-exponent).toNat)

def isNaN (x : Double) : Bool :=
  x.rawExponent = 2047 && x.fraction != 0

/-- Two doubles are the same number; both zeros are, and a NaN is no number. -/
def sameNumber (x y : Double) : Bool :=
  !x.isNaN && !y.isNaN && x.units = y.units

/-- The integer a double stands for, when it stands for one. -/
def toInt? (x : Double) : Option Int :=
  if x.finite && x.units % unitsPerOne = 0 then some (x.units / unitsPerOne) else none

def zero : Double :=
  ⟨0⟩

def one : Double :=
  ⟨0x3ff0000000000000⟩

def infinity : Double :=
  ⟨0x7ff0000000000000⟩

/-- The bits in sixteen hexadecimal digits. -/
def hex (x : Double) : String :=
  let digits := Nat.toDigits 16 x.bits.toNat
  String.ofList (List.replicate (16 - digits.length) '0' ++ digits)

example : ofInt 1 = one := by decide
example : ofInt 9007199254740993 = ofInt 9007199254740992 := by decide
example : ofDecimal false 1 (-1) = ⟨0x3fb999999999999a⟩ := by decide
example : ofDecimal false 5 (-324) = ⟨1⟩ := by decide +kernel
example : ofDecimal false 18 308 = infinity := by decide +kernel

end Double

end TableQuery
