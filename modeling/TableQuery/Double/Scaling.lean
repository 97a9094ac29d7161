import TableQuery.Double.Extended
import TableQuery.Double.Shortest
import TableQuery.Text.Numeral

namespace TableQuery.Double

/-- The digits of a decimal as one integer, with the power of ten that it is to be taken with. -/
structure Gathered where
  digits : Nat
  power : Int
deriving DecidableEq, Repr

namespace Gathered

/-- From here on a further digit might not fit in 64 bits. -/
def full : Nat :=
  (twoTo 64 - 10) / 10

/-- A digit before the point. One for which there is no room counts as zero. -/
def addWhole (g : Gathered) (c : Char) : Gathered :=
  if g.digits < full then ⟨g.digits * 10 + (Text.digit? c).getD 0, g.power⟩
  else ⟨g.digits, g.power + 1⟩

/-- A digit behind the point. One for which there is no room is dropped. -/
def addPart (g : Gathered) (c : Char) : Gathered :=
  if g.digits < full then ⟨g.digits * 10 + (Text.digit? c).getD 0, g.power - 1⟩ else g

/-- The decimal with digits before and behind the point. -/
def ofDigits (whole parts : List Char) : Gathered :=
  parts.foldl addPart (whole.foldl addWhole ⟨0, 0⟩)

/-- Powers of ten taken into the digits as far as there is room. -/
def absorbed : Nat → Gathered → Gathered
  | 0, g => g
  | fuel + 1, g =>
    if 0 < g.power ∧ g.digits < (twoTo 64 - 2048) / 10 then
      absorbed fuel ⟨g.digits * 10, g.power - 1⟩
    else if g.power < 0 ∧ g.digits % 10 = 0 then absorbed fuel ⟨g.digits / 10, g.power + 1⟩
    else g

/-- The double that the decimal stands for, scaled with 64 binary digits. It can be a neighbour of
the nearest one. -/
def toDouble (negative : Bool) (g : Gathered) : Double :=
  if g.digits = 0 then ofMagnitude negative 0
  else
    let g := absorbed 20 g
    if g.power = 0 then ofRatio negative g.digits 1
    else ((Extended.mk g.digits 0).scaled g.power).toDouble negative

end Gathered

/-- An exponent behind a number. Its digits stop to count once it is beyond every double. -/
def exponentOfDigits (digits : List Char) : Nat :=
  digits.foldl (fun e c => if e < 10000 then e * 10 + (Text.digit? c).getD 0 else 10000) 0

/-- The number that digits before and behind the point stand for, times a power of ten. -/
def ofDigits (negative : Bool) (whole parts : List Char) (exponent : Int) : Double :=
  let g := Gathered.ofDigits whole parts
  Gathered.toDouble negative ⟨g.digits, g.power + exponent⟩

/-- The first `count` digits of a number, the last one rounded by the digit behind it. -/
def leadingDigits (count : Nat) (x : Double) : Decimal :=
  if x.significand = 0 then ⟨['0'], 1⟩
  else
    let (scaled, power) := (Extended.ofDouble x).normalised
    let n := scaled.floor
    let excess := (Nat.toDigits 10 n).length - count
    .ofNat ((n / tenTo (excess - 1) + 5) / 10) (power + excess)

example : ofDigits false ['1'] [] (-1) = ⟨0x3fb999999999999a⟩ := by decide +kernel
example : ofDigits false ['1', '8'] [] 308 = infinity := by decide +kernel
example : leadingDigits 15 (ofRatio false 1 3) = ⟨List.replicate 15 '3', 0⟩ := by decide +kernel

end TableQuery.Double
