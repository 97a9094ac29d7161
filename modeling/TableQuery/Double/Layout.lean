import TableQuery.Double.Scaling

namespace TableQuery.Double

/-- The decimal without an exponent. -/
def Decimal.positional (d : Decimal) : List Char :=
  if d.point ≤ 0 then '0' :: '.' :: List.replicate (-d.point).toNat '0' ++ d.digits
  else
    let whole := d.point.toNat
    if d.digits.length ≤ whole then d.digits ++ List.replicate (whole - d.digits.length) '0'
    else d.digits.take whole ++ '.' :: d.digits.drop whole

/-- The decimal without an exponent and with a point in it. -/
def Decimal.positionalPointed (d : Decimal) : List Char :=
  let cs := d.positional
  if cs.contains '.' then cs else cs ++ ['.', '0']

/-- How a number is written with an exponent. -/
structure ExponentForm where
  /-- `1.0e5` where `1e5` would do. -/
  pointAlways : Bool
  /-- The exponent is filled with zeros up to this many digits. -/
  leastDigits : Nat
deriving Repr

/-- One digit before the point and the power of ten behind. -/
def Decimal.scientific (form : ExponentForm) (d : Decimal) : List Char :=
  let tail := d.digits.drop 1
  let tail := if tail.isEmpty then (if form.pointAlways then ['.', '0'] else []) else '.' :: tail
  let power := d.point - 1
  let written := Nat.toDigits 10 power.natAbs
  let filled := List.replicate (form.leastDigits - written.length) '0' ++ written
  d.digits.take 1 ++ tail ++ 'e' :: (if power < 0 then '-' else '+') :: filled

def signed (x : Double) (cs : List Char) : String :=
  String.ofList (if x.negative then '-' :: cs else cs)

/-- The number in JSON text: positional from `1e-5` up to but not including `1e16`. -/
def jsonText (x : Double) : String :=
  let d := shortest .toEven x
  signed x (if -4 ≤ d.point && d.point ≤ 16 then d.positionalPointed else d.scientific ⟨false, 1⟩)

/-- The number in a message: positional always, whole numbers without a point. -/
def plainText (x : Double) : String :=
  if x.finite then signed x (shortest .up x).positional
  else if x.negative then "-inf" else "inf"

/-- The number as a text column keeps it: fifteen digits, positional from `1e-4` up to but not
including `1e15`. -/
def columnText (x : Double) : String :=
  if !x.finite then (if x.negative then "-Inf" else "Inf")
  else if x.significand = 0 then "0.0"
  else
    let d := leadingDigits 15 x
    signed x (if -3 ≤ d.point && d.point ≤ 15 then d.positionalPointed else d.scientific ⟨true, 2⟩)

example : jsonText (ofDecimal false 1 16) = "1e+16" := by decide +kernel
example : jsonText (ofDecimal false 15 (-8)) = "1.5e-7" := by decide +kernel
example : plainText (ofDecimal true 1 (-7)) = "-0.0000001" := by decide +kernel
example : columnText (ofDecimal false 1 15) = "1.0e+15" := by decide +kernel

end TableQuery.Double
