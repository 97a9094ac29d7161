import TableQuery.Double.Basic

namespace TableQuery.Double

/-- The double nearest to a quotient. -/
def ofQuotient (n : Int) (d : Nat) : Double :=
  ofRatio (n < 0) n.natAbs d

def add (x y : Double) : Double :=
  ofQuotient (x.units + y.units) (twoTo 1074)

def sub (x y : Double) : Double :=
  ofQuotient (x.units - y.units) (twoTo 1074)

def mul (x y : Double) : Double :=
  ofQuotient (x.units * y.units) (twoTo 2148)

/-- The quotient by a positive double. -/
def div (x y : Double) : Double :=
  ofQuotient x.units y.units.natAbs

/-- The integer at or below a double. -/
def floor (x : Double) : Int :=
  x.units / unitsPerOne

example : add one one = ofInt 2 := by decide +kernel
example : mul (ofInt 3) (ofInt 7) = ofInt 21 := by decide +kernel
example : div one (ofInt 10) = ⟨0x3fb999999999999a⟩ := by decide +kernel
example : floor (div (ofInt 7) (ofInt 2)) = 3 := by decide +kernel

end TableQuery.Double
