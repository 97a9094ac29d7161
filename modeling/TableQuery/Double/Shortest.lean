import TableQuery.Double.Basic

namespace TableQuery.Double

/-- A positive decimal: the fraction `0.d₁d₂…` times ten to the power `point`. -/
structure Decimal where
  digits : List Char
  point : Int
deriving DecidableEq, Repr

/-- Where an exact tie between two decimals of one length goes. -/
inductive Tie
  | toEven
  | up
deriving DecidableEq, Repr

/-- The decimal `n` times ten to the power `exponent`, without zeros at its end. -/
def Decimal.ofNat (n : Nat) (exponent : Int) : Decimal :=
  let written := Nat.toDigits 10 n
  let kept := (written.reverse.dropWhile (· == '0')).reverse
  ⟨if kept.isEmpty then ['0'] else kept, exponent + written.length⟩

/-- The least `p`, counting up from a given one, with `n < d · 10 ^ p`. -/
def pointAbove (n d : Nat) : Nat → Nat → Nat
  | 0, p => p
  | fuel + 1, p => if n < d * tenTo p then p else pointAbove n d fuel (p + 1)

/-- The least `p` with `n < d · 10 ^ p`; zero or negative for quotients below one. A decimal digit
holds more than a binary one, so the logarithms bound the search. -/
def decimalPoint (n d : Nat) : Int :=
  if d ≤ n then pointAbove n d (Nat.log2 n + 1) 1
  else
    let p := pointAbove d n (Nat.log2 d + 1) 1
    if n * tenTo (p - 1) = d then 2 - p else 1 - p

/-- The decimal of `count` digits nearest to `n / d` among those between `low / d` and `high / d`,
the ends included when `closed`. -/
def nearestOfLength (tie : Tie) (low n high d : Nat) (closed : Bool) (point : Int) (count : Nat) :
    Option Decimal :=
  let exponent := point - count
  let up := tenTo (-exponent).toNat
  let down := tenTo exponent.toNat
  let unit := d * down
  let below := n * up / unit
  let rest := n * up % unit
  let fits (c : Nat) : Bool :=
    if closed then low * up ≤ c * unit && c * unit ≤ high * up
    else low * up < c * unit && c * unit < high * up
  let upper : Bool :=
    if 2 * rest = unit then (match tie with | .up => true | .toEven => below % 2 = 1)
    else unit < 2 * rest
  let first := if upper then below + 1 else below
  let second := if upper then below else below + 1
  if fits first then some (.ofNat first exponent)
  else if fits second then some (.ofNat second exponent)
  else none

/-- The first length from `count` on at which some decimal lies in the interval. -/
def shortestFrom (tie : Tie) (low n high d : Nat) (closed : Bool) (point : Int) : Nat → Nat → Decimal
  | 0, count => .ofNat (n * tenTo (count - point).toNat / (d * tenTo (point - count).toNat)) (point - count)
  | fuel + 1, count =>
    (nearestOfLength tie low n high d closed point count).getD
      (shortestFrom tie low n high d closed point fuel (count + 1))

/-- The fewest digits that no other double is nearer to, and among those of that length the
decimal nearest to `x`. The sign of `x` does not count. Seventeen digits always suffice. -/
def shortest (tie : Tie) (x : Double) : Decimal :=
  let m := x.significand
  if m = 0 then ⟨['0'], 1⟩
  else
    let narrow := x.fraction = 0 && 1 < x.rawExponent
    let two := twoTo x.scale
    let one : Nat := twoTo 1076
    let low := (if narrow then 4 * m - 1 else 4 * m - 2) * two
    let high := (4 * m + 2) * two
    let n := 4 * m * two
    shortestFrom tie low n high one (m % 2 = 0) (decimalPoint n one) 17 1

end TableQuery.Double
