import TableQuery.Calendar
import TableQuery.Double.Arithmetic
import TableQuery.Store.Datum
import TableQuery.Text.Ascii

namespace TableQuery

/-- A day of the Gregorian calendar, continued to all years. -/
structure Day where
  year : Int
  month : Nat
  day : Nat
deriving DecidableEq, Repr

namespace Day

/-- Milliseconds of a day. -/
def length : Int :=
  86400000

/-- The first millisecond of a day, counted from noon of the day that numbers of days start with.
Years begin in March here, a month takes 30.6001 days, and parts of centuries are dropped toward the
year zero. -/
def start (d : Day) : Int :=
  let late := d.month ≤ 2
  let year := if late then d.year - 1 else d.year
  let month : Int := if late then d.month + 12 else d.month
  let centuries := year.tdiv 100
  let days := 36525 * (year + 4716) / 100 + 306001 * (month + 1) / 10000 + d.day + 2 - centuries +
    centuries.tdiv 4
  days * length - 1524 * length - length / 2

/-- The day in which a millisecond lies. -/
def ofMillisecond (t : Int) : Day :=
  let n := (t + length / 2) / length
  let centuries := (4 * n + 128179) / 146097 - 52
  let b := n + 1 + centuries - (centuries + 100) / 4 + 25 + 1524
  let c := (20 * b - 2442) / 7305
  let d := 36525 * c / 100
  let e := (b - d) * 10000 / 306001
  let month := if e < 14 then e - 1 else e - 13
  ⟨if 2 < month then c - 4716 else c - 4715, month.toNat, (b - d - 306001 * e / 10000).toNat⟩

/-- The milliseconds that have a day. -/
def inRange (t : Int) : Bool :=
  0 ≤ t && t ≤ 464269060799999

/-- The day as `YYYY-MM-DD`, a minus sign before it where the year is negative. -/
def text (d : Day) : String :=
  let cs := (Date.mk d.year.natAbs d.month d.day).characters
  String.ofList (if d.year < 0 then '-' :: cs else cs)

/-- The day with a number of days, whole or not, since the start of the count. -/
def ofNumber? (x : Double) : Option Day :=
  if 0 ≤ x.units ∧ 2 * x.units < 10746969 * Double.unitsPerOne then
    let half := Double.div .one (.ofInt 2)
    let t := ((x.mul (.ofInt length)).add half).floor
    if inRange t then some (ofMillisecond t) else none
  else none

/-- A time of day with its distance from the standard time in minutes. -/
structure Time where
  minutes : Nat
  seconds : Double
  zone : Int
deriving DecidableEq, Repr

/-- Milliseconds from the start of a day to a time, in standard time. -/
def Time.milliseconds (t : Time) : Int :=
  let half := Double.div .one (.ofInt 2)
  (t.minutes : Int) * 60000 + ((t.seconds.mul (.ofInt 1000)).add half).floor - t.zone * 60000

/-- Two digits that write a number between limits. -/
def pair? (least greatest : Nat) (a b : Char) : Option Nat :=
  (Date.number? [a, b]).filter fun n => least ≤ n && n ≤ greatest

/-- The distance from the standard time, at the end of a text. -/
def zone? (cs : List Char) : Option Int :=
  match cs.dropWhile Datum.isNumberBlank with
  | [] => some 0
  | 'Z' :: rest => if rest.all Datum.isNumberBlank then some 0 else none
  | 'z' :: rest => if rest.all Datum.isNumberBlank then some 0 else none
  | sign :: h₁ :: h₂ :: ':' :: m₁ :: m₂ :: rest => do
    let hours ← pair? 0 14 h₁ h₂
    let minutes ← pair? 0 59 m₁ m₂
    let zone : Int := hours * 60 + minutes
    if !rest.all Datum.isNumberBlank then none
    else if sign = '+' then some zone
    else if sign = '-' then some (-zone)
    else none
  | _ => none

/-- The value of digits behind the point, taken in one after another. -/
def fraction? (digits : List Char) : Option Double :=
  let ten := Double.ofInt 10
  let value := digits.foldl (fun x c =>
    ((x.mul ten).add (.ofInt c.toNat)).sub (.ofInt '0'.toNat)) Double.zero
  let scale := digits.foldl (fun x _ => x.mul ten) Double.one
  if scale.finite then some (value.div scale) else if value.finite then some .zero else none

/-- The seconds behind hours and minutes, and what stands behind. -/
def seconds? : List Char → Option (Double × List Char)
  | ':' :: a :: b :: rest => do
    let whole ← pair? 0 59 a b
    match rest with
    | '.' :: behind =>
      let digits := behind.takeWhile Char.isDigit
      if digits.isEmpty then pure (.ofInt whole, rest)
      else do
        let part ← fraction? digits
        pure ((Double.ofInt whole).add part, behind.drop digits.length)
    | rest => pure (.ofInt whole, rest)
  | ':' :: _ => none
  | rest => some (.zero, rest)

/-- A text that is a time of day. -/
def time? : List Char → Option Time
  | h₁ :: h₂ :: ':' :: m₁ :: m₂ :: rest => do
    let hours ← pair? 0 24 h₁ h₂
    let minutes ← pair? 0 59 m₁ m₂
    let (seconds, rest) ← seconds? rest
    let zone ← zone? rest
    pure ⟨hours * 60 + minutes, seconds, zone⟩
  | _ => none

/-- The day of a time that comes without one. -/
def assumed : Day :=
  ⟨2000, 1, 1⟩

/-- The day of a text `YYYY-MM-DD`, with or without a time behind. A day that every month has stays
as it is written, unless the time is in another zone; any other is counted on. -/
def ofDated? (negative : Bool) : List Char → Option Day
  | y₁ :: y₂ :: y₃ :: y₄ :: '-' :: m₁ :: m₂ :: '-' :: d₁ :: d₂ :: rest => do
    let year ← Date.number? [y₁, y₂, y₃, y₄]
    let month ← pair? 1 12 m₁ m₂
    let day ← pair? 1 31 d₁ d₂
    let rest := rest.dropWhile fun c => Datum.isNumberBlank c || c = 'T'
    let time ← if rest.isEmpty then some ⟨0, .zero, 0⟩ else time? rest
    let written : Day := ⟨if negative then -year else year, month, day⟩
    let t := written.start + time.milliseconds
    if written.year < -4713 || !inRange t then none
    else if time.zone = 0 && day ≤ 28 then some written
    else some (ofMillisecond t)
  | _ => none

/-- The day of a text that holds a time alone. -/
def ofTime? (cs : List Char) : Option Day :=
  (time? cs).bind fun time =>
    let t := assumed.start + time.milliseconds
    if inRange t then some (ofMillisecond t) else none

/-- The words for the present moment. -/
def isNow (s : String) : Bool :=
  Text.sameName s "now" || Text.sameName s "subsec" || Text.sameName s "subsecond"

/-- What a text says of a day: the day, a time, the present, or a number of days. -/
def ofText? (today : Day) (cs : List Char) : Option Day :=
  let dated := match cs with
    | '-' :: rest => ofDated? true rest
    | cs => ofDated? false cs
  let s := String.ofList cs
  match dated <|> ofTime? cs with
  | some day => some day
  | none =>
    if isNow s then some today
    else
      match Datum.number? s with
      | some (.int n) => ofNumber? (.ofInt n)
      | some (.real x) => ofNumber? x
      | _ => none

/-- The day of a cell. -/
def ofDatum? (today : Day) : Datum → Option Day
  | .null => none
  | .int n => ofNumber? (.ofInt n)
  | .real x => ofNumber? x
  | d => ofText? today d.textForm

example : (Day.mk 2024 2 29).start = 2460369 * length + length / 2 := by decide
example : ofMillisecond (Day.mk (-4713) 11 24).start = ⟨-4713, 11, 24⟩ := by decide
example : (ofDated? false "2024-01-31 24:00".toList).map text = some "2024-02-01" := by
  decide +kernel
example : (ofNumber? .zero).map text = some "-4713-11-24" := by decide +kernel

end Day

end TableQuery
