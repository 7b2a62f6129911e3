import StaticSite.Decimal.Binary

/-!
The shortest decimal that reads back as a given binary number. For one digit, two digits, and so on,
the two neighbours of the number on that decimal grid are tried against the interval of reals that
round to it; seventeen digits always suffice.
-/

namespace StaticSite.Decimal

/-- The decimal `0.d₁d₂… · 10 ^ point`, with the digits most significant first. -/
structure Digits where
  digits : List Char
  point : Int
deriving DecidableEq, Repr

/-- Which neighbour wins when both are equally near. -/
inductive Tie
  | up
  | toEven
deriving DecidableEq, Repr

/-- The decimal digits of a natural number. -/
def natDigits (n : Nat) : List Char := Nat.toDigits 10 n

/-- The number of factors of ten by which `numerator / denominator` stays below one. -/
def smallScale (numerator denominator : Nat) : Nat → Nat
  | 0 => 0
  | fuel + 1 =>
    if numerator * 10 < denominator then smallScale (numerator * 10) denominator fuel + 1 else 0

/-- The place of the decimal point before the first digit of `numerator / denominator`. -/
def pointOf (numerator denominator : Nat) : Int :=
  if denominator ≤ numerator then ((natDigits (numerator / denominator)).length : Int)
  else -(smallScale numerator denominator 400 : Int)

/-- The reals `low / denominator` to `high / denominator` around `value / denominator`, with the ends
if `closed`. -/
structure Interval where
  low : Nat
  value : Nat
  high : Nat
  denominator : Nat
  closed : Bool
deriving Repr

/-- The reals that round to a positive binary number: half way to each neighbour, and the ends
themselves if the number is even. -/
def Binary.interval (b : Binary) : Interval :=
  let below := if b.mantissa == Nat.pow 2 52 && leastExponent < b.exponent then 1 else 2
  let scale := Nat.pow 2 b.exponent.toNat
  { low := (4 * b.mantissa - below) * scale
    value := 4 * b.mantissa * scale
    high := (4 * b.mantissa + 2) * scale
    denominator := 4 * Nat.pow 2 (-b.exponent).toNat
    closed := b.mantissa % 2 == 0 }

/-- The multiple of the grid unit that represents the interval's value with `count` digits, if one of
the value's neighbours on that grid lies in the interval. -/
def Interval.onGrid? (i : Interval) (point : Int) (tie : Tie) (count : Nat) : Option Nat :=
  let shift := point - count
  -- multiples of the unit are compared as `multiple * unit` against `bound * scale`
  let unit := Nat.pow 10 shift.toNat * i.denominator
  let scale := Nat.pow 10 (-shift).toNat
  let inside (multiple : Nat) : Bool :=
    let x := multiple * unit
    if i.closed then i.low * scale ≤ x && x ≤ i.high * scale
    else i.low * scale < x && x < i.high * scale
  let lower := i.value * scale / unit
  let upper := lower + 1
  match inside lower, inside upper with
  | false, false => none
  | true, false => some lower
  | false, true => some upper
  | true, true =>
    let toLower := i.value * scale - lower * unit
    let toUpper := upper * unit - i.value * scale
    if toLower < toUpper then some lower
    else if toUpper < toLower then some upper
    else
      match tie with
      | .up => some upper
      | .toEven => if lower % 2 == 0 then some lower else some upper

/-- The first digit count from `count` on with a hit. -/
def Interval.search (i : Interval) (point : Int) (tie : Tie) (count : Nat) : Nat → Nat × Nat
  | 0 => (i.value / i.denominator, count)
  | fuel + 1 =>
    match i.onGrid? point tie count with
    | some multiple => (multiple, count)
    | none => i.search point tie (count + 1) fuel

/-- The digits without the zeros at their end. -/
def stripZeros (digits : List Char) : List Char := (digits.reverse.dropWhile (· == '0')).reverse

/-- The shortest decimal that rounds to the magnitude of a binary number, the nearest of those. -/
def Binary.shortest (b : Binary) (tie : Tie) : Digits :=
  if b.mantissa == 0 then ⟨['0'], 1⟩
  else
    let i := b.interval
    let point := pointOf i.value i.denominator
    let (multiple, count) := i.search point tie 1 17
    let digits := natDigits multiple
    { digits := stripZeros digits
      point := point + ((digits.length : Int) - count) }

end StaticSite.Decimal
