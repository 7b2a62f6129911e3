/-!
Finite binary numbers of 53 bits as a sign, a natural number and a power of two, and the two exact
operations that the program needs on them: testing for integers, and the remainder of division.
-/

namespace StaticSite.Decimal

/-- The number `±mantissa · 2 ^ exponent`. -/
structure Binary where
  negative : Bool
  mantissa : Nat
  exponent : Int
deriving DecidableEq, Repr

/-- The least exponent of a binary number. -/
def leastExponent : Int := -1074

/-- A finite number taken apart; `none` for an infinity and for what is no number. -/
def Binary.ofFloat? (f : Float) : Option Binary :=
  let bits : Nat := f.toBits.toNat
  let fraction : Nat := bits % Nat.pow 2 52
  let biased : Nat := bits / Nat.pow 2 52 % Nat.pow 2 11
  let negative := bits / Nat.pow 2 63 == 1
  if biased == 2047 then none
  else if biased == 0 then some ⟨negative, fraction, leastExponent⟩
  else some ⟨negative, Nat.pow 2 52 + fraction, (biased : Int) - 1075⟩

/-- The number put together again. It has to have at most 53 bits above the least exponent. -/
def Binary.toFloat (b : Binary) : Float :=
  let sign : Nat := if b.negative then Nat.pow 2 63 else 0
  let room := min (52 - b.mantissa.log2) (b.exponent - leastExponent).toNat
  let mantissa := b.mantissa * Nat.pow 2 room
  let exponent := b.exponent - room
  let bits :=
    if mantissa < Nat.pow 2 52 then mantissa
    else (exponent + 1075).toNat * Nat.pow 2 52 + (mantissa - Nat.pow 2 52)
  Float.ofBits (UInt64.ofNat (sign + bits))

/-- The integer that a binary number is, if it is one. -/
def Binary.toInt? (b : Binary) : Option Int :=
  let signed (n : Nat) : Int := if b.negative then -(n : Int) else n
  if 0 ≤ b.exponent then some (signed (b.mantissa * Nat.pow 2 b.exponent.toNat))
  else
    let unit := Nat.pow 2 (-b.exponent).toNat
    if b.mantissa % unit == 0 then some (signed (b.mantissa / unit)) else none

/-- The integer that a float is, if it is one. -/
def toInt? (f : Float) : Option Int := (Binary.ofFloat? f).bind Binary.toInt?

/-- The remainder of a division whose quotient is cut off toward zero. It is exact and has the sign
of the dividend. -/
def remainder (dividend divisor : Float) : Float :=
  match Binary.ofFloat? dividend, Binary.ofFloat? divisor with
  | some x, some y =>
    if y.mantissa == 0 then 0.0 / 0.0
    else
      let exponent := min x.exponent y.exponent
      let left := x.mantissa * Nat.pow 2 (x.exponent - exponent).toNat
      let right := y.mantissa * Nat.pow 2 (y.exponent - exponent).toNat
      Binary.toFloat ⟨x.negative, left % right, exponent⟩
  | some _, none => if divisor.isNaN then divisor else dividend
  | none, _ => 0.0 / 0.0

end StaticSite.Decimal
