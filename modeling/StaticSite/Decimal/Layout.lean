import StaticSite.Decimal.Shortest

/-!
How the digits of a number are laid out as text. The choices of a format are one record; its
functions hold for all formats.
-/

namespace StaticSite.Decimal

/-- The choices of a number format. -/
structure Layout where
  /-- The least place of the point that is written out with leading zeros, if there is one. -/
  leastPoint : Option Int
  /-- The greatest place of the point that is written out with trailing zeros, if there is one. -/
  greatestPoint : Option Int
  /-- Whether a whole number shows a fraction. -/
  wholeFraction : Bool
  tie : Tie

/-- Digits with the point written out. -/
def positional (layout : Layout) (d : Digits) : List Char :=
  let count : Int := d.digits.length
  if d.point ≤ 0 then "0.".toList ++ List.replicate (-d.point).toNat '0' ++ d.digits
  else if d.point < count then
    d.digits.take d.point.toNat ++ ('.' :: d.digits.drop d.point.toNat)
  else
    d.digits ++ List.replicate (d.point - count).toNat '0' ++
      (if layout.wholeFraction then ".0".toList else [])

/-- Digits with one place before the point and a power of ten behind. -/
def scientific (d : Digits) : List Char :=
  let exponent := d.point - 1
  let fraction := d.digits.drop 1
  d.digits.take 1 ++ (if fraction.isEmpty then [] else '.' :: fraction) ++
    (if exponent < 0 then "e-".toList else "e+".toList) ++ natDigits exponent.natAbs

/-- Whether a place of the point is within the bounds of positional writing. -/
def Layout.isPositional (layout : Layout) (point : Int) : Bool :=
  layout.leastPoint.all (· ≤ point) && layout.greatestPoint.all (point ≤ ·)

/-- The text of a finite number in a format. -/
def Layout.write (layout : Layout) (b : Binary) : List Char :=
  let d := b.shortest layout.tie
  (if b.negative then ['-'] else []) ++
    (if layout.isPositional d.point then positional layout d else scientific d)

end StaticSite.Decimal
