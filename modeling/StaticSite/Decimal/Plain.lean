import StaticSite.Decimal.Layout

/-!
The text of a float as people write numbers: without a power of ten, however large or small it is.
-/

namespace StaticSite.Decimal

/-- All digits are written out, and whole numbers show no fraction. -/
def plainLayout : Layout :=
  { leastPoint := none, greatestPoint := none, wholeFraction := false, tie := .up }

/-- The text of any float, finite or not. -/
def plainText (f : Float) : String :=
  match Binary.ofFloat? f with
  | some b => String.ofList (plainLayout.write b)
  | none => if f.isNaN then "NaN" else if f < 0 then "-inf" else "inf"

end StaticSite.Decimal
