/-!
Numbers from decimal text. All readers share one conversion, which rounds to the nearest binary
number.
-/

namespace StaticSite.Decimal

/-- Whether a character is an ASCII decimal digit. -/
def isDigit (c : Char) : Bool := '0' ≤ c && c ≤ '9'

/-- The value of a string of decimal digits. -/
def digitsValue (digits : List Char) : Nat :=
  digits.foldl (fun n c => n * 10 + (c.toNat - '0'.toNat)) 0

/-- The binary number nearest to `digits · 10 ^ exponent`. Far outside the range of binary numbers the
power of ten is not computed: the result is infinite or zero there. -/
def nearest (digits : Nat) (exponent : Int) : Float :=
  if digits == 0 then 0.0
  else
    let magnitude := ((Nat.toDigits 10 digits).length : Int) + exponent
    if 400 < magnitude then 1.0 / 0.0
    else if magnitude < -400 then 0.0
    else Float.ofScientific digits (exponent < 0) exponent.natAbs

/-- The parts of an unsigned decimal number as it is written. -/
structure Written where
  whole : List Char
  fraction : List Char
  exponent : Int

/-- The number that was written. -/
def Written.toFloat (w : Written) : Float :=
  nearest (digitsValue (w.whole ++ w.fraction)) (w.exponent - w.fraction.length)

/-- An exponent part `e`, an optional sign and digits, if the text begins with one. -/
def exponentPart? (cs : List Char) : Option (Int × List Char) :=
  match cs with
  | [] => none
  | e :: rest =>
    if e != 'e' && e != 'E' then none
    else
      let (negative, body) :=
        match rest with
        | '+' :: body => (false, body)
        | '-' :: body => (true, body)
        | body => (false, body)
      let digits := body.takeWhile isDigit
      if digits.isEmpty then none
      else
        let value : Int := digitsValue digits
        some (if negative then -value else value, body.dropWhile isDigit)

/-- A whole text read as a decimal number: a sign if any, digits with a point anywhere among them,
and an exponent part if any. -/
def readFloat? (cs : List Char) : Option Float :=
  let (negative, body) :=
    match cs with
    | '+' :: body => (false, body)
    | '-' :: body => (true, body)
    | body => (false, body)
  let whole := body.takeWhile isDigit
  let afterWhole := body.dropWhile isDigit
  let (fraction, afterFraction) :=
    match afterWhole with
    | '.' :: more => (more.takeWhile isDigit, more.dropWhile isDigit)
    | more => ([], more)
  if whole.isEmpty && fraction.isEmpty then none
  else
    let exponent? :=
      if afterFraction.isEmpty then some (0 : Int)
      else
        match exponentPart? afterFraction with
        | some (value, []) => some value
        | _ => none
    exponent?.map fun exponent =>
      let f := Written.toFloat ⟨whole, fraction, exponent⟩
      if negative then -f else f

/-- A whole text read as an integer: a sign if any and digits. -/
def readInt? (cs : List Char) : Option Int :=
  let (negative, body) :=
    match cs with
    | '+' :: body => (false, body)
    | '-' :: body => (true, body)
    | body => (false, body)
  if body.isEmpty || !body.all isDigit then none
  else
    let value : Int := digitsValue body
    some (if negative then -value else value)

end StaticSite.Decimal
