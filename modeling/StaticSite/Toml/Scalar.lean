import StaticSite.Toml.Value
import StaticSite.Decimal.Reading

/-!
Values without quotes: booleans, numbers and moments. A scalar is read from all the characters that can
belong to one, so that nothing may be left of them.
-/

namespace StaticSite.Toml

/-- Whether a character can belong to a scalar. -/
def isScalarChar (c : Char) : Bool :=
  c.isAlphanum || c == '_' || c == '+' || c == '-' || c == '.' || c == ':'

/-- Digits without the single underscores between them. -/
def plainDigits? (base : Nat) : List Char → Option (List Char)
  | [] => none
  | [c] => if Text.isDigitIn base c then some [c] else none
  | c :: '_' :: rest =>
    if Text.isDigitIn base c then (plainDigits? base rest).map (c :: ·) else none
  | c :: rest => if Text.isDigitIn base c then (plainDigits? base rest).map (c :: ·) else none

/-- Decimal digits without leading zeros. -/
def wholeDigits? (cs : List Char) : Option (List Char) :=
  (plainDigits? 10 cs).filter fun digits => digits.length == 1 || digits.head? != some '0'

/-- A sign, if there is one, and whether it is a minus. -/
def splitSign (cs : List Char) : Bool × List Char :=
  match cs with
  | '-' :: rest => (true, rest)
  | '+' :: rest => (false, rest)
  | rest => (false, rest)

def readInteger? (cs : List Char) : Option Int :=
  let based (base : Nat) (rest : List Char) : Option Int :=
    (plainDigits? base rest).bind fun digits => (Text.numeral? base digits).map Int.ofNat
  match cs with
  | '0' :: 'x' :: rest => based 16 rest
  | '0' :: 'o' :: rest => based 8 rest
  | '0' :: 'b' :: rest => based 2 rest
  | cs => do
    let (negative, body) := splitSign cs
    let digits ← wholeDigits? body
    let value := (Decimal.digitsValue digits : Int)
    some (if negative then -value else value)

/-- The digits of an exponent with its sign. Unlike whole parts it may begin with zeros. -/
def readExponent? (cs : List Char) : Option Int := do
  let (negative, body) := splitSign cs
  let digits ← plainDigits? 10 body
  let value := (Decimal.digitsValue digits : Int)
  some (if negative then -value else value)

/-- An unsigned decimal number with a fraction or an exponent. -/
def readWritten? (cs : List Char) : Option Decimal.Written := do
  let isMark (c : Char) : Bool := c == 'e' || c == 'E'
  let mantissa := cs.takeWhile (!isMark ·)
  let power := cs.dropWhile (!isMark ·)
  let exponent ← if power.isEmpty then some 0 else readExponent? (power.drop 1)
  let whole ← wholeDigits? (mantissa.takeWhile (· != '.'))
  match mantissa.dropWhile (· != '.') with
  | [] => if power.isEmpty then none else some ⟨whole, [], exponent⟩
  | _ :: fraction =>
    let fraction ← plainDigits? 10 fraction
    some ⟨whole, fraction, exponent⟩

/-- A float. One that is too large for a finite number is none unless it is written as infinite. -/
def readFloat? (cs : List Char) : Option Float :=
  let (negative, body) := splitSign cs
  let size? : Option Float :=
    if body == "inf".toList then some (1.0 / 0.0)
    else if body == "nan".toList then some (0.0 / 0.0)
    else ((readWritten? body).map Decimal.Written.toFloat).filter Float.isFinite
  size?.map fun size => if negative then -size else size

/-- The value of a whole text without quotes. -/
def readScalar? (cs : List Char) : Option Value :=
  if cs == "true".toList then some (.boolean true)
  else if cs == "false".toList then some (.boolean false)
  else
    (readInteger? cs).map .integer <|> (readFloat? cs).map .float <|>
      (Moment.read? cs).map .moment

/-- The characters of the scalar that a text begins with, and what follows. A date and a time of day may
have a space between them. -/
def scalarSpan (cs : List Char) : List Char × List Char :=
  let first := cs.takeWhile isScalarChar
  let rest := cs.dropWhile isScalarChar
  match (readDate? first), rest with
  | some (_, []), ' ' :: c :: more =>
    if Text.isDigitIn 10 c then
      (first ++ ' ' :: (c :: more).takeWhile isScalarChar, (c :: more).dropWhile isScalarChar)
    else (first, rest)
  | _, _ => (first, rest)

end StaticSite.Toml
