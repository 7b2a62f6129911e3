import StaticSite.Json.Value
import StaticSite.Decimal.Layout

/-!
The compact text of a value: no spaces, members in the order of their keys, and numbers that read
back as the same kind of number.
-/

namespace StaticSite.Json

/-- Floats always show that they are floats, by a fraction or by a power of ten; the power is used
from `1e16` on and below `1e-5`. -/
def floatLayout : Decimal.Layout :=
  { leastPoint := some (-4), greatestPoint := some 16, wholeFraction := true, tie := .toEven }

/-- The decimal text of an integer. -/
def printInt (i : Int) : List Char :=
  if i < 0 then '-' :: Decimal.natDigits i.natAbs else Decimal.natDigits i.natAbs

def Number.print : Number → List Char
  | .int value => printInt value
  | .float value =>
    match Decimal.Binary.ofFloat? value with
    | some b => floatLayout.write b
    | none => "null".toList

/-- A lower-case hexadecimal digit. -/
def hexDigit (n : Nat) : Char := Nat.digitChar n

/-- What stands for a character between quotes. -/
def printChar (c : Char) : List Char :=
  match c with
  | '"' => ['\\', '"']
  | '\\' => ['\\', '\\']
  | '\n' => ['\\', 'n']
  | '\r' => ['\\', 'r']
  | '\t' => ['\\', 't']
  | '\x08' => ['\\', 'b']
  | '\x0c' => ['\\', 'f']
  | c =>
    if c.toNat < 0x20 then
      ['\\', 'u', '0', '0', hexDigit (c.toNat / 16), hexDigit (c.toNat % 16)]
    else [c]

/-- A string with its quotes. -/
def printString (s : String) : List Char := '"' :: (s.toList.flatMap printChar ++ ['"'])

mutual

def Value.printChars : Value → List Char
  | .null => "null".toList
  | .bool true => "true".toList
  | .bool false => "false".toList
  | .number n => n.print
  | .string s => printString s
  | .array items => '[' :: (Value.printItems items ++ [']'])
  | .object members => '\x7b' :: (Value.printMembers members ++ ['\x7d'])

/-- The items of an array with commas between them. -/
def Value.printItems : List Value → List Char
  | [] => []
  | [item] => item.printChars
  | item :: rest => item.printChars ++ (',' :: Value.printItems rest)

/-- The members of an object with commas between them. -/
def Value.printMembers : List (String × Value) → List Char
  | [] => []
  | [(key, value)] => printString key ++ (':' :: value.printChars)
  | (key, value) :: rest =>
    printString key ++ (':' :: (value.printChars ++ (',' :: Value.printMembers rest)))

end

/-- The compact text of a value. -/
def Value.print (value : Value) : String := String.ofList value.printChars

end StaticSite.Json
