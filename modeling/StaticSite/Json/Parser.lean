import StaticSite.Json.Value
import StaticSite.Text.Numeral

/-!
Reading JSON text. A number without fraction and exponent is an integer as far as 64 bits go; every
other number is a float, which has to be finite.
-/

namespace StaticSite.Json

/-- Whether a character may stand between the tokens of JSON text. -/
def isSpace (c : Char) : Bool := c == ' ' || c == '\t' || c == '\n' || c == '\r'

def skipSpace (cs : List Char) : List Char := cs.dropWhile isSpace

/-- The value of four hexadecimal digits and what follows them. -/
def hexQuad? : List Char → Option (Nat × List Char)
  | a :: b :: c :: d :: rest => (Text.numeral? 16 [a, b, c, d]).map fun value => (value, rest)
  | _ => none

/-- One character of a string, after any escape: `none` at the closing quote. -/
def stringStep? (c : Char) (rest : List Char) : Option (Option Char × List Char) :=
  if c == '"' then some (none, rest)
  else if c.toNat < 0x20 then none
  else if c != '\\' then some (some c, rest)
  else
    match rest with
    | '"' :: rest => some (some '"', rest)
    | '\\' :: rest => some (some '\\', rest)
    | '/' :: rest => some (some '/', rest)
    | 'b' :: rest => some (some '\x08', rest)
    | 'f' :: rest => some (some '\x0c', rest)
    | 'n' :: rest => some (some '\n', rest)
    | 'r' :: rest => some (some '\r', rest)
    | 't' :: rest => some (some '\t', rest)
    | 'u' :: rest =>
      match hexQuad? rest with
      | none => none
      | some (high, rest) =>
        if 0xDC00 ≤ high && high ≤ 0xDFFF then none
        else if 0xD800 ≤ high && high ≤ 0xDBFF then
          match rest with
          | '\\' :: 'u' :: rest =>
            match hexQuad? rest with
            | none => none
            | some (low, rest) =>
              if 0xDC00 ≤ low && low ≤ 0xDFFF then
                some (some (Char.ofNat (0x10000 + (high - 0xD800) * 0x400 + (low - 0xDC00))), rest)
              else none
          | _ => none
        else some (some (Char.ofNat high), rest)
    | _ => none

/-- The characters of a string up to its closing quote, and what follows. -/
def readString? : Nat → List Char → Option (List Char × List Char)
  | 0, _ => none
  | _, [] => none
  | fuel + 1, c :: rest =>
    match stringStep? c rest with
    | none => none
    | some (none, rest) => some ([], rest)
    | some (some char, rest) =>
      (readString? fuel rest).map fun (chars, rest) => (char :: chars, rest)

/-- The number that a text begins with, and what follows. -/
def readNumber? (cs : List Char) : Option (Number × List Char) :=
  let (negative, body) :=
    match cs with
    | '-' :: body => (true, body)
    | body => (false, body)
  let whole := body.takeWhile Decimal.isDigit
  let afterWhole := body.dropWhile Decimal.isDigit
  if whole.isEmpty || (1 < whole.length && whole.head? == some '0') then none
  else
    let fraction? : Option (List Char × List Char) :=
      match afterWhole with
      | '.' :: more =>
        let digits := more.takeWhile Decimal.isDigit
        if digits.isEmpty then none else some (digits, more.dropWhile Decimal.isDigit)
      | more => some ([], more)
    match fraction? with
    | none => none
    | some (fraction, rest) =>
      let exponent? : Option (Option Int × List Char) :=
        match rest with
        | e :: _ =>
          if e == 'e' || e == 'E' then (Decimal.exponentPart? rest).map fun (x, r) => (some x, r)
          else some (none, rest)
        | [] => some (none, [])
      match exponent? with
      | none => none
      | some (exponent, rest) =>
        let magnitude : Int := Decimal.digitsValue whole
        let integer := if negative then -magnitude else magnitude
        if fraction.isEmpty && exponent.isNone && (!negative || magnitude != 0) &&
            leastInteger ≤ integer && integer ≤ greatestInteger then
          some (.int integer, rest)
        else
          let f := Decimal.Written.toFloat ⟨whole, fraction, exponent.getD 0⟩
          if f.isFinite then some (.float (if negative then -f else f), rest) else none

/-- What follows a given word, if the text begins with it. -/
def expectWord? (word : String) (cs : List Char) : Option (List Char) :=
  if word.toList.isPrefixOf cs then some (cs.drop word.length) else none

mutual

/-- The value that a text begins with, and what follows. -/
def readValue? : Nat → List Char → Option (Value × List Char)
  | 0, _ => none
  | fuel + 1, cs =>
    match skipSpace cs with
    | '"' :: rest =>
      (readString? (rest.length + 1) rest).map fun (chars, rest) =>
        (.string (String.ofList chars), rest)
    | '[' :: rest =>
      match skipSpace rest with
      | ']' :: rest => some (.array [], rest)
      | rest => (readItems? fuel rest).map fun (items, rest) => (.array items, rest)
    | '\x7b' :: rest =>
      match skipSpace rest with
      | '\x7d' :: rest => some (.object [], rest)
      | rest =>
        (readMembers? fuel rest).map fun (members, rest) =>
          (.object (Fields.ofList members), rest)
    | 'n' :: rest => (expectWord? "ull" rest).map fun rest => (.null, rest)
    | 't' :: rest => (expectWord? "rue" rest).map fun rest => (.bool true, rest)
    | 'f' :: rest => (expectWord? "alse" rest).map fun rest => (.bool false, rest)
    | cs => (readNumber? cs).map fun (n, rest) => (.number n, rest)

/-- The items up to the closing bracket. -/
def readItems? : Nat → List Char → Option (List Value × List Char)
  | 0, _ => none
  | fuel + 1, cs =>
    match readValue? fuel cs with
    | none => none
    | some (item, rest) =>
      match skipSpace rest with
      | ',' :: rest => (readItems? fuel rest).map fun (items, rest) => (item :: items, rest)
      | ']' :: rest => some ([item], rest)
      | _ => none

/-- The members up to the closing brace. -/
def readMembers? : Nat → List Char → Option (List (String × Value) × List Char)
  | 0, _ => none
  | fuel + 1, cs =>
    match skipSpace cs with
    | '"' :: rest =>
      match readString? (rest.length + 1) rest with
      | none => none
      | some (key, rest) =>
        match skipSpace rest with
        | ':' :: rest =>
          match readValue? fuel rest with
          | none => none
          | some (value, rest) =>
            match skipSpace rest with
            | ',' :: rest =>
              (readMembers? fuel rest).map fun (members, rest) =>
                ((String.ofList key, value) :: members, rest)
            | '\x7d' :: rest => some ([(String.ofList key, value)], rest)
            | _ => none
        | _ => none
    | _ => none

end

/-- The value of a JSON text. -/
def Value.parse? (text : String) : Option Value :=
  let cs := text.toList
  match readValue? (2 * cs.length + 2) cs with
  | some (value, rest) => if (skipSpace rest).isEmpty then some value else none
  | none => none

end StaticSite.Json
