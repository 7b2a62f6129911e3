import StaticSite.Text.Numeral

/-!
Text between quotes. Quotation marks allow escapes, apostrophes do not; three of either go over several
lines. Each reader starts behind the opening quotes and gives the characters and what follows the closing
quotes.
-/

namespace StaticSite.Toml

/-- Whether a character may stand in a line of text or in a comment. -/
def isPlain (c : Char) : Bool := c == '\t' || (0x20 ≤ c.toNat && c.toNat != 0x7F)

/-- The character of a code point in hexadecimal digits. -/
def codePoint? (digits : List Char) : Option Char := do
  let value ← Text.numeral? 16 digits
  if value.isValidChar then some (Char.ofNat value) else none

/-- The character of a code point in exactly so many hexadecimal digits, and what follows. -/
def codePointOf? (width : Nat) (cs : List Char) : Option (Char × List Char) :=
  if cs.length < width then none
  else (codePoint? (cs.take width)).map fun c => (c, cs.drop width)

/-- The character that an escape stands for, from behind its backslash. -/
def escape? (cs : List Char) : Option (Char × List Char) :=
  match cs with
  | 'b' :: rest => some ('\x08', rest)
  | 't' :: rest => some ('\t', rest)
  | 'n' :: rest => some ('\n', rest)
  | 'f' :: rest => some ('\x0c', rest)
  | 'r' :: rest => some ('\r', rest)
  | 'e' :: rest => some ('\x1b', rest)
  | '"' :: rest => some ('"', rest)
  | '\\' :: rest => some ('\\', rest)
  | 'x' :: rest => codePointOf? 2 rest
  | 'u' :: rest => codePointOf? 4 rest
  | 'U' :: rest => codePointOf? 8 rest
  | _ => none

/-- Text in a line up to a closing quotation mark. -/
def readEscaped? : Nat → List Char → Option (List Char × List Char)
  | 0, _ => none
  | _, [] => none
  | fuel + 1, c :: rest =>
    if c == '"' then some ([], rest)
    else if c == '\\' then do
      let (c, rest) ← escape? rest
      let (chars, rest) ← readEscaped? fuel rest
      some (c :: chars, rest)
    else if isPlain c then (readEscaped? fuel rest).map fun (chars, rest) => (c :: chars, rest)
    else none

/-- Text in a line up to a closing apostrophe. -/
def readLiteral? (cs : List Char) : Option (List Char × List Char) :=
  let text := cs.takeWhile (· != '\'')
  match cs.dropWhile (· != '\'') with
  | [] => none
  | _ :: rest => if text.all isPlain then some (text, rest) else none

/-- What follows the end of a line at the start of a text, if there is one. -/
def lineEnd? : List Char → Option (List Char)
  | '\n' :: rest => some rest
  | '\r' :: '\n' :: rest => some rest
  | _ => none

/-- What follows spaces, tabs and line ends. -/
def skipLines : List Char → List Char
  | '\r' :: '\n' :: rest => skipLines rest
  | c :: rest => if c == ' ' || c == '\t' || c == '\n' then skipLines rest else c :: rest
  | [] => []

/-- What follows a backslash at the end of a line: it joins the line to the next text. -/
def joined? (cs : List Char) : Option (List Char) :=
  (lineEnd? (cs.dropWhile fun c => c == ' ' || c == '\t')).map skipLines

/-- The quotes that belong to the text and what follows the closing quotes, where a text has a run of
quotes. Up to two may stand before the closing three. -/
def closing? (quote : Char) (cs : List Char) : Option (List Char × List Char) :=
  let run := ((cs.takeWhile (· == quote)).take 5).length
  if run < 3 then none else some (List.replicate (run - 3) quote, cs.drop run)

/-- Text over several lines up to three closing quotes. -/
def readLines? (quote : Char) (escapes : Bool) : Nat → List Char → Option (List Char × List Char)
  | 0, _ => none
  | _, [] => none
  | fuel + 1, c :: rest =>
    let keep (rest : List Char) : Option (List Char × List Char) :=
      (readLines? quote escapes fuel rest).map fun (chars, rest) => (c :: chars, rest)
    if c == quote then
      match closing? quote (c :: rest) with
      | some ending => some ending
      | none => keep rest
    else if escapes && c == '\\' then
      match joined? rest with
      | some rest => readLines? quote escapes fuel rest
      | none => do
        let (c, rest) ← escape? rest
        let (chars, rest) ← readLines? quote escapes fuel rest
        some (c :: chars, rest)
    else if isPlain c || (lineEnd? (c :: rest)).isSome then keep rest
    else none

/-- Text between quotes at the start of a text. A line end right behind three opening quotes is not part
of the text. -/
def readQuoted? (cs : List Char) : Option (List Char × List Char) :=
  let block (quote : Char) (escapes : Bool) (rest : List Char) :
      Option (List Char × List Char) :=
    readLines? quote escapes (rest.length + 1) ((lineEnd? rest).getD rest)
  match cs with
  | '"' :: '"' :: '"' :: rest => block '"' true rest
  | '\'' :: '\'' :: '\'' :: rest => block '\'' false rest
  | '"' :: rest => readEscaped? (rest.length + 1) rest
  | '\'' :: rest => readLiteral? rest
  | _ => none

end StaticSite.Toml
