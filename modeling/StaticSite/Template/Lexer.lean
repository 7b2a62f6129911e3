import StaticSite.Template.Token
import StaticSite.Text.Blank
import StaticSite.Text.Numeral
import StaticSite.Decimal.Reading

/-!
Cutting code into tokens. One step looks at the first character of the remaining code and says how many
of the characters behind it belong to the same lexeme; positions follow from the lengths of lexemes.
The same tokens serve the literals of front matter, which is why strings may have either quote, numbers
may be hexadecimal, and comments are allowed.
-/

namespace StaticSite.Template

/-- What a lexeme is: a token, or nothing if it only separates tokens, and the number of characters
after its first one. -/
structure Lexeme where
  token : Option Token
  more : Nat

/-- A problem in a lexeme, and its byte offset from the beginning of the lexeme. -/
structure LexemeError where
  offset : Nat
  problem : Problem

def isLetter (c : Char) : Bool := ('a' ≤ c && c ≤ 'z') || ('A' ≤ c && c ≤ 'Z')

def isWordStart (c : Char) : Bool := c == '_' || c == '$' || isLetter c

def isWordPart (c : Char) : Bool := isWordStart c || Decimal.isDigit c

/-- The number of characters before the first `*/`, if there is one. -/
def commentEnd? : List Char → Option Nat
  | '*' :: '/' :: _ => some 0
  | _ :: rest => (commentEnd? rest).map (· + 1)
  | [] => none

/-- The character that an escape other than `\u` stands for, if it stands for any. -/
def escaped (c : Char) : List Char :=
  match c with
  | 'n' => ['\n']
  | 't' => ['\t']
  | 'r' => ['\r']
  | 'b' => ['\x08']
  | 'f' => ['\x0c']
  | '0' => ['\x00']
  | '\n' => []
  | c => [c]

/-- The character that four characters after `\u` stand for: hexadecimal digits, the first of which may
be a plus sign instead, that name a character. -/
def unicodeEscape? (a b c d : Char) : Option Char := do
  let value ← Text.numeral? 16 (if a = '+' then [b, c, d] else [a, b, c, d])
  if value.isValidChar then some (Char.ofNat value) else none

/-- A string from behind its opening quote: its characters, and how many characters of the source it
takes up to and with the closing quote. `offset` counts the bytes since the opening quote. -/
def stringBody (quote : Char) (offset : Nat) : List Char → Except LexemeError (List Char × Nat)
  | [] => .error ⟨0, .unterminatedString⟩
  | '\\' :: 'u' :: a :: b :: c :: d :: rest =>
    match unicodeEscape? a b c d with
    | none => .error ⟨offset, .invalidUnicodeEscape⟩
    | some char => do
      let (chars, width) ← stringBody quote (offset + 6) rest
      .ok (char :: chars, width + 6)
  | '\\' :: 'u' :: _ => .error ⟨offset, .invalidUnicodeEscape⟩
  | '\\' :: e :: rest => do
    let (chars, width) ← stringBody quote (offset + 1 + e.utf8Size) rest
    .ok (escaped e ++ chars, width + 2)
  | c :: rest =>
    if c = '\\' || c = '\n' then .error ⟨0, .unterminatedString⟩
    else if c = quote then .ok ([], 1)
    else do
      let (chars, width) ← stringBody quote (offset + c.utf8Size) rest
      .ok (c :: chars, width + 1)

/-- A hexadecimal number from behind its `0x`. It has to fit 64 bits. -/
def hexNumber (rest : List Char) : Except LexemeError Lexeme :=
  let digits := rest.takeWhile (Text.isDigitIn 16)
  match Text.numeral? 16 digits with
  | some value =>
    if digits.isEmpty || Nat.pow 2 64 ≤ value then .error ⟨0, .invalidHexNumber⟩
    else .ok ⟨some (.number (Decimal.nearest value 0)), digits.length + 1⟩
  | none => .error ⟨0, .invalidHexNumber⟩

/-- A decimal number: digits, a fraction if any, and an exponent if any. A point or an `e` without digits
behind it is not part of the number, and no letter may follow. -/
def decimalNumber (cs : List Char) : Except LexemeError Lexeme :=
  let whole := cs.takeWhile Decimal.isDigit
  let rest := cs.dropWhile Decimal.isDigit
  let fraction :=
    match rest with
    | '.' :: more => more.takeWhile Decimal.isDigit
    | _ => []
  let rest := if fraction.isEmpty then rest else rest.drop (fraction.length + 1)
  let (exponent, rest) := (Decimal.exponentPart? rest).getD (0, rest)
  let width := cs.length - rest.length
  if rest.head?.any fun c => c == '_' || isLetter c then .error ⟨width, .identifierAfterNumber⟩
  else .ok ⟨some (.number (Decimal.Written.toFloat ⟨whole, fraction, exponent⟩)), width - 1⟩

/-- The symbol that a character and those behind it begin with, the longest there is. -/
def symbol? (c : Char) (rest : List Char) : Option (Symbol × Nat) :=
  match c, rest with
  | '=', '=' :: '=' :: _ => some (.equal, 2)
  | '!', '=' :: '=' :: _ => some (.notEqual, 2)
  | '=', '=' :: _ => some (.equal, 1)
  | '!', '=' :: _ => some (.notEqual, 1)
  | '<', '=' :: _ => some (.lessEqual, 1)
  | '>', '=' :: _ => some (.greaterEqual, 1)
  | '&', '&' :: _ => some (.andAnd, 1)
  | '|', '|' :: _ => some (.orOr, 1)
  | '(', _ => some (.openParen, 0)
  | ')', _ => some (.closeParen, 0)
  | '[', _ => some (.openBracket, 0)
  | ']', _ => some (.closeBracket, 0)
  | '\x7b', _ => some (.openBrace, 0)
  | '\x7d', _ => some (.closeBrace, 0)
  | ',', _ => some (.comma, 0)
  | ':', _ => some (.colon, 0)
  | ';', _ => some (.semicolon, 0)
  | '.', _ => some (.dot, 0)
  | '?', _ => some (.question, 0)
  | '=', _ => some (.assign, 0)
  | '<', _ => some (.less, 0)
  | '>', _ => some (.greater, 0)
  | '+', _ => some (.plus, 0)
  | '-', _ => some (.minus, 0)
  | '*', _ => some (.star, 0)
  | '/', _ => some (.slash, 0)
  | '%', _ => some (.percent, 0)
  | '!', _ => some (.bang, 0)
  | _, _ => none

/-- The token that a word is. -/
def wordToken (word : String) : Token :=
  match Keyword.ofWord? word with
  | some keyword => .keyword keyword
  | none => .identifier word

/-- The lexeme at the beginning of the code `c :: rest`. -/
def lexeme (c : Char) (rest : List Char) : Except LexemeError Lexeme :=
  if c == ' ' || c == '\t' || c == '\r' || c == '\n' then .ok ⟨none, 0⟩
  else if c == '/' && rest.head? == some '/' then
    .ok ⟨none, (rest.takeWhile (· != '\n')).length⟩
  else if c == '/' && rest.head? == some '*' then
    match commentEnd? (rest.drop 1) with
    | some width => .ok ⟨none, width + 3⟩
    | none => .error ⟨0, .unterminatedComment⟩
  else if c == '"' || c == '\'' then do
    let (chars, width) ← stringBody c 1 rest
    .ok ⟨some (.string (String.ofList chars)), width⟩
  else if c == '0' && (rest.head? == some 'x' || rest.head? == some 'X') then
    hexNumber (rest.drop 1)
  else if Decimal.isDigit c || (c == '.' && rest.head?.any Decimal.isDigit) then
    decimalNumber (c :: rest)
  else if isWordStart c then
    let part := rest.takeWhile isWordPart
    .ok ⟨some (wordToken (String.ofList (c :: part))), part.length⟩
  else
    match symbol? c rest with
    | some (symbol, more) => .ok ⟨some (.symbol symbol), more⟩
    | none => .error ⟨0, .unexpectedCharacter c⟩

/-- The tokens of code that begins at byte `position` of the source. -/
def lexFrom (position : Nat) : List Char → Except SyntaxError (List Placed)
  | [] => .ok []
  | c :: rest =>
    match lexeme c rest with
    | .error error => .error ⟨position + error.offset, error.problem⟩
    | .ok lexeme =>
      let next := position + c.utf8Size + Text.byteLength (rest.take lexeme.more)
      match lexFrom next (rest.drop lexeme.more) with
      | .error error => .error error
      | .ok tokens =>
        match lexeme.token with
        | some token => .ok (⟨token, position⟩ :: tokens)
        | none => .ok tokens
termination_by code => code.length
decreasing_by
  simp only [List.length_drop, List.length_cons]
  omega

end StaticSite.Template
