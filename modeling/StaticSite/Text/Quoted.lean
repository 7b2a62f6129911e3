import StaticSite.Text.Printable

/-!
A single character between apostrophes, as error messages show it.
-/

namespace StaticSite.Text

/-- A code point in lower-case hexadecimal, between braces after `\u`. -/
def codePointEscape (c : Char) : List Char :=
  ['\\', 'u', '\x7b'] ++ Nat.toDigits 16 c.toNat ++ ['\x7d']

/-- A character as it stands between apostrophes: those that would be mistaken for something else are
escaped. -/
def quoteBody (c : Char) : List Char :=
  match c with
  | '\x00' => ['\\', '0']
  | '\t' => ['\\', 't']
  | '\r' => ['\\', 'r']
  | '\n' => ['\\', 'n']
  | '\\' => ['\\', '\\']
  | '\'' => ['\\', '\'']
  | c => if isJoining c || !isPrintable c then codePointEscape c else [c]

/-- A character between apostrophes. -/
def quoteChar (c : Char) : String := String.ofList ('\'' :: (quoteBody c ++ ['\'']))

end StaticSite.Text
