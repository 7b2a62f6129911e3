import StaticSite.Decimal.Plain
import StaticSite.Json.Printer
import StaticSite.Text.Quoted

/-!
The tokens of a template: those of the code between markers, and those that stand for the text around
the code. Also the errors that a source can have, each with its message.
-/

namespace StaticSite.Template

/-- The words that are no identifiers. -/
inductive Keyword
  | letWord
  | ifWord
  | elseWord
  | forWord
  | inWord
  | trueWord
  | falseWord
  | nullWord
deriving DecidableEq, Repr

inductive Symbol
  | openParen
  | closeParen
  | openBracket
  | closeBracket
  | openBrace
  | closeBrace
  | comma
  | colon
  | semicolon
  | dot
  | question
  | assign
  | equal
  | notEqual
  | less
  | lessEqual
  | greater
  | greaterEqual
  | plus
  | minus
  | star
  | slash
  | percent
  | bang
  | andAnd
  | orOr
deriving DecidableEq, Repr

inductive Token
  | identifier (name : String)
  | number (value : Float)
  | string (value : String)
  | keyword (word : Keyword)
  | symbol (kind : Symbol)
  /-- Text between two code spans. -/
  | text (content : String)
  /-- The beginning of a span that writes the value of an expression. -/
  | echo
  | spanEnd
  | finish

/-- A token and the byte offset at which it begins in the template source. -/
structure Placed where
  token : Token
  position : Nat

def Keyword.text : Keyword → String
  | .letWord => "let"
  | .ifWord => "if"
  | .elseWord => "else"
  | .forWord => "for"
  | .inWord => "in"
  | .trueWord => "true"
  | .falseWord => "false"
  | .nullWord => "null"

/-- The keyword that a word is. Some keywords have several spellings. -/
def Keyword.ofWord? : String → Option Keyword
  | "let" | "const" | "var" => some .letWord
  | "if" => some .ifWord
  | "else" => some .elseWord
  | "for" => some .forWord
  | "in" | "of" => some .inWord
  | "true" => some .trueWord
  | "false" => some .falseWord
  | "null" | "undefined" => some .nullWord
  | _ => none

def Symbol.text : Symbol → String
  | .openParen => "("
  | .closeParen => ")"
  | .openBracket => "["
  | .closeBracket => "]"
  | .openBrace => "\x7b"
  | .closeBrace => "\x7d"
  | .comma => ","
  | .colon => ":"
  | .semicolon => ";"
  | .dot => "."
  | .question => "?"
  | .assign => "="
  | .equal => "=="
  | .notEqual => "!="
  | .less => "<"
  | .lessEqual => "<="
  | .greater => ">"
  | .greaterEqual => ">="
  | .plus => "+"
  | .minus => "-"
  | .star => "*"
  | .slash => "/"
  | .percent => "%"
  | .bang => "!"
  | .andAnd => "&&"
  | .orOr => "||"

/-- A text between backquotes. -/
def backquoted (text : String) : String := "\x60" ++ text ++ "\x60"

/-- How an error message names a token. -/
def Token.describe : Token → String
  | .identifier name => "identifier " ++ backquoted name
  | .number value => "number " ++ Decimal.plainText value
  | .string _ => "string"
  | .keyword word => backquoted word.text
  | .symbol s => backquoted s.text
  | .text _ => "template text"
  | .echo => backquoted "<?="
  | .spanEnd => backquoted "?>"
  | .finish => "end of template"

/-- What is wrong with a source. -/
inductive Problem
  | unterminatedComment
  | unterminatedString
  | invalidUnicodeEscape
  | invalidHexNumber
  | identifierAfterNumber
  | unexpectedCharacter (c : Char)
  | expected (wanted : String) (found : Token)
  | unclosedBrace
  | includeArguments
  | includeInExpression
  | assignmentToExpression
  | callOfExpression
  | notFinite (value : Float)
  | minusBeforeNonNumber
  | identifierInLiteral (name : String)
  | codeInLiteral
  /-- The source nests deeper than the parser was prepared for. -/
  | tooDeep

/-- The message for a number that is out of range. -/
def notFiniteMessage (value : Float) : String :=
  "arithmetic produced a non-finite number (" ++ Decimal.plainText value ++ ")"

def Problem.message : Problem → String
  | .unterminatedComment => "unterminated comment"
  | .unterminatedString => "unterminated string"
  | .invalidUnicodeEscape => "invalid unicode escape"
  | .invalidHexNumber => "invalid hex number"
  | .identifierAfterNumber => "identifier directly after number"
  | .unexpectedCharacter c => "unexpected character " ++ Text.quoteChar c
  | .expected wanted found => "expected " ++ wanted ++ ", found " ++ found.describe
  | .unclosedBrace => "unclosed " ++ backquoted "\x7b"
  | .includeArguments => "include() takes a path and an optional environment"
  | .includeInExpression => "include() must be used as a statement"
  | .assignmentToExpression => "only plain variables can be assigned"
  | .callOfExpression => "only named functions can be called"
  | .notFinite value => notFiniteMessage value
  | .minusBeforeNonNumber => backquoted "-" ++ " only applies to numbers"
  | .identifierInLiteral name =>
    "unexpected identifier " ++ backquoted name ++ "; only literal values are allowed"
  | .codeInLiteral => "only literal values are allowed"
  | .tooDeep => "nested too deeply"

/-- A problem and the byte offset of the source at which it shows. -/
structure SyntaxError where
  position : Nat
  problem : Problem

end StaticSite.Template
