/-!
Escaping text for markup: the five characters with a meaning of their own in HTML and XML.
-/

namespace StaticSite.Text

/-- What stands for a character in escaped text. -/
def escapeChar (c : Char) : List Char :=
  match c with
  | '&' => "&amp;".toList
  | '<' => "&lt;".toList
  | '>' => "&gt;".toList
  | '"' => "&#34;".toList
  | '\'' => "&#39;".toList
  | c => [c]

/-- The text with `& < > " '` replaced by entities. -/
def escapeMarkup (text : String) : String := String.ofList (text.toList.flatMap escapeChar)

/-- What stands for a character in an attribute value. -/
def escapeAttributeChar (c : Char) : List Char :=
  match c with
  | '&' => "&amp;".toList
  | '<' => "&lt;".toList
  | '>' => "&gt;".toList
  | '"' => "&quot;".toList
  | '\'' => "&#39;".toList
  | c => [c]

/-- The text with `& < > " '` replaced by entities, the double quote by its name. -/
def escapeAttribute (text : String) : String :=
  String.ofList (text.toList.flatMap escapeAttributeChar)

/-- What stands for a character in escaped code. -/
def escapeCodeChar (c : Char) : List Char :=
  match c with
  | '&' => "&amp;".toList
  | '<' => "&lt;".toList
  | '>' => "&gt;".toList
  | c => [c]

/-- The text with `& < >` replaced by entities; quotes stand for themselves between tags. -/
def escapeCode (text : String) : String := String.ofList (text.toList.flatMap escapeCodeChar)

end StaticSite.Text
