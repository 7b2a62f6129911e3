import StaticSite.Text.Blank

/-!
Raw HTML in markdown: where a tag, a comment, an instruction, a declaration or a CDATA section ends.
-/

namespace StaticSite.Markdown

/-- White space within a paragraph. -/
def isSpace (c : Char) : Bool := c == ' ' || c == '\t' || c == '\n' || c == '\r'

/-- ASCII punctuation, which a backslash can escape. -/
def isAsciiPunctuation (c : Char) : Bool :=
  ('!' ≤ c && c ≤ '/') || (':' ≤ c && c ≤ '@') || ('[' ≤ c && c ≤ '\x60') ||
    ('\x7b' ≤ c && c ≤ '~')

/-- The part of a text in front of a rest of it. -/
def before (text rest : List Char) : List Char := text.take (text.length - rest.length)

/-- What follows the first occurrence of a mark. -/
def after? (mark : List Char) : List Char → Option (List Char)
  | [] => if mark.isEmpty then some [] else none
  | c :: rest =>
    if mark.isPrefixOf (c :: rest) then some ((c :: rest).drop mark.length) else after? mark rest

def isTagNameChar (c : Char) : Bool := c.isAlphanum || c == '-'

def isAttributeNameChar (c : Char) : Bool :=
  c.isAlphanum || c == '_' || c == ':' || c == '.' || c == '-'

/-- What follows an attribute value. -/
def afterValue? (text : List Char) : Option (List Char) :=
  match text with
  | '"' :: rest => after? ['"'] rest
  | '\'' :: rest => after? ['\''] rest
  | text =>
    let rest := text.dropWhile fun c => !isSpace c && !"\"'=<>\x60".toList.contains c
    if rest.length < text.length then some rest else none

/-- What follows the attributes and the end of an opening tag. -/
def afterAttributes? : Nat → List Char → Option (List Char)
  | 0, _ => none
  | fuel + 1, text =>
    let rest := text.dropWhile isSpace
    match rest with
    | '>' :: more => some more
    | '/' :: '>' :: more => some more
    | c :: _ =>
      if rest.length == text.length || !(c.isAlpha || c == '_' || c == ':') then none
      else
        let named := rest.dropWhile isAttributeNameChar
        match named.dropWhile isSpace with
        | '=' :: value =>
          match afterValue? (value.dropWhile isSpace) with
          | some more => afterAttributes? fuel more
          | none => none
        | _ => afterAttributes? fuel named
    | [] => none

/-- What follows an opening or closing tag whose `<` has been read. -/
def afterTag? (text : List Char) : Option (List Char) :=
  match text with
  | '/' :: c :: rest =>
    if !c.isAlpha then none
    else
      match (rest.dropWhile isTagNameChar).dropWhile isSpace with
      | '>' :: more => some more
      | _ => none
  | c :: rest =>
    if c.isAlpha then afterAttributes? (rest.length + 1) (rest.dropWhile isTagNameChar) else none
  | [] => none

/-- What follows a piece of raw HTML whose `<` has been read. -/
def afterHtml? (text : List Char) : Option (List Char) :=
  match text with
  | '!' :: '-' :: '-' :: '>' :: rest => some rest
  | '!' :: '-' :: '-' :: '-' :: '>' :: rest => some rest
  | '!' :: '-' :: '-' :: rest => after? ['-', '-', '>'] rest
  | '?' :: rest => after? ['?', '>'] rest
  | '!' :: '[' :: 'C' :: 'D' :: 'A' :: 'T' :: 'A' :: '[' :: rest => after? [']', ']', '>'] rest
  | '!' :: c :: rest => if c.isAlpha then after? ['>'] rest else none
  | text => afterTag? text

end StaticSite.Markdown
