import StaticSite.Markdown.RawHtml

/-!
Lines of a markdown document, and the marks at their beginning that make a block.
-/

namespace StaticSite.Markdown

structure Line where
  /-- The column at which the text begins, which decides how far a tab reaches. -/
  column : Nat
  text : List Char
  /-- Whether the line ends in a line feed. -/
  ended : Bool
  /-- Whether the line continues a paragraph without the marks of the blocks around it. -/
  isLazy : Bool := false
deriving DecidableEq, Repr

/-- The lines of a text. -/
def splitLines : List Char → List Line
  | [] => []
  | '\r' :: '\n' :: rest => ⟨0, [], true, false⟩ :: splitLines rest
  | c :: rest =>
    if c = '\n' || c = '\r' then ⟨0, [], true, false⟩ :: splitLines rest
    else
      match splitLines rest with
      | [] => [⟨0, [c], false, false⟩]
      | line :: more => { line with text := c :: line.text } :: more

namespace Line

def isBlank (line : Line) : Bool := line.text.all fun c => c == ' ' || c == '\t'

/-- The width of the white space at the beginning of a text that stands at a column. -/
def widthFrom (column : Nat) : List Char → Nat
  | ' ' :: rest => widthFrom (column + 1) rest + 1
  | '\t' :: rest => widthFrom (column + 4 - column % 4) rest + (4 - column % 4)
  | _ => 0

/-- The width of the white space that a line begins with. -/
def indent (line : Line) : Nat := widthFrom line.column line.text

/-- A text behind a number of columns of white space. What is left of a tab counts as spaces. -/
def dropFrom (column : Nat) : Nat → List Char → Nat × List Char
  | 0, text => (column, text)
  | n + 1, ' ' :: rest => dropFrom (column + 1) n rest
  | n + 1, '\t' :: rest =>
    let width := 4 - column % 4
    if width ≤ n + 1 then dropFrom (column + width) (n + 1 - width) rest
    else (column + (n + 1), List.replicate (width - (n + 1)) ' ' ++ rest)
  | _, text => (column, text)
termination_by _ text => text.length

/-- The line behind a number of columns of white space. -/
def drop (line : Line) (columns : Nat) : Line :=
  let (column, text) := dropFrom line.column columns line.text
  { line with column, text }

/-- The line behind all its leading white space. -/
def trimmed (line : Line) : Line := line.drop line.indent

/-- The line behind a number of characters that are no white space. -/
def skip (line : Line) (count : Nat) : Line :=
  { line with column := line.column + count, text := line.text.drop count }

/-- The text of a line with its line feed. -/
def whole (line : Line) : List Char := line.text ++ (if line.ended then ['\n'] else [])

end Line

/-- A mark that begins a list item. -/
structure ItemMark where
  /-- The bullet, or the character behind the number. -/
  mark : Char
  number? : Option Nat
  /-- The width of the mark itself. -/
  width : Nat
deriving DecidableEq, Repr

/-- Whether a text without indentation is a thematic break. -/
def isRule (text : List Char) : Bool :=
  match text with
  | [] => false
  | c :: _ =>
    (c == '-' || c == '_' || c == '*') &&
      text.all (fun d => d == c || d == ' ' || d == '\t') && 3 ≤ text.count c

/-- The mark of a list item that a text without indentation begins with. -/
def itemMark? (text : List Char) : Option ItemMark :=
  let spaced (rest : List Char) : Bool := rest.isEmpty || rest.head?.any fun c => c == ' ' || c == '\t'
  match text with
  | [] => none
  | c :: rest =>
    if c == '-' || c == '+' || c == '*' then
      if isRule text || !spaced rest then none else some ⟨c, none, 1⟩
    else
      let digits := text.takeWhile Char.isDigit
      match text.dropWhile Char.isDigit with
      | d :: rest =>
        if digits.isEmpty || 9 < digits.length || !(d == '.' || d == ')') || !spaced rest then none
        else
          let number := digits.foldl (fun n c => n * 10 + (c.toNat - 48)) 0
          some ⟨d, some number, digits.length + 1⟩
      | [] => none

/-- The mark of the meaning of a term that a text without indentation begins with. -/
def meaningMark? (text : List Char) : Option ItemMark :=
  match text with
  | ':' :: rest =>
    if rest.isEmpty || rest.head?.any fun c => c == ' ' || c == '\t' then some ⟨':', none, 1⟩ else none
  | _ => none

/-- The mark of the meaning of a term that a line begins with. -/
def Line.meaningMark? (line : Line) : Option ItemMark :=
  if line.isLazy || 4 ≤ line.indent then none else Markdown.meaningMark? line.trimmed.text

/-- The level of a heading that begins with number signs. -/
def headingLevel? (text : List Char) : Option Nat :=
  let level := (text.takeWhile (· == '#')).length
  let rest := text.dropWhile (· == '#')
  if 1 ≤ level && level ≤ 6 && (rest.isEmpty || rest.head?.any fun c => c == ' ' || c == '\t') then
    some level
  else none

/-- The opening fence of a code block. -/
structure Fence where
  mark : Char
  count : Nat
  language : List Char
deriving DecidableEq, Repr

def trimSpaces (text : List Char) : List Char :=
  ((text.dropWhile isSpace).reverse.dropWhile isSpace).reverse

/-- The fence that a text without indentation is. -/
def fence? (text : List Char) : Option Fence :=
  match text with
  | [] => none
  | c :: _ =>
    let count := (text.takeWhile (· == c)).length
    let language := text.dropWhile (· == c)
    if !(c == '\x60' || c == '~') || count < 3 || (c == '\x60' && language.contains '\x60') then none
    else some ⟨c, count, trimSpaces language⟩

/-- Whether a line closes a fenced code block. -/
def closesFence (fence : Fence) (line : Line) : Bool :=
  let text := line.trimmed.text
  line.indent < 4 && fence.count ≤ (text.takeWhile (· == fence.mark)).length &&
    (text.dropWhile (· == fence.mark)).all isSpace

/-- The names of the elements that begin a block of HTML. -/
def blockElements : List String :=
  ["address", "article", "aside", "base", "basefont", "blockquote", "body", "caption", "center", "col",
    "colgroup", "dd", "details", "dialog", "dir", "div", "dl", "dt", "fieldset", "figcaption",
    "figure", "footer", "form", "frame", "frameset", "h1", "h2", "h3", "h4", "h5", "h6", "head",
    "header", "hr", "html", "iframe", "legend", "li", "link", "main", "menu", "menuitem", "nav",
    "noframes", "ol", "optgroup", "option", "p", "param", "search", "section", "summary", "table",
    "tbody", "td", "tfoot", "th", "thead", "title", "tr", "track", "ul"]

/-- The names of the elements whose content is no markup. -/
def rawElements : List String := ["pre", "style", "script", "textarea"]

/-- Where a block of HTML ends. -/
inductive HtmlEnd
  /-- With the line that contains a mark. -/
  | mark (mark : String)
  /-- Before a blank line. -/
  | blank
deriving DecidableEq, Repr

/-- A text in lower case as far as it is ASCII. -/
def asciiLower (text : List Char) : List Char := text.map Char.toLower

/-- The end of a block of HTML that begins with a text without indentation, and whether the block can
stand in the way of a paragraph. -/
def htmlEnd? (text : List Char) : Option (HtmlEnd × Bool) :=
  match text with
  | '<' :: rest =>
    let lower := asciiLower rest
    let name := lower.takeWhile fun c => c.isAlphanum
    let behind := lower.dropWhile fun c => c.isAlphanum
    let cut := behind.isEmpty || behind.head?.any fun c => isSpace c || c == '>'
    if cut && rawElements.contains (String.ofList name) then
      some (.mark ("</" ++ String.ofList name ++ ">"), true)
    else if "!--".toList.isPrefixOf rest then some (.mark "-->", true)
    else if "?".toList.isPrefixOf rest then some (.mark "?>", true)
    else if "![CDATA[".toList.isPrefixOf rest then some (.mark "]]>", true)
    else if "!".toList.isPrefixOf rest && (rest.drop 1).head?.any Char.isAlpha then
      some (.mark ">", true)
    else
      let closing := lower.head? == some '/'
      let element := if closing then lower.drop 1 else lower
      let name := element.takeWhile fun c => c.isAlphanum
      let behind := element.dropWhile fun c => c.isAlphanum
      let cut := behind.isEmpty || (behind.head?.any fun c => isSpace c || c == '>') ||
        "/>".toList.isPrefixOf behind
      if cut && blockElements.contains (String.ofList name) then some (.blank, true)
      else
        match afterTag? rest with
        | some more => if more.all isSpace then some (.blank, false) else none
        | none => none
  | _ => none

/-- Whether a text contains a mark. -/
def containsMark (mark : String) (text : List Char) : Bool := (after? mark.toList text).isSome

/-- Whether a line without indentation begins a block that ends a paragraph before it. A list can do so
if it counts from one, but no item without content in front of a blank line. -/
def interrupts (text : List Char) (blankBehind : Bool) : Bool :=
  isRule text || (headingLevel? text).isSome || (fence? text).isSome || text.head? == some '>' ||
    (htmlEnd? text).any (·.2) ||
    (itemMark? text).any fun item =>
      item.number?.all (· == 1) && !(blankBehind && (text.drop item.width).all isSpace)

end StaticSite.Markdown
