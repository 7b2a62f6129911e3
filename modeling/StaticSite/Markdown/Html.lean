import StaticSite.Markdown.Event
import StaticSite.Text.Utf8
import StaticSite.Text.Markup

/-!
Writing markdown events as HTML. Most elements begin on a line of their own; the writer knows whether
it stands at the beginning of a line.
-/

namespace StaticSite.Markdown

/-- The bytes that may stand in an address as they are. -/
def isAddressByte (b : UInt8) : Bool :=
  let c := Char.ofNat b.toNat
  b < 0x80 && (c.isAlphanum || "!#$%()*+,-./:;=?@_~".toList.contains c)

/-- A byte of an address, escaped if need be. -/
def addressByte (b : UInt8) : String :=
  if isAddressByte b then (Char.ofNat b.toNat).toString
  else if b == 0x26 then "&amp;"
  else if b == 0x27 then "&#x27;"
  else
    let digits := (Nat.toDigits 16 b.toNat).map Char.toUpper
    "%" ++ String.ofList (if digits.length < 2 then '0' :: digits else digits)

/-- An address as it stands in an attribute. -/
def escapeAddress (text : String) : String :=
  String.join ((Text.Utf8.encode text).map addressByte)

/-- An image whose alternative text is being written. -/
structure OpenImage where
  title : String
  /-- The number of elements within the image that have not ended. -/
  nested : Nat := 0

/-- What has been written, and what the next event depends on. -/
structure Writer where
  output : String := ""
  atLineStart : Bool := true
  inTableHead : Bool := false
  alignments : List Alignment := []
  cell : Nat := 0
  /-- The labels of footnotes in the order of their numbers. -/
  footnotes : List String := []
  image? : Option OpenImage := none

namespace Writer

/-- Writes a text. -/
def write (writer : Writer) (text : String) : Writer :=
  if text.isEmpty then writer
  else
    { writer with output := writer.output ++ text, atLineStart := text.toList.getLast? == some '\n' }

/-- Writes a text at the beginning of a line. -/
def writeLine (writer : Writer) (text : String) : Writer :=
  (if writer.atLineStart then writer else writer.write "\n").write text

/-- The number of a footnote, which its first mention gives it. -/
def number (writer : Writer) (label : String) : Nat × Writer :=
  match writer.footnotes.idxOf? label with
  | some i => (i + 1, writer)
  | none =>
    (writer.footnotes.length + 1, { writer with footnotes := writer.footnotes ++ [label] })

/-- A title attribute, if there is a title. -/
def titleAttribute (title : String) : String :=
  if title.isEmpty then "" else "\" title=\"" ++ Text.escapeAttribute title

def headingAttributes (name : HeadingName) : String :=
  let id := name.id?.elim "" fun id => " id=\"" ++ Text.escapeAttribute id ++ "\""
  let classes :=
    if name.classes.isEmpty then ""
    else " class=\"" ++ " ".intercalate (name.classes.map Text.escapeAttribute) ++ "\""
  let others := name.attributes.map fun (key, value) =>
    " " ++ Text.escapeAttribute key ++ "=\"" ++ Text.escapeAttribute (value.getD "") ++ "\""
  id ++ classes ++ String.join others

def cellStyle : Alignment → String
  | .unset => ""
  | .left => " style=\"text-align: left\""
  | .center => " style=\"text-align: center\""
  | .right => " style=\"text-align: right\""

/-- Begins an element. -/
def start (writer : Writer) : Tag → Writer
  | .paragraph => writer.writeLine "<p>"
  | .heading level name =>
    writer.writeLine ("<h" ++ toString level ++ headingAttributes name ++ ">")
  | .quote alert? =>
    let style := alert?.elim "" fun kind => " class=\"markdown-alert-" ++ kind ++ "\""
    writer.writeLine ("<blockquote" ++ style ++ ">\n")
  | .codeBlock .indented => writer.writeLine "<pre><code>"
  | .codeBlock (.fenced language) =>
    if language.isEmpty then writer.writeLine "<pre><code>"
    else writer.writeLine ("<pre><code class=\"language-" ++ Text.escapeAttribute language ++ "\">")
  | .list (some 1) => writer.writeLine "<ol>\n"
  | .list (some n) => writer.writeLine ("<ol start=\"" ++ toString n ++ "\">\n")
  | .list none => writer.writeLine "<ul>\n"
  | .item => writer.writeLine "<li>"
  | .glossary => writer.writeLine "<dl>\n"
  | .term => writer.writeLine "<dt>"
  | .meaning => writer.writeLine "<dd>"
  | .footnote label =>
    let opening := "<div class=\"footnote-definition\" id=\"" ++ Text.escapeAttribute label ++
      "\"><sup class=\"footnote-definition-label\">"
    let (number, writer) := (writer.writeLine opening).number label
    writer.write (toString number ++ "</sup>")
  | .table alignments => { writer with alignments }.write "<table>"
  | .tableHead => { writer with inTableHead := true, cell := 0 }.write "<thead><tr>"
  | .tableRow => { writer with cell := 0 }.write "<tr>"
  | .tableCell =>
    let name := if writer.inTableHead then "<th" else "<td"
    writer.write (name ++ cellStyle (writer.alignments.getD writer.cell .unset) ++ ">")
  | .emphasis => writer.write "<em>"
  | .strong => writer.write "<strong>"
  | .deleted => writer.write "<del>"
  | .superscript => writer.write "<sup>"
  | .subscript => writer.write "<sub>"
  | .link destination title =>
    writer.write ("<a href=\"" ++ escapeAddress destination ++ titleAttribute title ++ "\">")
  | .image destination title =>
    { writer.write ("<img src=\"" ++ escapeAddress destination ++ "\" alt=\"") with
      image? := some { title } }

/-- Ends an element. -/
def finish (writer : Writer) : Tag → Writer
  | .paragraph => writer.write "</p>\n"
  | .heading level _ => writer.write ("</h" ++ toString level ++ ">\n")
  | .quote _ => writer.write "</blockquote>\n"
  | .codeBlock _ => writer.write "</code></pre>\n"
  | .list (some _) => writer.write "</ol>\n"
  | .list none => writer.write "</ul>\n"
  | .item => writer.write "</li>\n"
  | .glossary => writer.write "</dl>\n"
  | .term => writer.write "</dt>\n"
  | .meaning => writer.write "</dd>\n"
  | .footnote _ => writer.write "</div>\n"
  | .table _ => writer.write "</tbody></table>\n"
  | .tableHead => { writer with inTableHead := false }.write "</tr></thead><tbody>\n"
  | .tableRow => writer.write "</tr>\n"
  | .tableCell =>
    let writer := writer.write (if writer.inTableHead then "</th>" else "</td>")
    { writer with cell := writer.cell + 1 }
  | .emphasis => writer.write "</em>"
  | .strong => writer.write "</strong>"
  | .deleted => writer.write "</del>"
  | .superscript => writer.write "</sup>"
  | .subscript => writer.write "</sub>"
  | .link _ _ => writer.write "</a>"
  | .image _ _ => writer

/-- Writes an event that stands in the alternative text of an image. -/
def alternative (writer : Writer) (image : OpenImage) : Event → Writer
  | .start _ => { writer with image? := some { image with nested := image.nested + 1 } }
  | .finish _ =>
    match image.nested with
    | 0 => { writer with image? := none }.write (titleAttribute image.title ++ "\" />")
    | n + 1 => { writer with image? := some { image with nested := n } }
  | .text text => writer.write (Text.escapeAttribute text)
  | .code text => writer.write (Text.escapeAttribute text)
  | .inlineHtml text => writer.write (Text.escapeAttribute text)
  | .html _ => writer
  | .inlineMath text => writer.write ("$" ++ Text.escapeAttribute text ++ "$")
  | .displayMath text => writer.write ("$$" ++ Text.escapeAttribute text ++ "$$")
  | .softBreak => writer.write " "
  | .hardBreak => writer.write " "
  | .rule => writer.write " "
  | .footnoteReference label =>
    let (number, writer) := writer.number label
    writer.write ("[" ++ toString number ++ "]")
  | .taskMarker checked => writer.write (if checked then "[x]" else "[ ]")

/-- Writes an event that stands outside images. -/
def event (writer : Writer) : Event → Writer
  | .start tag => writer.start tag
  | .finish tag => writer.finish tag
  | .text text => writer.write (Text.escapeCode text)
  | .code text => writer.write ("<code>" ++ Text.escapeCode text ++ "</code>")
  | .inlineMath text =>
    writer.write ("<span class=\"math math-inline\">" ++ Text.escapeAttribute text ++ "</span>")
  | .displayMath text =>
    writer.write ("<span class=\"math math-display\">" ++ Text.escapeAttribute text ++ "</span>")
  | .html text => writer.write text
  | .inlineHtml text => writer.write text
  | .softBreak => writer.write "\n"
  | .hardBreak => writer.write "<br />\n"
  | .rule => writer.writeLine "<hr />\n"
  | .footnoteReference label =>
    let (number, writer) := writer.number label
    writer.write ("<sup class=\"footnote-reference\"><a href=\"#" ++ Text.escapeAttribute label ++
      "\">" ++ toString number ++ "</a></sup>")
  | .taskMarker true =>
    writer.write "<input disabled=\"\" type=\"checkbox\" checked=\"\"/>\n"
  | .taskMarker false => writer.write "<input disabled=\"\" type=\"checkbox\"/>\n"

/-- Writes an event. -/
def step (writer : Writer) (event : Event) : Writer :=
  match writer.image? with
  | some image => writer.alternative image event
  | none => writer.event event

end Writer

/-- The HTML of events. -/
def writeHtml (events : List Event) : String := (events.foldl Writer.step {}).output

end StaticSite.Markdown
