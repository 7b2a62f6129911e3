/-!
Markdown documents as events: elements begin and end, and texts stand between.
-/

namespace StaticSite.Markdown

inductive CodeKind
  | indented
  /-- A fenced block and what stands behind its opening fence. -/
  | fenced (language : String)
deriving DecidableEq, Repr

/-- How the cells of a table column are set. -/
inductive Alignment
  | unset
  | left
  | center
  | right
deriving DecidableEq, Repr

/-- What a heading is known by. -/
structure HeadingName where
  id? : Option String := none
  classes : List String := []
  attributes : List (String × Option String) := []
deriving DecidableEq, Repr

inductive Tag
  | paragraph
  | heading (level : Nat) (name : HeadingName)
  | quote (alert? : Option String)
  | codeBlock (kind : CodeKind)
  | list (start? : Option Nat)
  | item
  | glossary
  | term
  | meaning
  | footnote (label : String)
  | table (alignments : List Alignment)
  | tableHead
  | tableRow
  | tableCell
  | emphasis
  | strong
  | deleted
  | superscript
  | subscript
  | link (destination title : String)
  | image (destination title : String)
deriving DecidableEq, Repr

inductive Event
  | start (tag : Tag)
  | finish (tag : Tag)
  | text (text : String)
  | code (text : String)
  | inlineMath (text : String)
  | displayMath (text : String)
  | html (text : String)
  | inlineHtml (text : String)
  | footnoteReference (label : String)
  | taskMarker (checked : Bool)
  | softBreak
  | hardBreak
  | rule
deriving DecidableEq, Repr

end StaticSite.Markdown
