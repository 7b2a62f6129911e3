import StaticSite.Markdown.Block
import StaticSite.Markdown.CodeBlock
import StaticSite.Markdown.Html

/-!
From the text of a document to its HTML: blocks, events, and fenced code replaced before the events are
written.
-/

namespace StaticSite.Markdown

mutual

/-- The definitions in a block. -/
def Block.definitionsIn : Block → Definitions
  | .definitions found => found
  | .quote _ children => Block.definitionsInAll children
  | .footnote _ children => Block.definitionsInAll children
  | .list _ _ items => Block.definitionsInItems items
  | .glossary _ entries => Block.definitionsInAll entries
  | .meaning children => Block.definitionsInAll children
  | _ => []

def Block.definitionsInAll : List Block → Definitions
  | [] => []
  | block :: rest => block.definitionsIn ++ Block.definitionsInAll rest

def Block.definitionsInItems : List (List Block) → Definitions
  | [] => []
  | item :: rest => Block.definitionsInAll item ++ Block.definitionsInItems rest

end

/-- An element around events. -/
def element (tag : Tag) (events : List Event) : List Event :=
  .start tag :: (events ++ [.finish tag])

/-- The events of the cells of a row. -/
def cellEvents (definitions : Definitions) (cells : List (List Char)) : List Event :=
  cells.flatMap fun cell => element .tableCell (inlineEvents definitions cell)

mutual

/-- The events of a block. A paragraph of a tight list is its text alone. -/
def Block.events (definitions : Definitions) (tight : Bool) : Block → List Event
  | .paragraph task? text =>
    let events := task?.toList.map .taskMarker ++ inlineEvents definitions text
    if tight then events else element .paragraph events
  | .heading level name text => element (.heading level name) (inlineEvents definitions text)
  | .rule => [.rule]
  | .code kind lines =>
    element (.codeBlock kind) (lines.map fun line => .text (String.ofList line))
  | .html text => [.html (String.ofList text)]
  | .quote alert? children =>
    element (.quote alert?) (Block.eventsOfAll definitions false children)
  | .list start? tight items =>
    element (.list start?) (Block.eventsOfItems definitions tight items)
  | .table alignments head rows =>
    element (.table alignments)
      (element .tableHead (cellEvents definitions head) ++
        rows.flatMap fun row => element .tableRow (cellEvents definitions row))
  | .footnote label children =>
    element (.footnote label) (Block.eventsOfAll definitions false children)
  | .metadata => []
  | .definitions _ => []
  | .glossary tight entries => element .glossary (Block.eventsOfAll definitions tight entries)
  | .term text => element .term (inlineEvents definitions text)
  | .meaning children => element .meaning (Block.eventsOfAll definitions tight children)

/-- The events of blocks one after the other. -/
def Block.eventsOfAll (definitions : Definitions) (tight : Bool) : List Block → List Event
  | [] => []
  | block :: rest => block.events definitions tight ++ Block.eventsOfAll definitions tight rest

/-- The events of the items of a list. -/
def Block.eventsOfItems (definitions : Definitions) (tight : Bool) : List (List Block) → List Event
  | [] => []
  | item :: rest =>
    element .item (Block.eventsOfAll definitions tight item) ++
      Block.eventsOfItems definitions tight rest

end

/-- The events of a document. -/
def eventsOf (source : String) : List Event :=
  let blocks := blocksOf source.toList
  Block.eventsOfAll (Block.definitionsInAll blocks) false blocks

/-- The HTML of a document. -/
def toHtml (source theme : String) : String := writeHtml (renderCode .plainText theme (eventsOf source))

end StaticSite.Markdown
