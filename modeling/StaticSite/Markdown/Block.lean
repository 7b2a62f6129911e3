import StaticSite.Markdown.Line
import StaticSite.Markdown.Inline

/-!
The blocks of a document. Blocks that hold other blocks are read by taking the marks off their lines and
reading what is left as a document of its own; a line that continues a paragraph without those marks is
noted as such.
-/

namespace StaticSite.Markdown

inductive Block
  | paragraph (task? : Option Bool) (text : List Char)
  | heading (level : Nat) (name : HeadingName) (text : List Char)
  | rule
  | code (kind : CodeKind) (lines : List (List Char))
  | html (text : List Char)
  | quote (alert? : Option String) (children : List Block)
  | list (start? : Option Nat) (tight : Bool) (items : List (List Block))
  | table (alignments : List Alignment) (head : List (List Char)) (rows : List (List (List Char)))
  | footnote (label : String) (children : List Block)
  | metadata
  | definitions (definitions : Definitions)
  /-- Terms, each with its meanings behind it. -/
  | glossary (tight : Bool) (entries : List Block)
  | term (text : List Char)
  | meaning (children : List Block)

/-- Blocks, each with whether it stands behind a blank line. -/
abbrev Spaced := List (Bool × Block)

mutual

/-- Whether a block ends in a paragraph that a further line can continue. -/
def Block.endsOpen : Block → Bool
  | .paragraph _ _ => true
  | .quote _ children => Block.lastEndsOpen children
  | .footnote _ children => Block.lastEndsOpen children
  | .list _ _ items => Block.lastItemEndsOpen items
  | .glossary _ entries => Block.lastEndsOpen entries
  | .meaning children => Block.lastEndsOpen children
  | _ => false

def Block.lastEndsOpen : List Block → Bool
  | [] => false
  | [block] => block.endsOpen
  | _ :: rest => Block.lastEndsOpen rest

def Block.lastItemEndsOpen : List (List Block) → Bool
  | [] => false
  | [item] => Block.lastEndsOpen item
  | _ :: rest => Block.lastItemEndsOpen rest

end

/-- Whether a text begins something other than the continuation of a paragraph that it lies outside
of. -/
def interruptsOutside (text : List Char) : Bool :=
  interrupts text true || (itemMark? text).isSome

/-- Whether a line can continue a paragraph without the marks of the blocks around it. -/
def Line.mayContinue (line : Line) : Bool :=
  line.isLazy || (!line.isBlank && (4 ≤ line.indent || !interruptsOutside line.trimmed.text))

/-- A list without the items at its end that satisfy a test, and those items. -/
def splitTail {α : Type} (test : α → Bool) (items : List α) : List α × List α :=
  let tail := (items.reverse.takeWhile test).reverse
  (items.take (items.length - tail.length), tail)

/-- The columns of an underline that makes a paragraph a heading. -/
def underlineLevel? (text : List Char) : Option Nat :=
  let text := trimSpaces text
  if text.isEmpty then none
  else if text.all (· == '=') then some 1
  else if text.all (· == '-') then some 2
  else none

/-- The cells of a table row: the pieces between bars that are not escaped. -/
def splitCells : List Char → List (List Char)
  | [] => [[]]
  | '\\' :: '|' :: rest =>
    match splitCells rest with
    | cell :: more => ('|' :: cell) :: more
    | [] => []
  | '|' :: rest => [] :: splitCells rest
  | c :: rest =>
    match splitCells rest with
    | cell :: more => (c :: cell) :: more
    | [] => []

/-- The cells of a table row without blanks around them. -/
def cellsOf (text : List Char) : List (List Char) :=
  let text := trimSpaces text
  let text := if text.head? == some '|' then text.drop 1 else text
  let cells := splitCells text
  let cells := if (cells.getLast?.any fun cell => cell.all isSpace) && 1 < cells.length
    then cells.dropLast else cells
  cells.map trimSpaces

/-- The alignment that a cell of the row under the head of a table gives. Colons before and behind its
dashes say to which side the column leans. -/
def alignment? (cell : List Char) : Option Alignment :=
  if !cell.all fun c => c == '-' || c == ':' || c == ' ' then none
  else
    let marks := cell.filter (· != ' ')
    match marks.head? == some ':', (marks.drop 1).contains ':' with
    | true, true => some .center
    | true, false => some .left
    | false, true => some .right
    | false, false => some .unset

/-- The alignments that the row under the head of a table gives. -/
def alignments? (text : List Char) : Option (List Alignment) :=
  let cells := splitCells (if text.head? == some '|' then text.drop 1 else text)
  let blankEnd := cells.getLast?.any fun cell => cell.all (· == ' ')
  (if blankEnd then cells.dropLast else cells).mapM alignment?

/-- The alignments of a table whose head and second row are two texts. -/
def tableAlignments? (head second : List Char) : Option (List Alignment) :=
  if (splitCells head).length ≤ 1 then none
  else (alignments? second).filter fun alignments => alignments.length == (cellsOf head).length

/-- The alignments of a table that two lines without marks of their own begin. -/
def Line.tableAlignments? (head : Line) (second? : Option Line) : Option (List Alignment) :=
  second?.bind fun second =>
    if second.isLazy || second.isBlank || 4 ≤ second.indent then none
    else Markdown.tableAlignments? head.trimmed.text second.trimmed.text

/-- Takes a word of heading attributes into a name. -/
def HeadingName.add (name : HeadingName) (word : List Char) : HeadingName :=
  match word with
  | [] => name
  | [_] => name
  | '#' :: id => { name with id? := some (String.ofList id) }
  | '.' :: style => { name with classes := name.classes ++ [String.ofList style] }
  | word =>
    let key := String.ofList (word.takeWhile (· != '='))
    let value? := match word.dropWhile (· != '=') with
      | '=' :: value => some (String.ofList value)
      | _ => none
    { name with attributes := name.attributes ++ [(key, value?)] }

/-- The text of a heading in front of the braces at its end, and the name that these give it. -/
def headingName (text : List Char) : List Char × HeadingName :=
  match text.reverse.dropWhile isSpace with
  | '\x7d' :: rest =>
    let isWord (c : Char) : Bool :=
      c != '\x7b' && c != '\x7d' && c != '<' && c != '>' && c != '\\' && c != '\n' && c != '\r'
    match rest.dropWhile isWord with
    | '\x7b' :: front =>
      let words := ((rest.takeWhile isWord).reverse.splitOnP isSpace).foldl HeadingName.add {}
      (front.reverse, words)
    | _ => (text, {})
  | _ => (text, {})

/-- The text of a heading without the number signs that may close it. -/
def headingText (text : List Char) : List Char :=
  let text := trimSpaces text
  let back := text.reverse.dropWhile (· == '#')
  if back.length == text.length then text
  else
    match back with
    | [] => []
    | c :: _ => if isSpace c then trimSpaces back.reverse else text

/-- A heading that number signs announce. -/
def markedHeading (level : Nat) (text : List Char) : Block :=
  let (text, name) := headingName text
  .heading level name (headingText text)

/-- A heading that is underlined. -/
def underlinedHeading (level : Nat) (text : List Char) : Block :=
  let (text, name) := headingName text
  .heading level name (trimSpaces text)

/-- The definitions that a paragraph begins with, and the rest of it. -/
def takeDefinitions : Nat → List Char → Definitions × List Char
  | 0, text => ([], text)
  | fuel + 1, text =>
    match definition? text with
    | some (definition, rest) =>
      let (more, rest) := takeDefinitions fuel rest
      (definition :: more, rest)
    | none => ([], text)

/-- The text of the lines of a paragraph. -/
def joinLines (lines : List Line) : List Char :=
  trimSpaces (['\n'].intercalate (lines.map fun line => line.trimmed.text))

/-- The blocks of a paragraph: the definitions that it begins with, and what is left of it. -/
def paragraphBlocks (lines : List Line) : List Block :=
  let text := joinLines lines
  let (found, rest) := takeDefinitions (text.length + 1) text
  (if found.isEmpty then [] else [.definitions found]) ++
    (if (trimSpaces rest).isEmpty then [] else [.paragraph none (trimSpaces rest)])

/-- Whether a line is absent or blank. -/
def isBlankLine? (line? : Option Line) : Bool := line?.all Line.isBlank

/-- The further lines of a paragraph, the level if an underline makes it a heading, and the lines
behind it. -/
def takeParagraph : List Line → List Line × Option Nat × List Line
  | [] => ([], none, [])
  | line :: rest =>
    if line.isLazy then
      let (taken, level, more) := takeParagraph rest
      (line :: taken, level, more)
    else if line.isBlank then ([], none, line :: rest)
    else
      let text := line.trimmed.text
      match if line.indent < 4 then underlineLevel? text else none with
      | some level => ([], some level, rest)
      | none =>
        if line.indent < 4 && (interrupts text (isBlankLine? rest.head?) || line.meaningMark?.isSome ||
            (text.head? == some '|' && (line.tableAlignments? rest.head?).isSome)) then
          ([], none, line :: rest)
        else
          let (taken, level, more) := takeParagraph rest
          (line :: taken, level, more)

/-- The rows of a table, and the lines behind it. -/
def takeRows : List Line → List Line × List Line
  | [] => ([], [])
  | line :: rest =>
    if line.isBlank || line.isLazy || interrupts line.trimmed.text (isBlankLine? rest.head?) then
      ([], line :: rest)
    else
      let (rows, more) := takeRows rest
      (line :: rows, more)

/-- A row with as many cells as the head has. -/
def fitRow (count : Nat) (cells : List (List Char)) : List (List Char) :=
  (cells ++ List.replicate count []).take count

/-- The lines of a fenced code block, and the lines behind it. -/
def takeFenced (fence : Fence) (indent : Nat) : List Line → List (List Char) × List Line
  | [] => ([], [])
  | line :: rest =>
    if closesFence fence line then ([], rest)
    else
      let (taken, more) := takeFenced fence indent rest
      ((line.drop (min indent line.indent)).whole :: taken, more)

/-- The text of a block of HTML, and the lines behind it. -/
def takeHtml (stop : HtmlEnd) : List Line → List Char × List Line
  | [] => ([], [])
  | line :: rest =>
    match stop with
    | .blank =>
      if line.isBlank then ([], line :: rest)
      else
        let (taken, more) := takeHtml stop rest
        (line.whole ++ taken, more)
    | .mark mark =>
      if containsMark mark line.text then (line.whole, rest)
      else
        let (taken, more) := takeHtml stop rest
        (line.whole ++ taken, more)

/-- The lines behind a block of metadata that a line begins, if the block is closed. -/
def afterMetadata? (mark : Char) (lines : List Line) : Option (List Line) :=
  let closes (line : Line) : Bool :=
    let text := (line.text.reverse.dropWhile (· == ' ')).reverse
    text == [mark, mark, mark] || (mark == '-' && text == ['.', '.', '.'])
  match lines with
  | [] => none
  | first :: _ =>
    if first.isBlank || closes first then none
    else
      match lines.dropWhile fun line => !closes line with
      | _ :: rest => some rest
      | [] => none

/-- The character of a line that can begin a block of metadata. -/
def metadataMark? (line : Line) : Option Char :=
  match line.text with
  | a :: b :: c :: rest =>
    if (a == '-' || a == '+') && b == a && c == a && rest.all isSpace then some a else none
  | _ => none

/-- The label of a footnote that a text defines, and the text behind its colon. -/
def footnoteDefinition? (text : List Char) : Option (List Char × List Char) :=
  match text with
  | '[' :: '^' :: rest =>
    match footnoteLabel? rest with
    | some (label, ':' :: more) => some (label, more)
    | _ => none
  | _ => none

/-- The kind of an alert that the first line of a quote announces. -/
def alertKind? (line : Line) : Option String :=
  let text := String.ofList (asciiLower (trimSpaces line.text))
  ["note", "tip", "important", "warning", "caution"].find? fun kind => text == "[!" ++ kind ++ "]"

/-- The state of a task that a text begins with, and the text behind it. -/
def taskMark? (text : List Char) : Option (Bool × List Char) :=
  match text with
  | '[' :: c :: ']' :: space :: rest =>
    if !isSpace space then none
    else if c == 'x' || c == 'X' then some (true, rest)
    else if isSpace c then some (false, rest)
    else none
  | _ => none

/-- The blocks of an item whose first line announces a task. -/
def markTask (task? : Option Bool) : List Block → List Block
  | .paragraph none text :: rest => .paragraph task? text :: rest
  | blocks => blocks

/-- A glossary in front of blocks, joined with one that follows it at once. -/
def joinGlossary (afterBlank tight : Bool) (entries : List Block) : Spaced → Spaced
  | (_, .glossary nextTight nextEntries) :: rest =>
    (afterBlank, .glossary (tight && nextTight) (entries ++ nextEntries)) :: rest
  | rest => (afterBlank, .glossary tight entries) :: rest

/-- Blocks that end in a paragraph which can be a term: those before it, and its text. -/
def splitTerm? (blocks : List Block) : Option (List Block × List Char) :=
  match blocks.getLast? with
  | some (.paragraph none text) => some (blocks.dropLast, text)
  | _ => none

/-- The content of the first line of an item, and the column at which content begins. -/
def itemContent (line : Line) (item : ItemMark) : Line × Nat :=
  let behind := line.trimmed.skip item.width
  let base := line.indent + item.width
  if behind.isBlank then ({ behind with text := [] }, base + 1)
  else if 5 ≤ behind.indent then (behind.drop 1, base + 1)
  else (behind.drop behind.indent, base + behind.indent)

/-- The content of a line of a quote, if the line bears its mark. -/
def quoteContent? (line : Line) : Option Line :=
  if line.isLazy || 4 ≤ line.indent || line.trimmed.text.head? != some '>' then none
  else
    let behind := line.trimmed.skip 1
    some (if behind.indent = 0 then behind else behind.drop 1)

mutual

/-- The blocks of lines. -/
def readBlocks : Nat → Bool → List Line → Spaced
  | 0, _, _ => []
  | _, _, [] => []
  | fuel + 1, afterBlank, line :: rest =>
    if line.isBlank then readBlocks fuel true rest
    else if line.isLazy then readParagraph fuel afterBlank line rest
    else if 4 ≤ line.indent then
      let isCode (line : Line) : Bool := !line.isLazy && (line.isBlank || 4 ≤ line.indent)
      let (code, blanks) := splitTail Line.isBlank (line :: rest.takeWhile isCode)
      (afterBlank, .code .indented (code.map fun line => (line.drop 4).whole)) ::
        readBlocks fuel false (blanks ++ rest.dropWhile isCode)
    else
      let text := line.trimmed.text
      match footnoteDefinition? text with
      | some (label, behind) =>
        let inside := rest.takeWhile fun line => !line.isBlank
        let first := { line.trimmed.skip (text.length - behind.length) with text := behind }
        let children := (readBlocks fuel false (first :: inside)).map (·.2)
        (afterBlank, .footnote (String.ofList label) children) ::
          readBlocks fuel false (rest.dropWhile fun line => !line.isBlank)
      | none =>
        match quoteContent? line with
        | some first =>
          let (inside, more) := takeQuote fuel [first] rest
          let alert? := alertKind? first
          let inside := if alert?.isSome then inside.drop 1 else inside
          (afterBlank, .quote alert? ((readBlocks fuel false inside).map (·.2))) ::
            readBlocks fuel false more
        | none =>
          match itemMark? text with
          | some item =>
            let (items, tight, more) := readItems fuel item line rest
            (afterBlank, .list item.number? tight items) :: readBlocks fuel false more
          | none => readLeaf fuel afterBlank line rest

/-- The blocks of lines of which the first begins a block that holds no other blocks. -/
def readLeaf : Nat → Bool → Line → List Line → Spaced
  | 0, _, _, _ => []
  | fuel + 1, afterBlank, line, rest =>
    let text := line.trimmed.text
    let metadata? := (metadataMark? line).bind fun mark => afterMetadata? mark rest
    match metadata? with
    | some more => (afterBlank, .metadata) :: readBlocks fuel false more
    | none =>
      match htmlEnd? text with
      | some (stop, _) =>
        let (html, more) := takeHtml stop (line :: rest)
        (afterBlank, .html html) :: readBlocks fuel false more
      | none =>
        if isRule text then (afterBlank, .rule) :: readBlocks fuel false rest
        else
          match headingLevel? text with
          | some level =>
            (afterBlank, markedHeading level (text.drop level)) :: readBlocks fuel false rest
          | none =>
            match fence? text with
            | some fence =>
              let (code, more) := takeFenced fence line.indent rest
              (afterBlank, .code (.fenced (unescape fence.language)) code) ::
                readBlocks fuel false more
            | none => readParagraph fuel afterBlank line rest

/-- The blocks of lines of which the first begins a paragraph, a table or a glossary. -/
def readParagraph : Nat → Bool → Line → List Line → Spaced
  | 0, _, _, _ => []
  | fuel + 1, afterBlank, line, rest =>
    match line.tableAlignments? rest.head? with
    | some alignments =>
      let (rows, more) := takeRows (rest.drop 1)
      let cells (line : Line) := fitRow alignments.length (cellsOf line.trimmed.text)
      (afterBlank, .table alignments (cells line) (rows.map cells)) :: readBlocks fuel false more
    | none =>
      match takeParagraph rest with
      | (lines, some level, more) =>
        (afterBlank, underlinedHeading level (joinLines (line :: lines))) ::
          readBlocks fuel false more
      | (lines, none, more) =>
        let blocks := paragraphBlocks (line :: lines)
        let paragraph (blocks : List Block) : Spaced := blocks.map fun block => (afterBlank, block)
        match splitTerm? blocks, more.dropWhile Line.isBlank with
        | some (before, term), next :: behind =>
          match next.meaningMark? with
          | some mark =>
            let (meanings, tight, behind) := readMeanings fuel mark next behind
            paragraph before ++
              joinGlossary afterBlank (tight && !isBlankLine? more.head?) (.term term :: meanings)
                (readBlocks fuel false behind)
          | none => paragraph blocks ++ readBlocks fuel false more
        | _, _ => paragraph blocks ++ readBlocks fuel false more

/-- The content of the lines of a quote, of which some have been taken, the last first, and the lines
behind it. -/
def takeQuote : Nat → List Line → List Line → List Line × List Line
  | 0, taken, lines => (taken.reverse, lines)
  | _, taken, [] => (taken.reverse, [])
  | fuel + 1, taken, line :: rest =>
    match quoteContent? line with
    | some content => takeQuote fuel (content :: taken) rest
    | none =>
      if line.mayContinue && endsOpen fuel taken then
        takeQuote fuel ({ line with isLazy := true } :: taken) rest
      else (taken.reverse, line :: rest)

/-- Whether lines, given from the last to the first, end in a paragraph that can go on. -/
def endsOpen : Nat → List Line → Bool
  | 0, _ => false
  | fuel + 1, taken =>
    !(taken.head?.any Line.isBlank) &&
      Block.lastEndsOpen ((readBlocks fuel false taken.reverse).map (·.2))

/-- The content of the lines of an item with a mark, of which some have been taken, the last first, and
the lines behind it. Content begins at a column. -/
def takeItem : Nat → ItemMark → Nat → List Line → List Line → List Line × List Line
  | 0, _, _, taken, lines => (taken.reverse, lines)
  | _, _, _, taken, [] => (taken.reverse, [])
  | fuel + 1, item, column, taken, line :: rest =>
    if line.isBlank then
      if taken.all Line.isBlank then (taken.reverse, line :: rest)
      else takeItem fuel item column ({ line with text := [] } :: taken) rest
    else if !line.isLazy && column ≤ line.indent then
      takeItem fuel item column (line.drop column :: taken) rest
    else if line.mayContinue && line.meaningMark?.all (· != item) && endsOpen fuel taken then
      takeItem fuel item column ({ line with isLazy := true } :: taken) rest
    else (taken.reverse, line :: rest)

/-- The blocks of an item whose first content and its column are given, whether they are tight, the
blank lines behind the item, and the lines behind those. -/
def readItem : Nat → ItemMark → Line → Nat → List Line →
    List Block × Bool × List Line × List Line
  | 0, _, _, _, rest => ([], true, [], rest)
  | fuel + 1, item, first, column, rest =>
    let (content, more) := takeItem fuel item column [first] rest
    let (content, blanks) := splitTail Line.isBlank (content.drop 1)
    let spaced := readBlocks fuel false (first :: content)
    (spaced.map (·.2), (spaced.drop 1).all fun block => !block.1,
      blanks ++ more.takeWhile Line.isBlank, more.dropWhile Line.isBlank)

/-- The items of a list whose first item begins with a line, whether the list is tight, and the lines
behind it. -/
def readItems : Nat → ItemMark → Line → List Line → List (List Block) × Bool × List Line
  | 0, _, _, rest => ([], true, rest)
  | fuel + 1, item, line, rest =>
    let (first, column) := itemContent line item
    let (task?, first) :=
      match taskMark? first.text with
      | some (checked, behind) => (some checked, { first with text := behind })
      | none => (none, first)
    let (blocks, tightInside, blanks, behind) := readItem fuel item first column rest
    let blocks := markTask task? blocks
    match behind with
    | next :: others =>
      match if next.isLazy || 4 ≤ next.indent then none else itemMark? next.trimmed.text with
      | some nextItem =>
        if nextItem.mark == item.mark then
          let (items, tight, more) := readItems fuel nextItem next others
          (blocks :: items, tight && tightInside && blanks.isEmpty, more)
        else ([blocks], tightInside, blanks ++ behind)
      | none => ([blocks], tightInside, blanks ++ behind)
    | [] => ([blocks], tightInside, blanks)

/-- The meanings of a term of which the first begins with a line, whether they are tight, and the lines
behind them. -/
def readMeanings : Nat → ItemMark → Line → List Line → List Block × Bool × List Line
  | 0, _, _, rest => ([], true, rest)
  | fuel + 1, mark, line, rest =>
    let (first, column) := itemContent line mark
    let (blocks, tightInside, blanks, behind) := readItem fuel mark first column rest
    match behind with
    | next :: others =>
      if next.meaningMark? == some mark then
        let (meanings, tight, more) := readMeanings fuel mark next others
        (.meaning blocks :: meanings, tight && tightInside && blanks.isEmpty, more)
      else ([.meaning blocks], tightInside, blanks ++ behind)
    | [] => ([.meaning blocks], tightInside, blanks)

end

/-- The blocks of a document. -/
def blocksOf (source : List Char) : List Block :=
  (readBlocks (4 * source.length + 8) false (splitLines source)).map (·.2)

end StaticSite.Markdown
