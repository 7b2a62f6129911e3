import StaticSite.Markdown.Emphasis
import StaticSite.Markdown.Link
import StaticSite.Text.Blank

/-!
The text of a paragraph as events. The text is read from left to right; brackets and marks wait for
their partners on a stack of pieces, the nearest first.
-/

namespace StaticSite.Markdown

/-- The punctuation beyond ASCII that counts for marks. -/
def widePunctuation : List (Nat × Nat) :=
  [(0xA1, 0xA9), (0xAB, 0xAC), (0xAE, 0xB1), (0xB4, 0xB4), (0xB6, 0xB8), (0xBB, 0xBB), (0xBF, 0xBF),
    (0xD7, 0xD7), (0xF7, 0xF7), (0x2010, 0x2027), (0x2030, 0x205E), (0x20A0, 0x20C0),
    (0x2190, 0x23FF), (0x2500, 0x27BF), (0x2900, 0x2BFF), (0x3001, 0x3003), (0x3008, 0x3020),
    (0x3030, 0x3030), (0xFE10, 0xFE19), (0xFE30, 0xFE6B), (0xFF01, 0xFF0F), (0xFF1A, 0xFF20),
    (0xFF3B, 0xFF40), (0xFF5B, 0xFF65), (0x1F300, 0x1FAFF)]

def isPunctuation (c : Char) : Bool :=
  isAsciiPunctuation c || widePunctuation.any fun (first, last) =>
    first ≤ c.toNat && c.toNat ≤ last

/-- Whether marks between two characters can open an element. -/
def canOpen (mark : Char) (count : Nat) (previous next : Option Char) : Bool :=
  match next with
  | none => false
  | some n =>
    if Text.isBlank n then false
    else
      match previous with
      | none => true
      | some p =>
        ((mark == '*' || mark == '^') && !isPunctuation n) || (mark == '~' && 1 < count) ||
          (mark == '~' && p == '~' && !isPunctuation n) || Text.isBlank p ||
          (isPunctuation p && (mark != '\'' || (p != ']' && p != ')')))

/-- Whether marks between two characters can close an element. -/
def canClose (mark : Char) (count : Nat) (previous next : Option Char) : Bool :=
  match previous with
  | none => false
  | some p =>
    if Text.isBlank p then false
    else
      match next with
      | none => true
      | some n =>
        ((mark == '*' || mark == '^' || (mark == '~' && 1 < count)) && !isPunctuation p) ||
          (mark == '~' && p == '~') || Text.isBlank n || isPunctuation n

/-- What reading a part of a text leads to: the pieces, the last character, and the text that is left. -/
structure InlineState where
  /-- The nearest piece first. -/
  pieces : List Piece
  previous : Option Char
  rest : List Char

namespace InlineState

/-- One more piece, in place of the text up to a rest of it. -/
def push (state : InlineState) (piece : Piece) (rest : List Char) : InlineState :=
  { pieces := piece :: state.pieces, previous := (before state.rest rest).getLast?.or state.previous
    rest }

def pushEvents (state : InlineState) (events : List Event) (rest : List Char) : InlineState :=
  state.push (.settled events) rest

def pushText (state : InlineState) (text : List Char) (rest : List Char) : InlineState :=
  state.pushEvents [.text (String.ofList text)] rest

end InlineState

/-- The content of a code span: line feeds are spaces, and a space at both ends goes. -/
def codeContent (text : List Char) : String :=
  let text := text.map fun c => if c == '\n' then ' ' else c
  let bothEnds := text.head? == some ' ' && text.getLast? == some ' '
  if bothEnds && text.any (· != ' ') then String.ofList (text.drop 1).dropLast
  else String.ofList text

/-- The text up to a run of exactly `count` backticks, and the text behind it. -/
def codeSpan? (count : Nat) : Nat → List Char → Option (List Char × List Char)
  | 0, _ => none
  | _, [] => none
  | fuel + 1, '\x60' :: rest =>
    let marks := '\x60' :: rest.takeWhile (· == '\x60')
    let more := rest.dropWhile (· == '\x60')
    if marks.length == count then some ([], more)
    else (codeSpan? count fuel more).map fun (taken, more) => (marks ++ taken, more)
  | fuel + 1, c :: rest =>
    (codeSpan? count fuel rest).map fun (taken, more) => (c :: taken, more)

/-- The address in angle brackets that a text begins with, whose `<` has been read. -/
def autolink? (text : List Char) : Option (Target × List Char × List Char) :=
  let address := text.takeWhile fun c => !Text.isBlank c && c != '<' && c != '>' && 0x20 ≤ c.toNat
  match text.dropWhile fun c => !Text.isBlank c && c != '<' && c != '>' && 0x20 ≤ c.toNat with
  | '>' :: rest =>
    let scheme := address.takeWhile fun c => c.isAlphanum || c == '+' || c == '.' || c == '-'
    let startsAlpha := address.head?.any Char.isAlpha
    if startsAlpha && 2 ≤ scheme.length && scheme.length ≤ 32 &&
        (address.drop scheme.length).head? == some ':' then
      some (⟨String.ofList address, ""⟩, address, rest)
    else
      let user := address.takeWhile (· != '@')
      let host := (address.dropWhile (· != '@')).drop 1
      let userOk := !user.isEmpty &&
        user.all fun c => c.isAlphanum || ".!#$%&'*+/=?^_-~".toList.contains c ||
          c == '\x60' || c == '\x7b' || c == '|' || c == '\x7d'
      let labels := (String.ofList host).splitOn "."
      let hostOk := labels.all fun label =>
        let label := label.toList
        !label.isEmpty && label.length ≤ 63 && label.all (fun c => c.isAlphanum || c == '-') &&
          label.head? != some '-' && label.getLast? != some '-'
      if userOk && hostOk then
        some (⟨"mailto:" ++ String.ofList address, ""⟩, address, rest)
      else none
  | _ => none

/-- The text of mathematics up to its closing mark, one dollar sign or two. -/
def mathSpan? (display : Bool) (previous : Char) : List Char → Option (List Char × List Char)
  | [] => none
  | '\\' :: c :: rest =>
    (mathSpan? display c rest).map fun (taken, more) => ('\\' :: c :: taken, more)
  | '$' :: '$' :: rest =>
    if display then some ([], rest)
    else if !Text.isBlank previous then some ([], '$' :: rest)
    else (mathSpan? display '$' ('$' :: rest)).map fun (taken, more) => ('$' :: taken, more)
  | c :: rest =>
    if c == '$' && !display && !Text.isBlank previous then some ([], rest)
    else (mathSpan? display c rest).map fun (taken, more) => (c :: taken, more)

/-- A number of hyphens as dashes. -/
def dashes (count : Nat) : String :=
  let (em, en) :=
    if count % 3 == 0 then (count / 3, 0)
    else if count % 2 == 0 then (0, count / 2)
    else if count % 6 == 1 then (count / 3 - 1, 2)
    else (count / 3, 1)
  if count ≤ 1 then "-"
  else String.ofList (List.replicate em '—' ++ List.replicate en '–')

/-- The label of a footnote reference or definition, whose `[^` has been read. -/
def footnoteLabel? (text : List Char) : Option (List Char × List Char) :=
  let label := text.takeWhile fun c => c != ']' && c != '[' && !Text.isBlank c
  match text.dropWhile fun c => c != ']' && c != '[' && !Text.isBlank c with
  | ']' :: rest => if label.isEmpty then none else some (label, rest)
  | _ => none

/-- The page and the shown text of a link in double brackets, which have been read. -/
def wikiLink? (text : List Char) : Option (List Char × List Char × List Char) :=
  let inner := text.takeWhile fun c => c != ']' && c != '[' && c != '\n'
  match text.dropWhile fun c => c != ']' && c != '[' && c != '\n' with
  | ']' :: ']' :: rest =>
    if inner.isEmpty then none
    else
      let page := inner.takeWhile (· != '|')
      match inner.dropWhile (· != '|') with
      | '|' :: shown => some (page, shown, rest)
      | _ => some (inner, inner, rest)
  | _ => none

/-- What a closing bracket refers to: a target in parentheses, or one that a label is defined to be.
`label` is the text between the brackets. -/
def targetOf? (definitions : Definitions) (label rest : List Char) :
    Option (Target × List Char) :=
  let shortcut := (definitions.lookup (normalizeLabel label)).map fun target => (target, rest)
  match rest with
  | '(' :: more => (inlineTarget? more).or shortcut
  | '[' :: ']' :: more => shortcut.map fun (target, _) => (target, more)
  | '[' :: more =>
    match labelUpTo? more with
    | some (given, more) => (definitions.lookup (normalizeLabel given)).map fun t => (t, more)
    | none => shortcut
  | _ => shortcut

/-- A bracket of a link can no longer open a link once a link stands behind it. -/
def Piece.deactivate : Piece → Piece
  | .bracket false _ behind => .bracket false false behind
  | piece => piece

def Piece.isBracket : Piece → Bool
  | .bracket _ _ _ => true
  | _ => false

/-- Reads a closing bracket. -/
def closeBracket (definitions : Definitions) (state : InlineState) (rest : List Char) :
    InlineState :=
  let inner := state.pieces.takeWhile fun piece => !piece.isBracket
  match state.pieces.dropWhile fun piece => !piece.isBracket with
  | .bracket image active behind :: below =>
    let label := before behind state.rest
    match if active then targetOf? definitions label rest else none with
    | none =>
      let pieces := inner ++ .settled (Piece.bracket image active behind).toEvents :: below
      { state with pieces }.pushText [']'] rest
    | some (target, rest) =>
      let tag : Tag := if image then .image target.destination target.title
        else .link target.destination target.title
      let below := if image then below else below.map Piece.deactivate
      { state with pieces := below }.pushEvents
        (Event.start tag :: (resolve inner.reverse ++ [Event.finish tag])) rest
  | _ => state.pushText [']'] rest

/-- Reads a run of marks. -/
def readRun (state : InlineState) (mark : Char) (count : Nat) (rest : List Char) : InlineState :=
  if (mark == '~' && 2 < count) || (mark == '^' && 1 < count) then
    state.pushText (List.replicate count mark) rest
  else
    state.push (.run mark count count (canOpen mark count state.previous rest.head?)
      (canClose mark count state.previous rest.head?)) rest

/-- Reads what begins with an opening bracket. -/
def readBracket (state : InlineState) (rest : List Char) : InlineState :=
  match rest with
  | '^' :: label =>
    match footnoteLabel? label with
    | some (label, more) =>
      if more.head? == some '(' then state.push (.bracket false true rest) rest
      else state.pushEvents [.footnoteReference (String.ofList label)] more
    | none => state.push (.bracket false true rest) rest
  | '[' :: inner =>
    match wikiLink? inner with
    | some (page, shown, more) =>
      let tag : Tag := .link (String.ofList page) ""
      state.pushEvents [.start tag, .text (String.ofList shown), .finish tag] more
    | none => state.push (.bracket false true rest) rest
  | _ => state.push (.bracket false true rest) rest

/-- Reads what begins with a dollar sign. -/
def readMath (state : InlineState) (rest : List Char) : InlineState :=
  let display := rest.head? == some '$'
  let inner := if display then rest.drop 1 else rest
  let opens := inner.head?.any fun c => !Text.isBlank c || display
  match if opens then mathSpan? display ' ' inner else none with
  | some (text, more) =>
    if text.isEmpty then state.pushText ['$'] rest
    else if display then state.pushEvents [.displayMath (String.ofList text)] more
    else state.pushEvents [.inlineMath (String.ofList text)] more
  | none => state.pushText ['$'] rest

/-- Reads what begins with `<`. -/
def readAngle (state : InlineState) (rest : List Char) : InlineState :=
  match autolink? rest with
  | some (target, shown, more) =>
    let tag : Tag := .link target.destination target.title
    state.pushEvents [.start tag, .text (String.ofList shown), .finish tag] more
  | none =>
    match afterHtml? rest with
    | some more => state.pushEvents [.inlineHtml (String.ofList (before state.rest more))] more
    | none => state.pushText ['<'] rest

/-- Reads spaces, which end in a line break if the line does. -/
def readSpaces (state : InlineState) (spaces rest : List Char) : InlineState :=
  match rest with
  | [] => state.pushEvents [] []
  | '\n' :: more =>
    state.pushEvents [if 2 ≤ spaces.length then .hardBreak else .softBreak] more
  | _ => state.pushText spaces rest

/-- The characters that stand for themselves wherever they are. -/
def isPlain (c : Char) : Bool := !"\\\x60<&*_~^\"'-.![]$ \n".toList.contains c

/-- Reads a part of a text that begins with a character. -/
def readPart (definitions : Definitions) (state : InlineState) (c : Char) (rest : List Char) :
    InlineState :=
  match c with
  | '\\' =>
    match rest with
    | '\n' :: more => state.pushEvents [.hardBreak] more
    | e :: more =>
      if isAsciiPunctuation e then state.pushText [e] more else state.pushText ['\\'] rest
    | [] => state.pushText ['\\'] rest
  | '\x60' =>
    let count := (rest.takeWhile (· == '\x60')).length + 1
    let more := rest.dropWhile (· == '\x60')
    match codeSpan? count (more.length + 1) more with
    | some (text, more) => state.pushEvents [.code (codeContent text)] more
    | none => state.pushText (List.replicate count '\x60') more
  | '<' => readAngle state rest
  | '&' =>
    match reference? rest with
    | some (characters, more) => state.pushText characters more
    | none => state.pushText ['&'] rest
  | '"' | '\'' =>
    state.push (.quote c (canOpen c 1 state.previous rest.head?)
      (canClose c 1 state.previous rest.head?)) rest
  | '-' =>
    let count := (rest.takeWhile (· == '-')).length + 1
    state.pushText (dashes count).toList (rest.dropWhile (· == '-'))
  | '.' =>
    match rest with
    | '.' :: '.' :: more => state.pushText ['…'] more
    | _ => state.pushText ['.'] rest
  | '!' =>
    match rest with
    | '[' :: more => state.push (.bracket true true more) more
    | _ => state.pushText ['!'] rest
  | '[' => readBracket state rest
  | ']' => closeBracket definitions state rest
  | '$' => readMath state rest
  | '\n' => state.pushEvents [.softBreak] rest
  | ' ' =>
    readSpaces state (' ' :: rest.takeWhile (· == ' ')) (rest.dropWhile (· == ' '))
  | '*' | '_' | '~' | '^' =>
    readRun state c ((rest.takeWhile (· == c)).length + 1) (rest.dropWhile (· == c))
  | c => state.pushText (c :: rest.takeWhile isPlain) (rest.dropWhile isPlain)

/-- Reads a text part by part. -/
def readParts (definitions : Definitions) : Nat → InlineState → List Piece
  | 0, state => state.pieces
  | fuel + 1, state =>
    match state.rest with
    | [] => state.pieces
    | c :: rest => readParts definitions fuel (readPart definitions state c rest)

/-- The events of the text of a paragraph. -/
def inlineEvents (definitions : Definitions) (text : List Char) : List Event :=
  let pieces := readParts definitions (text.length + 1) ⟨[], none, text⟩
  resolve pieces.reverse

end StaticSite.Markdown
