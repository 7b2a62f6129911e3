import StaticSite.Template.Lexer

/-!
Splitting a template into text and code. A marker begins at a `<?` that has a `?>` behind it and ends at
the first such `?>`. A hyphen inside either end removes the blanks on the outer side of that end.
-/

namespace StaticSite.Template

/-- A part of a template, with the byte offset at which it begins. -/
inductive Piece
  | text (position : Nat) (content : List Char)
  | code (position : Nat) (content : List Char)
deriving DecidableEq, Repr

/-- The number of characters before the first `?>`, if there is one. -/
def closeAt? : List Char → Option Nat
  | '?' :: '>' :: _ => some 0
  | _ :: rest => (closeAt? rest).map (· + 1)
  | [] => none

/-- A marker from behind its `<?`. -/
structure Marker where
  trimBefore : Bool
  code : List Char
  /-- The number of characters that the marker takes after `<?`, with the blanks it removes. -/
  width : Nat

/-- Code without the hyphen at its end, and whether there was one. -/
def dropHyphen (code : List Char) : List Char × Bool :=
  if code.getLast? == some '-' then (code.dropLast, true) else (code, false)

/-- The marker whose `<?` stands before the given text, if it is closed. -/
def marker? (rest : List Char) : Option Marker :=
  let trimBefore := rest.head? == some '-'
  let body := if trimBefore then rest.drop 1 else rest
  (closeAt? body).map fun width =>
    let (code, trimAfter) := dropHyphen (body.take width)
    let blanks :=
      if trimAfter then ((body.drop (width + 2)).takeWhile Text.isBlank).length else 0
    { trimBefore, code, width := (if trimBefore then 1 else 0) + width + 2 + blanks }

/-- A text piece, unless it is empty. -/
def textPiece (position : Nat) (content : List Char) : List Piece :=
  if content.isEmpty then [] else [.text position content]

/-- The pieces of a template from byte `position` on; `before` is the text since byte `start` that still
belongs to no piece, reversed. -/
def piecesFrom (start position : Nat) (before : List Char) : List Char → List Piece
  | [] => textPiece start before.reverse
  | c :: rest =>
    match (if c = '<' && rest.head? == some '?' then marker? (rest.drop 1) else none) with
    | none => piecesFrom start (position + c.utf8Size) (c :: before) rest
    | some marker =>
      let text := before.reverse
      let text := if marker.trimBefore then Text.trimRight text else text
      let codePosition := position + 2 + (if marker.trimBefore then 1 else 0)
      let body := rest.drop 1
      let next := position + 2 + Text.byteLength (body.take marker.width)
      textPiece start text ++
        .code codePosition marker.code :: piecesFrom next next [] (body.drop marker.width)
termination_by source => source.length
decreasing_by
  · simp
  · simp only [List.length_drop, List.length_cons]
    omega

/-- The pieces of a template in order. -/
def pieces (source : List Char) : List Piece := piecesFrom 0 0 [] source

/-- The tokens of a piece. Code ends with a token of its own, and code that begins with `=` begins with
one too. -/
def Piece.tokens : Piece → Except SyntaxError (List Placed)
  | .text position content => .ok [⟨.text (String.ofList content), position⟩]
  | .code position content => do
    let finish : Placed := ⟨.spanEnd, position + Text.byteLength content⟩
    match content with
    | '=' :: expression =>
      let tokens ← lexFrom (position + 1) expression
      .ok (⟨.echo, position⟩ :: tokens ++ [finish])
    | statements =>
      let tokens ← lexFrom position statements
      .ok (tokens ++ [finish])

/-- The tokens of a list of pieces. -/
def piecesTokens : List Piece → Except SyntaxError (List Placed)
  | [] => .ok []
  | piece :: rest => do
    let tokens ← piece.tokens
    let others ← piecesTokens rest
    .ok (tokens ++ others)

/-- The tokens of a template, with the token for its end. -/
def scan (source : List Char) : Except SyntaxError (List Placed) := do
  let tokens ← piecesTokens (pieces source)
  .ok (tokens ++ [⟨.finish, Text.byteLength source⟩])

end StaticSite.Template
