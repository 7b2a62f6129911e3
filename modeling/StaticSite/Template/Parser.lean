import StaticSite.Template.Span
import StaticSite.Template.Operators

/-!
Parsing tokens into nodes. Every function takes the tokens that are left and gives back those that it
leaves. The first argument bounds the depth of calls; each call on the way to the next token takes one
off, so a small multiple of the number of tokens is always enough.
-/

namespace StaticSite.Template

open Json (Value)

/-- The tokens that are left, where the last one taken began, and the offsets of the line feeds of the
source. -/
structure Cursor where
  tokens : List Placed
  previous : Nat
  lineFeeds : List Nat

namespace Cursor

def peek (c : Cursor) : Token :=
  match c.tokens with
  | placed :: _ => placed.token
  | [] => .finish

def position (c : Cursor) : Nat :=
  match c.tokens with
  | placed :: _ => placed.position
  | [] => c.previous

def advance (c : Cursor) : Cursor :=
  { c with tokens := c.tokens.tail, previous := c.position }

def atSymbol (c : Cursor) (s : Symbol) : Bool :=
  match c.peek with
  | .symbol found => found == s
  | _ => false

def atKeyword (c : Cursor) (word : Keyword) : Bool :=
  match c.peek with
  | .keyword found => found == word
  | _ => false

/-- The error that something else stands here. -/
def unexpected (c : Cursor) (wanted : String) : SyntaxError :=
  ⟨c.position, .expected wanted c.peek⟩

/-- The cursor behind a symbol that has to stand here. -/
def expect (c : Cursor) (s : Symbol) : Except SyntaxError Cursor :=
  if c.atSymbol s then .ok c.advance else .error (c.unexpected (backquoted s.text))

/-- The cursor behind a symbol if it stands here. -/
def skip (c : Cursor) (s : Symbol) : Cursor := if c.atSymbol s then c.advance else c

/-- The identifier that has to stand here. -/
def identifier (c : Cursor) : Except SyntaxError (String × Cursor) :=
  match c.peek with
  | .identifier name => .ok (name, c.advance)
  | _ => .error (c.unexpected "identifier")

/-- Whether the source has a line feed from the last token taken up to the next one. -/
def onNewLine (c : Cursor) : Bool :=
  c.lineFeeds.any fun offset => c.previous ≤ offset && offset < c.position

/-- The cursor behind the end of a statement: a semicolon, the end of what surrounds the statement, or a
line feed. -/
def endStatement (c : Cursor) : Except SyntaxError Cursor :=
  match c.peek with
  | .symbol .semicolon => .ok c.advance
  | .symbol .closeBrace | .spanEnd | .finish => .ok c
  | _ =>
    if c.onNewLine then .ok c
    else .error (c.unexpected (backquoted ";" ++ " or end of line"))

/-- Whether a token ends a span. -/
def endsSpan (placed : Placed) : Bool :=
  match placed.token with
  | .spanEnd => true
  | _ => false

/-- The cursor at the first token that does not end a span. -/
def skipSpanEnds (c : Cursor) : Cursor := { c with tokens := c.tokens.dropWhile endsSpan }

end Cursor

/-- The binary operator of a level that a token stands for. -/
def operatorAt? (level : Nat) (token : Token) : Option BinaryOperator :=
  let operator? : Option BinaryOperator :=
    match token with
    | .symbol .orOr => some .or
    | .symbol .andAnd => some .and
    | .symbol .equal => some .equal
    | .symbol .notEqual => some .notEqual
    | .symbol .less => some .less
    | .symbol .lessEqual => some .lessEqual
    | .symbol .greater => some .greater
    | .symbol .greaterEqual => some .greaterEqual
    | .symbol .plus => some .add
    | .symbol .minus => some .subtract
    | .symbol .star => some .multiply
    | .symbol .slash => some .divide
    | .symbol .percent => some .remainder
    | _ => none
  operator?.filter fun operator => operator.level == level

/-- A number of the source as a value. -/
def numberLiteral (position : Nat) (f : Float) : Except SyntaxError Value :=
  match ofFloat f with
  | .ok value => .ok value
  | .error value => .error ⟨position, .notFinite value⟩

/-- The key of an object entry: an identifier, a string, or the text of a number. -/
def objectKey (objectPosition : Nat) (c : Cursor) : Except SyntaxError (String × Cursor) :=
  match c.peek with
  | .identifier name => .ok (name, c.advance)
  | .string name => .ok (name, c.advance)
  | .number f => do
    let value ← numberLiteral objectPosition f
    .ok (toText value, c.advance)
  | _ => .error (c.unexpected "object key")

/-- The error of a parser that has come to the end of its bound. -/
def tooDeep (c : Cursor) : SyntaxError := ⟨c.position, .tooDeep⟩

mutual

def parseExpr : Nat → Cursor → Except SyntaxError (Expr × Cursor)
  | 0, c => .error (tooDeep c)
  | depth + 1, c => do
    let (condition, c) ← parseBinary depth 0 c
    if c.atSymbol .question then
      let (yes, c) ← parseExpr depth c.advance
      let c ← c.expect .colon
      let (no, c) ← parseExpr depth c
      .ok (.conditional condition.position condition yes no, c)
    else .ok (condition, c)

/-- Operands joined by the operators of a level and tighter ones. -/
def parseBinary : Nat → Nat → Cursor → Except SyntaxError (Expr × Cursor)
  | 0, _, c => .error (tooDeep c)
  | depth + 1, level, c =>
    if tightestLevel < level then parseUnary depth c
    else do
      let (left, c) ← parseBinary depth (level + 1) c
      parseOperators depth level left c

/-- The operators of a level that follow a first operand. -/
def parseOperators : Nat → Nat → Expr → Cursor → Except SyntaxError (Expr × Cursor)
  | 0, _, _, c => .error (tooDeep c)
  | depth + 1, level, left, c =>
    match operatorAt? level c.peek with
    | none => .ok (left, c)
    | some operator => do
      let (right, c) ← parseBinary depth (level + 1) c.advance
      parseOperators depth level (.binary left.position operator left right) c

def parseUnary : Nat → Cursor → Except SyntaxError (Expr × Cursor)
  | 0, c => .error (tooDeep c)
  | depth + 1, c =>
    match c.peek with
    | .symbol .bang => do
      let (operand, rest) ← parseUnary depth c.advance
      .ok (.unary c.position .not operand, rest)
    | .symbol .minus => do
      let (operand, rest) ← parseUnary depth c.advance
      .ok (.unary c.position .negate operand, rest)
    | _ => do
      let (target, c) ← parsePrimary depth c
      parseAccesses depth target c

/-- The members and indices that follow an expression. -/
def parseAccesses : Nat → Expr → Cursor → Except SyntaxError (Expr × Cursor)
  | 0, _, c => .error (tooDeep c)
  | depth + 1, target, c =>
    match c.peek with
    | .symbol .dot => do
      let (name, c) ← c.advance.identifier
      parseAccesses depth (.member target.position target name) c
    | .symbol .openBracket => do
      let (index, c) ← parseExpr depth c.advance
      let c ← c.expect .closeBracket
      parseAccesses depth (.index target.position target index) c
    | .symbol .openParen => .error ⟨c.position, .callOfExpression⟩
    | _ => .ok (target, c)

def parsePrimary : Nat → Cursor → Except SyntaxError (Expr × Cursor)
  | 0, c => .error (tooDeep c)
  | depth + 1, c =>
    let position := c.position
    let after := c.advance
    match c.peek with
    | .number f => do
      let value ← numberLiteral position f
      .ok (.literal position value, after)
    | .string s => .ok (.literal position (.string s), after)
    | .keyword .trueWord => .ok (.literal position (.bool true), after)
    | .keyword .falseWord => .ok (.literal position (.bool false), after)
    | .keyword .nullWord => .ok (.literal position .null, after)
    | .identifier name =>
      if after.atSymbol .openParen then
        if name == "include" then .error ⟨position, .includeInExpression⟩
        else do
          let (arguments, c) ← parseItems depth .closeParen after.advance
          .ok (.call position name arguments, c)
      else .ok (.variable position name, after)
    | .symbol .openParen => do
      let (inner, c) ← parseExpr depth after
      let c ← c.expect .closeParen
      .ok (inner, c)
    | .symbol .openBracket => do
      let (items, c) ← parseItems depth .closeBracket after
      .ok (.array position items, c)
    | .symbol .openBrace => do
      let (entries, c) ← parseEntries depth position after
      .ok (.object position entries, c)
    | _ => .error (c.unexpected "expression")

/-- Expressions with commas between them up to a closing symbol; a comma may stand before it. -/
def parseItems : Nat → Symbol → Cursor → Except SyntaxError (List Expr × Cursor)
  | 0, _, c => .error (tooDeep c)
  | depth + 1, close, c =>
    if c.atSymbol close then .ok ([], c.advance)
    else do
      let (item, c) ← parseExpr depth c
      if c.atSymbol .comma then
        let (items, c) ← parseItems depth close c.advance
        .ok (item :: items, c)
      else
        let c ← c.expect close
        .ok ([item], c)

/-- Entries of an object with commas between them up to its brace; a comma may stand before it. -/
def parseEntries : Nat → Nat → Cursor → Except SyntaxError ((List (String × Expr)) × Cursor)
  | 0, _, c => .error (tooDeep c)
  | depth + 1, position, c =>
    if c.atSymbol .closeBrace then .ok ([], c.advance)
    else do
      let (key, c) ← objectKey position c
      let c ← c.expect .colon
      let (value, c) ← parseExpr depth c
      if c.atSymbol .comma then
        let (entries, c) ← parseEntries depth position c.advance
        .ok ((key, value) :: entries, c)
      else
        let c ← c.expect .closeBrace
        .ok ([(key, value)], c)

end

/-- The include statement whose arguments follow. -/
def parseEmbed (depth : Nat) (c : Cursor) : Except SyntaxError (Node × Cursor) := do
  let (arguments, rest) ← parseItems depth .closeParen c.advance.advance
  match arguments with
  | [path] =>
    let rest ← rest.endStatement
    .ok (.embed c.position path none, rest)
  | [path, environment] =>
    let rest ← rest.endStatement
    .ok (.embed c.position path (some environment), rest)
  | _ => .error ⟨c.position, .includeArguments⟩

/-- A statement that begins with an expression: the expression by itself, or an assignment. -/
def parseSimple (depth : Nat) (c : Cursor) : Except SyntaxError (Node × Cursor) := do
  let (target, c) ← parseExpr depth c
  if c.atSymbol .assign then
    match target with
    | .variable position name =>
      let (value, c) ← parseExpr depth c.advance
      let c ← c.endStatement
      .ok (.assign position name value, c)
    | _ => .error ⟨c.position, .assignmentToExpression⟩
  else
    let c ← c.endStatement
    .ok (.expression target, c)

/-- The expression of an echo span, which has to be all of the span. -/
def parseEcho (depth : Nat) (c : Cursor) : Except SyntaxError (Node × Cursor) := do
  let (value, c) ← parseExpr depth c.advance
  let c := c.skip .semicolon
  match c.peek with
  | .spanEnd => .ok (.echo value, c)
  | _ => .error (c.unexpected (backquoted "?>" ++ " after echoed expression"))

/-- A declaration of a variable. -/
def parseDeclare (depth : Nat) (c : Cursor) : Except SyntaxError (Node × Cursor) := do
  let (name, c) ← c.advance.identifier
  let c ← c.expect .assign
  let (value, c) ← parseExpr depth c
  let c ← c.endStatement
  .ok (.declare name value, c)

/-- The head of a loop up to its body: the names and the expression, within parentheses or not. -/
def parseEachHead (depth : Nat) (c : Cursor) :
    Except SyntaxError ((String × Option String × Expr) × Cursor) := do
  let c := c.advance
  let parenthesized := c.atSymbol .openParen
  let c := c.skip .openParen
  let c := if c.atKeyword .letWord then c.advance else c
  let (first, c) ← c.identifier
  let (second, c) ←
    if c.atSymbol .comma then do
      let (second, c) ← c.advance.identifier
      pure (some second, c)
    else pure (none, c)
  let c ←
    if c.atKeyword .inWord then pure c.advance
    else .error (c.unexpected (backquoted Keyword.inWord.text))
  let (entries, c) ← parseExpr depth c
  let c ← if parenthesized then c.expect .closeParen else pure c
  .ok ((first, second, entries), c)

mutual

/-- Statements up to the brace that closes the block opened at `opening`, or up to the end of the
template if there is none. -/
def parseBlock : Nat → Option Nat → Cursor → Except SyntaxError (List Node × Cursor)
  | 0, _, c => .error (tooDeep c)
  | depth + 1, opening, c =>
    match c.peek with
    | .symbol .semicolon | .spanEnd => parseBlock depth opening c.advance
    | .finish =>
      match opening with
      | some position => .error ⟨position, .unclosedBrace⟩
      | none => .ok ([], c)
    | .symbol .closeBrace =>
      match opening with
      | some _ => .ok ([], c.advance)
      | none => .error (c.unexpected "statement")
    | _ => do
      let (node, c) ← parseStatement depth c
      let (nodes, c) ← parseBlock depth opening c
      .ok (node :: nodes, c)

def parseStatement : Nat → Cursor → Except SyntaxError (Node × Cursor)
  | 0, c => .error (tooDeep c)
  | depth + 1, c =>
    match c.peek with
    | .text content => .ok (.text content, c.advance)
    | .echo => parseEcho depth c
    | .keyword .letWord => parseDeclare depth c
    | .keyword .ifWord => do
      let (branch, c) ← parseBranch depth c.advance
      let ((branches, otherwise), c) ← parseAlternatives depth c
      .ok (.choose (branch :: branches) otherwise, c)
    | .keyword .forWord => do
      let ((first, second, entries), c) ← parseEachHead depth c
      let (body, c) ← parseBody depth c
      .ok (.each first second entries body, c)
    | .identifier name =>
      if name == "include" && c.advance.atSymbol .openParen then parseEmbed depth c
      else parseSimple depth c
    | _ => parseSimple depth c

/-- A block between braces. -/
def parseBody : Nat → Cursor → Except SyntaxError (List Node × Cursor)
  | 0, c => .error (tooDeep c)
  | depth + 1, c => do
    let inner ← c.expect .openBrace
    parseBlock depth (some c.position) inner

/-- A condition and the block that it guards. -/
def parseBranch : Nat → Cursor → Except SyntaxError ((Expr × List Node) × Cursor)
  | 0, c => .error (tooDeep c)
  | depth + 1, c => do
    let (condition, c) ← parseExpr depth c
    let (body, c) ← parseBody depth c
    .ok ((condition, body), c)

/-- The `else` branches behind a block. The ends of spans may stand before an `else`. -/
def parseAlternatives : Nat → Cursor →
    Except SyntaxError ((List (Expr × List Node) × Option (List Node)) × Cursor)
  | 0, c => .error (tooDeep c)
  | depth + 1, c =>
    let ahead := c.skipSpanEnds
    if !ahead.atKeyword .elseWord then .ok (([], none), c)
    else
      let ahead := ahead.advance
      if ahead.atKeyword .ifWord then do
        let (branch, c) ← parseBranch depth ahead.advance
        let ((branches, otherwise), c) ← parseAlternatives depth c
        .ok ((branch :: branches, otherwise), c)
      else do
        let (body, c) ← parseBody depth ahead
        .ok (([], some body), c)

end

/-- The byte offsets of the line feeds of a text that begins at byte `offset`. -/
def lineFeedsFrom (offset : Nat) : List Char → List Nat
  | [] => []
  | c :: rest =>
    if c = '\n' then offset :: lineFeedsFrom (offset + 1) rest
    else lineFeedsFrom (offset + c.utf8Size) rest

/-- A cursor at the beginning of a source. -/
def Cursor.start (source : List Char) (tokens : List Placed) : Cursor :=
  { tokens, previous := 0, lineFeeds := lineFeedsFrom 0 source }

/-- The depth of calls that is enough for a number of tokens. -/
def enoughDepth (tokens : List Placed) : Nat := 16 * (tokens.length + 1)

/-- A template source as nodes. -/
def parse (source : List Char) : Except SyntaxError (List Node) := do
  let tokens ← scan source
  let (nodes, _) ← parseBlock (enoughDepth tokens) none (Cursor.start source tokens)
  .ok nodes

end StaticSite.Template
