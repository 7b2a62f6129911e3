import Mathlib.Tactic.IntervalCases
import StaticSite.Template.Parser

/-!
The grammar of template expressions, and that the parser reads every phrase of it as the grammar says.
A phrase stands at a level: 0 is any expression, 1 to 6 are operands of the binary operators from the
loosest to the tightest, 7 is an operand of a unary operator, and 8 may be followed by accesses.
-/

namespace StaticSite.Template

open Json (Value)

mutual

/-- The expression with every position forgotten. -/
def Expr.unplaced : Expr → Expr
  | .literal _ value => .literal 0 value
  | .variable _ name => .variable 0 name
  | .array _ items => .array 0 (Expr.unplacedItems items)
  | .object _ entries => .object 0 (Expr.unplacedEntries entries)
  | .member _ target name => .member 0 target.unplaced name
  | .index _ target key => .index 0 target.unplaced key.unplaced
  | .call _ name arguments => .call 0 name (Expr.unplacedItems arguments)
  | .unary _ operator operand => .unary 0 operator operand.unplaced
  | .binary _ operator left right => .binary 0 operator left.unplaced right.unplaced
  | .conditional _ condition yes no =>
      .conditional 0 condition.unplaced yes.unplaced no.unplaced

def Expr.unplacedItems : List Expr → List Expr
  | [] => []
  | item :: rest => item.unplaced :: Expr.unplacedItems rest

def Expr.unplacedEntries : List (String × Expr) → List (String × Expr)
  | [] => []
  | (key, value) :: rest => (key, value.unplaced) :: Expr.unplacedEntries rest

end

def BinaryOperator.token : BinaryOperator → Token
  | .add => .symbol .plus
  | .subtract => .symbol .minus
  | .multiply => .symbol .star
  | .divide => .symbol .slash
  | .remainder => .symbol .percent
  | .equal => .symbol .equal
  | .notEqual => .symbol .notEqual
  | .less => .symbol .less
  | .lessEqual => .symbol .lessEqual
  | .greater => .symbol .greater
  | .greaterEqual => .symbol .greaterEqual
  | .and => .symbol .andAnd
  | .or => .symbol .orOr

def UnaryOperator.token : UnaryOperator → Token
  | .not => .symbol .bang
  | .negate => .symbol .minus

/-- The key of an object entry that a token stands for. -/
def Token.key? : Token → Option String
  | .identifier name => some name
  | .string name => some name
  | .number f =>
      match ofFloat f with
      | .ok value => some (toText value)
      | .error _ => none
  | _ => none

/-- The value that a token is by itself. -/
def Token.value? : Token → Option Value
  | .number f =>
      match ofFloat f with
      | .ok value => some value
      | .error _ => none
  | .string s => some (.string s)
  | .keyword .trueWord => some (.bool true)
  | .keyword .falseWord => some (.bool false)
  | .keyword .nullWord => some .null
  | _ => none

mutual

/-- The tokens of an expression at a level. Parentheses lift an expression to the tightest level. -/
inductive Phrase : Nat → Expr → List Token → Prop
  | loosen (tighter : Phrase (level + 1) e ts) : Phrase level e ts
  | conditional (condition : Phrase 1 c cs) (yes : Phrase 0 y ys) (no : Phrase 0 n ns) :
      Phrase 0 (.conditional 0 c y n) (cs ++ .symbol .question :: (ys ++ .symbol .colon :: ns))
  | binary (operator : BinaryOperator) (left : Phrase (operator.level + 1) l ls)
      (right : Phrase (operator.level + 2) r rs) :
      Phrase (operator.level + 1) (.binary 0 operator l r) (ls ++ operator.token :: rs)
  | unary (operator : UnaryOperator) (operand : Phrase 7 e ts) :
      Phrase 7 (.unary 0 operator e) (operator.token :: ts)
  | member (target : Phrase 8 t ts) (name : String) :
      Phrase 8 (.member 0 t name) (ts ++ [.symbol .dot, .identifier name])
  | index (target : Phrase 8 t ts) (index : Phrase 0 i is) :
      Phrase 8 (.index 0 t i) (ts ++ .symbol .openBracket :: (is ++ [.symbol .closeBracket]))
  | literal (denotes : Token.value? token = some value) : Phrase 8 (.literal 0 value) [token]
  | variable (name : String) : Phrase 8 (.variable 0 name) [.identifier name]
  | call (callable : name ≠ "include") (arguments : Items .closeParen es ts) :
      Phrase 8 (.call 0 name es) (.identifier name :: .symbol .openParen :: ts)
  | group (inner : Phrase 0 e ts) :
      Phrase 8 e (.symbol .openParen :: (ts ++ [.symbol .closeParen]))
  | array (items : Items .closeBracket es ts) :
      Phrase 8 (.array 0 es) (.symbol .openBracket :: ts)
  | object (entries : Entries es ts) : Phrase 8 (.object 0 es) (.symbol .openBrace :: ts)

/-- The tokens of expressions with commas between them and the symbol that closes them. -/
inductive Items : Symbol → List Expr → List Token → Prop
  | none : Items close [] [.symbol close]
  | last (item : Phrase 0 e ts) : Items close [e] (ts ++ [.symbol close])
  | cons (item : Phrase 0 e ts) (others : Items close es us) :
      Items close (e :: es) (ts ++ .symbol .comma :: us)

/-- The tokens of object entries with commas between them and the brace that closes them. -/
inductive Entries : List (String × Expr) → List Token → Prop
  | none : Entries [] [.symbol .closeBrace]
  | last (names : Token.key? token = some key) (value : Phrase 0 e ts) :
      Entries [(key, e)] (token :: .symbol .colon :: (ts ++ [.symbol .closeBrace]))
  | cons (names : Token.key? token = some key) (value : Phrase 0 e ts) (others : Entries es us) :
      Entries ((key, e) :: es) (token :: .symbol .colon :: (ts ++ .symbol .comma :: us))

end

theorem Phrase.weaken (phrase : Phrase tight e ts) (looser : loose ≤ tight) : Phrase loose e ts := by
  induction looser with
  | refl => exact phrase
  | step _ ih => exact ih (.loosen phrase)

/-- Whether an expression can begin with a token. -/
def Token.begins : Token → Bool
  | .identifier _ | .number _ | .string _ => true
  | .keyword .trueWord | .keyword .falseWord | .keyword .nullWord => true
  | .symbol .openParen | .symbol .openBracket | .symbol .openBrace => true
  | .symbol .minus | .symbol .bang => true
  | _ => false

theorem Token.begins_of_value? {token : Token} (denotes : token.value? = some value) :
    token.begins = true := by
  cases token with
  | keyword word => cases word <;> first | rfl | cases denotes
  | number f => rfl
  | string s => rfl
  | _ => cases denotes

theorem Phrase.exists_begins :
    ∀ {level e ts}, Phrase level e ts → ∃ token us, ts = token :: us ∧ token.begins = true
  | _, _, _, .loosen tighter => tighter.exists_begins
  | _, _, _, .conditional condition _ _ => by
      obtain ⟨token, us, rfl, begins⟩ := condition.exists_begins
      exact ⟨token, _, rfl, begins⟩
  | _, _, _, .binary _ left _ => by
      obtain ⟨token, us, rfl, begins⟩ := left.exists_begins
      exact ⟨token, _, rfl, begins⟩
  | _, _, _, .unary operator _ => ⟨_, _, rfl, by cases operator <;> rfl⟩
  | _, _, _, .member target _ => by
      obtain ⟨token, us, rfl, begins⟩ := target.exists_begins
      exact ⟨token, _, rfl, begins⟩
  | _, _, _, .index target _ => by
      obtain ⟨token, us, rfl, begins⟩ := target.exists_begins
      exact ⟨token, _, rfl, begins⟩
  | _, _, _, .literal denotes => ⟨_, _, rfl, Token.begins_of_value? denotes⟩
  | _, _, _, .variable _ | _, _, _, .call _ _ | _, _, _, .group _ | _, _, _, .array _
  | _, _, _, .object _ => ⟨_, _, rfl, rfl⟩

theorem Phrase.length_pos (phrase : Phrase level e ts) : 0 < ts.length := by
  obtain ⟨token, us, rfl, _⟩ := phrase.exists_begins
  simp

namespace Cursor

variable {c : Cursor} {token : Token} {rest : List Token}

/-- The tokens that are left, without their positions. -/
def ahead (c : Cursor) : List Token := c.tokens.map Placed.token

theorem peek_eq_headD (c : Cursor) : c.peek = c.ahead.headD .finish := by
  unfold peek ahead
  cases c.tokens <;> rfl

theorem peek_of_ahead (ahead : c.ahead = token :: rest) : c.peek = token := by
  rw [peek_eq_headD, ahead]
  rfl

@[simp] theorem ahead_advance (c : Cursor) : c.advance.ahead = c.ahead.tail := by
  unfold advance ahead
  cases c.tokens <;> rfl

theorem ahead_advance_of_ahead (ahead : c.ahead = token :: rest) : c.advance.ahead = rest := by
  rw [ahead_advance, ahead]
  rfl

theorem atSymbol_of_ahead {s : Symbol} (ahead : c.ahead = .symbol s :: rest) : c.atSymbol s = true := by
  simp [atSymbol, peek_of_ahead ahead]

theorem atSymbol_eq_false {s : Symbol} (different : c.peek ≠ .symbol s) : c.atSymbol s = false := by
  unfold atSymbol
  split
  · rename_i found peek
    rw [peek] at different
    simpa using different
  · rfl

theorem expect_of_ahead {s : Symbol} (ahead : c.ahead = .symbol s :: rest) :
    c.expect s = .ok c.advance := by
  simp [expect, atSymbol_of_ahead ahead]

theorem identifier_of_ahead {name : String} (ahead : c.ahead = .identifier name :: rest) :
    c.identifier = .ok (name, c.advance) := by
  simp [identifier, peek_of_ahead ahead]

end Cursor

/-- How tight a level a token takes part in when it follows an expression: a question mark takes any
operand, an operator those of its level, and an access only the tightest. -/
def Token.strength : Token → Nat
  | .symbol .question => 1
  | .symbol .orOr => 2
  | .symbol .andAnd => 3
  | .symbol .equal | .symbol .notEqual => 4
  | .symbol .less | .symbol .lessEqual | .symbol .greater | .symbol .greaterEqual => 5
  | .symbol .plus | .symbol .minus => 6
  | .symbol .star | .symbol .slash | .symbol .percent => 7
  | .symbol .dot | .symbol .openBracket | .symbol .openParen => 9
  | _ => 0

/-- Whether an expression read at a level ends before these tokens. -/
def Stops (level : Nat) (rest : List Token) : Prop := (rest.headD .finish).strength ≤ level

theorem Stops.weaken (stops : Stops tight rest) (looser : tight ≤ loose) : Stops loose rest :=
  Nat.le_trans stops looser

theorem Stops.cons {token : Token} (weak : token.strength ≤ level) : Stops level (token :: rest) := weak

theorem strength_token (operator : BinaryOperator) : operator.token.strength = operator.level + 2 := by
  cases operator <;> rfl

theorem level_le_tightest (operator : BinaryOperator) : operator.level ≤ 5 := by
  cases operator <;> decide

theorem operatorAt?_token (operator : BinaryOperator) :
    operatorAt? operator.level operator.token = some operator := by
  cases operator <;> rfl

theorem operatorAt?_eq_none {token : Token} (weak : token.strength ≤ level + 1) :
    operatorAt? level token = none := by
  cases token with
  | symbol s =>
      cases s <;> simp only [Token.strength] at weak <;>
        simp [operatorAt?, Option.filter, BinaryOperator.level] <;> omega
  | _ => rfl

/-- A parser succeeds with an expression, up to positions, and leaves these tokens. -/
def ReadsAs (e : Expr) (rest : List Token) (outcome : Except SyntaxError (Expr × Cursor)) : Prop :=
  ∃ found left, outcome = .ok (found, left) ∧ found.unplaced = e ∧ left.ahead = rest

/-! What it means that tokens are read as an expression, for each function of the parser. The bound on
the depth falls by one with each call, on the way down to a token too. -/

def ReadsExpr (e : Expr) (ts : List Token) : Prop :=
  ∀ (depth : Nat) {c : Cursor} {rest : List Token}, 16 * ts.length ≤ depth →
    c.ahead = ts ++ rest → Stops 0 rest →
    ReadsAs e rest (parseExpr depth c)

def ReadsBinary (level : Nat) (e : Expr) (ts : List Token) : Prop :=
  ∀ (depth : Nat) {c : Cursor} {rest : List Token}, 16 * ts.length ≤ depth + level + 1 →
    c.ahead = ts ++ rest → Stops (level + 1) rest →
    ReadsAs e rest (parseBinary depth level c)

/-- Reading comes down to the operators of a level behind the expression. -/
def LeadsOperators (level : Nat) (e : Expr) (ts : List Token) : Prop :=
  ∀ (depth : Nat) {c : Cursor} {rest : List Token}, 16 * ts.length ≤ depth + level + 1 →
    c.ahead = ts ++ rest → Stops (level + 2) rest →
    ∃ remaining found left, parseBinary depth level c = parseOperators remaining level found left ∧
      depth ≤ remaining + ts.length ∧ found.unplaced = e ∧ left.ahead = rest

def ReadsUnary (e : Expr) (ts : List Token) : Prop :=
  ∀ (depth : Nat) {c : Cursor} {rest : List Token}, 16 * ts.length ≤ depth + 8 →
    c.ahead = ts ++ rest → Stops 7 rest →
    ReadsAs e rest (parseUnary depth c)

/-- Reading comes down to the accesses behind the expression. -/
def LeadsAccesses (e : Expr) (ts : List Token) : Prop :=
  ∀ (depth : Nat) {c : Cursor} {rest : List Token}, 16 * ts.length ≤ depth + 8 → c.ahead = ts ++ rest →
    rest.headD .finish ≠ .symbol .openParen →
    ∃ remaining found left, parseUnary depth c = parseAccesses remaining found left ∧
      depth ≤ remaining + ts.length ∧ found.unplaced = e ∧ left.ahead = rest

def ReadsPrimary (e : Expr) (ts : List Token) : Prop :=
  ∀ (depth : Nat) {c : Cursor} {rest : List Token}, 16 * ts.length ≤ depth + 9 → c.ahead = ts ++ rest →
    rest.headD .finish ≠ .symbol .openParen → ReadsAs e rest (parsePrimary depth c)

def ReadsItems (close : Symbol) (es : List Expr) (ts : List Token) : Prop :=
  ∀ (depth : Nat) {c : Cursor} {rest : List Token}, 16 * ts.length ≤ depth + 15 → c.ahead = ts ++ rest →
    ∃ found left, parseItems depth close c = .ok (found, left) ∧ Expr.unplacedItems found = es ∧
      left.ahead = rest

def ReadsEntries (es : List (String × Expr)) (ts : List Token) : Prop :=
  ∀ (depth position : Nat) {c : Cursor} {rest : List Token}, 16 * ts.length ≤ depth + 15 →
    c.ahead = ts ++ rest →
    ∃ found left, parseEntries depth position c = .ok (found, left) ∧
      Expr.unplacedEntries found = es ∧ left.ahead = rest

theorem LeadsAccesses.readsUnary (leads : LeadsAccesses e ts) (nonempty : 0 < ts.length) :
    ReadsUnary e ts := by
  intro depth c rest deep ahead stops
  have apart : rest.headD .finish ≠ .symbol .openParen := by
    intro opens
    rw [Stops, opens] at stops
    exact absurd stops (by decide)
  obtain ⟨remaining, found, left, parsed, enough, same, behind⟩ := leads depth deep ahead apart
  obtain ⟨remaining, rfl⟩ : ∃ k, remaining = k + 1 := ⟨remaining - 1, by omega⟩
  refine ⟨found, left, ?_, same, behind⟩
  have weak : left.peek.strength ≤ 7 := by rwa [Cursor.peek_eq_headD, behind]
  rw [parsed, parseAccesses]
  split <;> first | rfl | simp_all [Token.strength]

theorem ReadsUnary.readsBinary (reads : ReadsUnary e ts) (nonempty : 0 < ts.length) :
    ReadsBinary 6 e ts := by
  intro depth c rest deep ahead stops
  obtain ⟨depth, rfl⟩ : ∃ k, depth = k + 1 := ⟨depth - 1, by omega⟩
  rw [parseBinary]
  exact reads depth (by omega) ahead stops

theorem ReadsBinary.leadsOperators (reads : ReadsBinary (level + 1) e ts) (nonempty : 0 < ts.length)
    (bound : level ≤ 5) : LeadsOperators level e ts := by
  intro depth c rest deep ahead stops
  obtain ⟨depth, rfl⟩ : ∃ k, depth = k + 1 := ⟨depth - 1, by omega⟩
  obtain ⟨found, left, parsed, same, behind⟩ := reads depth (by omega) ahead stops
  refine ⟨depth, found, left, ?_, by omega, same, behind⟩
  rw [parseBinary, if_neg (by simp only [tightestLevel]; omega), parsed]
  rfl

theorem LeadsOperators.readsBinary (leads : LeadsOperators level e ts) (nonempty : 0 < ts.length)
    (bound : level ≤ 5) : ReadsBinary level e ts := by
  intro depth c rest deep ahead stops
  obtain ⟨remaining, found, left, parsed, enough, same, behind⟩ :=
    leads depth deep ahead (stops.weaken (Nat.le_succ _))
  obtain ⟨remaining, rfl⟩ : ∃ k, remaining = k + 1 := ⟨remaining - 1, by omega⟩
  refine ⟨found, left, ?_, same, behind⟩
  have weak : left.peek.strength ≤ level + 1 := by rwa [Cursor.peek_eq_headD, behind]
  rw [parsed, parseOperators, operatorAt?_eq_none weak]

theorem ReadsBinary.readsExpr (reads : ReadsBinary 0 e ts) (nonempty : 0 < ts.length) :
    ReadsExpr e ts := by
  intro depth c rest deep ahead stops
  obtain ⟨depth, rfl⟩ : ∃ k, depth = k + 1 := ⟨depth - 1, by omega⟩
  obtain ⟨found, left, parsed, same, behind⟩ :=
    reads depth (by omega) ahead (stops.weaken (Nat.zero_le _))
  have ends : left.atSymbol .question = false := by
    refine Cursor.atSymbol_eq_false fun peek => ?_
    rw [Cursor.peek_eq_headD, behind] at peek
    rw [Stops, peek] at stops
    exact absurd stops (by decide)
  refine ⟨found, left, ?_, same, behind⟩
  rw [parseExpr, parsed]
  simp [bind, Except.bind, ends]

theorem ReadsExpr.conditional (condition : ReadsBinary 0 c cs) (yes : ReadsExpr y ys)
    (no : ReadsExpr n ns) :
    ReadsExpr (.conditional 0 c y n) (cs ++ .symbol .question :: (ys ++ .symbol .colon :: ns)) := by
  intro depth start rest deep ahead stops
  simp only [List.length_append, List.length_cons] at deep
  simp only [List.append_assoc, List.cons_append] at ahead
  obtain ⟨depth, rfl⟩ : ∃ k, depth = k + 1 := ⟨depth - 1, by omega⟩
  obtain ⟨c', atQuestion, readCondition, rfl, ahead⟩ :=
    condition depth (by omega) ahead (.cons (by decide))
  have question := Cursor.atSymbol_of_ahead ahead
  obtain ⟨y', atColon, readYes, rfl, ahead⟩ :=
    yes depth (by omega) (Cursor.ahead_advance_of_ahead ahead) (.cons (by decide))
  have colon := Cursor.expect_of_ahead ahead
  obtain ⟨n', left, readNo, rfl, behind⟩ :=
    no depth (by omega) (Cursor.ahead_advance_of_ahead ahead) stops
  refine ⟨.conditional c'.position c' y' n', left, ?_, by rw [Expr.unplaced], behind⟩
  rw [parseExpr]
  simp only [readCondition, bind, Except.bind, question, if_true, readYes, colon, readNo]

theorem LeadsOperators.binary (operator : BinaryOperator) (left : LeadsOperators operator.level l ls)
    (right : ReadsBinary (operator.level + 1) r rs) :
    LeadsOperators operator.level (.binary 0 operator l r) (ls ++ operator.token :: rs) := by
  intro depth start rest deep ahead stops
  have loosest := level_le_tightest operator
  simp only [List.length_append, List.length_cons] at deep ⊢
  simp only [List.append_assoc, List.cons_append] at ahead
  obtain ⟨remaining, l', atOperator, readLeft, enough, rfl, ahead⟩ :=
    left depth (by omega) ahead (Nat.le_of_eq (strength_token operator))
  obtain ⟨remaining, rfl⟩ : ∃ k, remaining = k + 1 := ⟨remaining - 1, by omega⟩
  have found : operatorAt? operator.level atOperator.peek = some operator := by
    rw [Cursor.peek_of_ahead ahead, operatorAt?_token]
  obtain ⟨r', behind, readRight, rfl, ahead⟩ :=
    right remaining (by omega) (Cursor.ahead_advance_of_ahead ahead) stops
  refine ⟨remaining, .binary l'.position operator l' r', behind, ?_, by omega, by rw [Expr.unplaced], ahead⟩
  rw [readLeft, parseOperators]
  simp only [found, readRight, bind, Except.bind]

theorem ReadsUnary.unary (operator : UnaryOperator) (operand : ReadsUnary e ts) :
    ReadsUnary (.unary 0 operator e) (operator.token :: ts) := by
  intro depth c rest deep ahead stops
  simp only [List.length_cons] at deep
  rw [List.cons_append] at ahead
  obtain ⟨depth, rfl⟩ : ∃ k, depth = k + 1 := ⟨depth - 1, by omega⟩
  have peek := Cursor.peek_of_ahead ahead
  obtain ⟨e', left, read, rfl, behind⟩ :=
    operand depth (by omega) (Cursor.ahead_advance_of_ahead ahead) stops
  refine ⟨.unary c.position operator e', left, ?_, by rw [Expr.unplaced], behind⟩
  rw [parseUnary]
  cases operator <;> simp only [UnaryOperator.token] at peek <;> simp only [peek, read, bind, Except.bind]

theorem LeadsAccesses.member (target : LeadsAccesses t ts) (name : String) :
    LeadsAccesses (.member 0 t name) (ts ++ [.symbol .dot, .identifier name]) := by
  intro depth c rest deep ahead apart
  simp only [List.length_append, List.length_cons, List.length_nil] at deep ⊢
  simp only [List.append_assoc, List.cons_append, List.nil_append] at ahead
  obtain ⟨remaining, t', atDot, readTarget, enough, rfl, ahead⟩ := target depth (by omega) ahead (by simp)
  obtain ⟨remaining, rfl⟩ : ∃ k, remaining = k + 1 := ⟨remaining - 1, by omega⟩
  have dot := Cursor.peek_of_ahead ahead
  have behindDot := Cursor.ahead_advance_of_ahead ahead
  have named := Cursor.identifier_of_ahead behindDot
  refine ⟨remaining, .member t'.position t' name, atDot.advance.advance, ?_, by omega,
    by rw [Expr.unplaced], Cursor.ahead_advance_of_ahead behindDot⟩
  rw [readTarget, parseAccesses]
  simp only [dot, named, bind, Except.bind]

theorem LeadsAccesses.index (target : LeadsAccesses t ts) (index : ReadsExpr i is) :
    LeadsAccesses (.index 0 t i) (ts ++ .symbol .openBracket :: (is ++ [.symbol .closeBracket])) := by
  intro depth c rest deep ahead apart
  simp only [List.length_append, List.length_cons, List.length_nil] at deep ⊢
  simp only [List.append_assoc, List.cons_append, List.nil_append] at ahead
  obtain ⟨remaining, t', atBracket, readTarget, enough, rfl, ahead⟩ :=
    target depth (by omega) ahead (by simp)
  obtain ⟨remaining, rfl⟩ : ∃ k, remaining = k + 1 := ⟨remaining - 1, by omega⟩
  have bracket := Cursor.peek_of_ahead ahead
  obtain ⟨i', atClose, readIndex, rfl, ahead⟩ :=
    index remaining (by omega) (Cursor.ahead_advance_of_ahead ahead) (.cons (by decide))
  have close := Cursor.expect_of_ahead ahead
  refine ⟨remaining, .index t'.position t' i', atClose.advance, ?_, by omega,
    by rw [Expr.unplaced], Cursor.ahead_advance_of_ahead ahead⟩
  rw [readTarget, parseAccesses]
  simp only [bracket, readIndex, close, bind, Except.bind]

theorem ReadsPrimary.leadsAccesses {token : Token} (reads : ReadsPrimary e (token :: ts))
    (notBang : token ≠ .symbol .bang) (notMinus : token ≠ .symbol .minus) :
    LeadsAccesses e (token :: ts) := by
  intro depth c rest deep ahead apart
  obtain ⟨depth, rfl⟩ : ∃ k, depth = k + 1 := ⟨depth - 1, by simp only [List.length_cons] at deep; omega⟩
  obtain ⟨e', left, read, same, behind⟩ := reads depth (by omega) ahead apart
  have peek := Cursor.peek_of_ahead ahead
  refine ⟨depth, e', left, ?_, by simp only [List.length_cons]; omega, same, behind⟩
  rw [parseUnary]
  split
  · rename_i bang
    exact absurd (peek.symm.trans bang) notBang
  · rename_i minus
    exact absurd (peek.symm.trans minus) notMinus
  · simp only [read, bind, Except.bind]

theorem ReadsPrimary.literal {token : Token} {value : Value} (denotes : token.value? = some value) :
    ReadsPrimary (.literal 0 value) [token] := by
  intro depth c rest deep ahead apart
  simp only [List.length_cons, List.length_nil] at deep
  obtain ⟨depth, rfl⟩ : ∃ k, depth = k + 1 := ⟨depth - 1, by omega⟩
  have peek := Cursor.peek_of_ahead ahead
  refine ⟨.literal c.position value, c.advance, ?_, by rw [Expr.unplaced],
    Cursor.ahead_advance_of_ahead ahead⟩
  rw [parsePrimary]
  cases token with
  | number f =>
      cases number : ofFloat f with
      | error value => simp [Token.value?, number] at denotes
      | ok found =>
          simp only [Token.value?, number, Option.some.injEq] at denotes
          simp only [peek, numberLiteral, number, bind, Except.bind, denotes]
  | string s =>
      cases denotes
      simp only [peek]
  | keyword word => cases word <;> cases denotes <;> simp only [peek]
  | _ => cases denotes

theorem ReadsPrimary.variable (name : String) : ReadsPrimary (.variable 0 name) [.identifier name] := by
  intro depth c rest deep ahead apart
  simp only [List.length_cons, List.length_nil] at deep
  obtain ⟨depth, rfl⟩ : ∃ k, depth = k + 1 := ⟨depth - 1, by omega⟩
  have peek := Cursor.peek_of_ahead ahead
  have behind := Cursor.ahead_advance_of_ahead ahead
  have uncalled : c.advance.atSymbol .openParen = false := by
    refine Cursor.atSymbol_eq_false ?_
    rwa [Cursor.peek_eq_headD, behind]
  refine ⟨.variable c.position name, c.advance, ?_, by rw [Expr.unplaced], behind⟩
  rw [parsePrimary]
  simp [peek, uncalled]

theorem ReadsPrimary.call {name : String} (callable : name ≠ "include")
    (arguments : ReadsItems .closeParen es ts) :
    ReadsPrimary (.call 0 name es) (.identifier name :: .symbol .openParen :: ts) := by
  intro depth c rest deep ahead apart
  simp only [List.length_cons] at deep
  simp only [List.cons_append] at ahead
  obtain ⟨depth, rfl⟩ : ∃ k, depth = k + 1 := ⟨depth - 1, by omega⟩
  have peek := Cursor.peek_of_ahead ahead
  have atParen := Cursor.ahead_advance_of_ahead ahead
  have called := Cursor.atSymbol_of_ahead atParen
  obtain ⟨es', left, read, rfl, behind⟩ :=
    arguments depth (by omega) (Cursor.ahead_advance_of_ahead atParen)
  refine ⟨.call c.position name es', left, ?_, by rw [Expr.unplaced], behind⟩
  rw [parsePrimary]
  simp [peek, called, callable, read, bind, Except.bind]

theorem ReadsPrimary.group (inner : ReadsExpr e ts) :
    ReadsPrimary e (.symbol .openParen :: (ts ++ [.symbol .closeParen])) := by
  intro depth c rest deep ahead apart
  simp only [List.length_append, List.length_cons, List.length_nil] at deep
  simp only [List.append_assoc, List.cons_append, List.nil_append] at ahead
  obtain ⟨depth, rfl⟩ : ∃ k, depth = k + 1 := ⟨depth - 1, by omega⟩
  have peek := Cursor.peek_of_ahead ahead
  obtain ⟨e', atClose, read, rfl, ahead⟩ :=
    inner depth (by omega) (Cursor.ahead_advance_of_ahead ahead) (.cons (by decide))
  have close := Cursor.expect_of_ahead ahead
  refine ⟨e', atClose.advance, ?_, rfl, Cursor.ahead_advance_of_ahead ahead⟩
  rw [parsePrimary]
  simp only [peek, read, close, bind, Except.bind]

theorem ReadsPrimary.array (items : ReadsItems .closeBracket es ts) :
    ReadsPrimary (.array 0 es) (.symbol .openBracket :: ts) := by
  intro depth c rest deep ahead apart
  simp only [List.length_cons] at deep
  rw [List.cons_append] at ahead
  obtain ⟨depth, rfl⟩ : ∃ k, depth = k + 1 := ⟨depth - 1, by omega⟩
  have peek := Cursor.peek_of_ahead ahead
  obtain ⟨es', left, read, rfl, behind⟩ :=
    items depth (by omega) (Cursor.ahead_advance_of_ahead ahead)
  refine ⟨.array c.position es', left, ?_, by rw [Expr.unplaced], behind⟩
  rw [parsePrimary]
  simp only [peek, read, bind, Except.bind]

theorem ReadsPrimary.object (entries : ReadsEntries es ts) :
    ReadsPrimary (.object 0 es) (.symbol .openBrace :: ts) := by
  intro depth c rest deep ahead apart
  simp only [List.length_cons] at deep
  rw [List.cons_append] at ahead
  obtain ⟨depth, rfl⟩ : ∃ k, depth = k + 1 := ⟨depth - 1, by omega⟩
  have peek := Cursor.peek_of_ahead ahead
  obtain ⟨es', left, read, rfl, behind⟩ :=
    entries depth c.position (by omega) (Cursor.ahead_advance_of_ahead ahead)
  refine ⟨.object c.position es', left, ?_, by rw [Expr.unplaced], behind⟩
  rw [parsePrimary]
  simp only [peek, read, bind, Except.bind]

theorem ReadsItems.none (close : Symbol) : ReadsItems close [] [.symbol close] := by
  intro depth c rest deep ahead
  simp only [List.length_cons, List.length_nil] at deep
  obtain ⟨depth, rfl⟩ : ∃ k, depth = k + 1 := ⟨depth - 1, by omega⟩
  refine ⟨[], c.advance, ?_, by rw [Expr.unplacedItems], Cursor.ahead_advance_of_ahead ahead⟩
  rw [parseItems, if_pos (Cursor.atSymbol_of_ahead ahead)]

/-- What a symbol needs to close items: no item begins with it or takes part in it, and it is no comma. -/
structure ClosesItems (close : Symbol) : Prop where
  begins : Token.begins (.symbol close) = false
  weak : Token.strength (.symbol close) = 0
  apart : close ≠ .comma

theorem closesItems_closeParen : ClosesItems .closeParen := ⟨rfl, rfl, by simp⟩

theorem closesItems_closeBracket : ClosesItems .closeBracket := ⟨rfl, rfl, by simp⟩

theorem not_atSymbol_of_begins {close : Symbol} (closes : Token.begins (.symbol close) = false)
    (phrase : Phrase level e ts) {c : Cursor} {rest : List Token} (ahead : c.ahead = ts ++ rest) :
    c.atSymbol close = false := by
  obtain ⟨token, us, rfl, begins⟩ := phrase.exists_begins
  refine Cursor.atSymbol_eq_false fun peek => ?_
  rw [Cursor.peek_of_ahead ahead] at peek
  rw [peek, closes] at begins
  cases begins

theorem ReadsItems.last {close : Symbol} (closes : ClosesItems close) (phrase : Phrase 0 e ts)
    (item : ReadsExpr e ts) : ReadsItems close [e] (ts ++ [.symbol close]) := by
  intro depth c rest deep ahead
  simp only [List.length_append, List.length_cons, List.length_nil] at deep
  simp only [List.append_assoc, List.cons_append, List.nil_append] at ahead
  obtain ⟨depth, rfl⟩ : ∃ k, depth = k + 1 := ⟨depth - 1, by omega⟩
  have more := not_atSymbol_of_begins closes.begins phrase ahead
  obtain ⟨e', atClose, read, rfl, ahead⟩ := item depth (by omega) ahead (.cons (by rw [closes.weak]))
  have only : atClose.atSymbol .comma = false := by
    refine Cursor.atSymbol_eq_false ?_
    rw [Cursor.peek_of_ahead ahead]
    exact fun same => closes.apart (Token.symbol.inj same)
  have close_ := Cursor.expect_of_ahead ahead
  refine ⟨[e'], atClose.advance, ?_, by simp only [Expr.unplacedItems],
    Cursor.ahead_advance_of_ahead ahead⟩
  rw [parseItems]
  simp [more, read, only, close_, bind, Except.bind]

theorem ReadsItems.cons {close : Symbol} (closes : ClosesItems close)
    (phrase : Phrase 0 e ts) (item : ReadsExpr e ts) (others : ReadsItems close es us) :
    ReadsItems close (e :: es) (ts ++ .symbol .comma :: us) := by
  intro depth c rest deep ahead
  simp only [List.length_append, List.length_cons] at deep
  simp only [List.append_assoc, List.cons_append] at ahead
  obtain ⟨depth, rfl⟩ : ∃ k, depth = k + 1 := ⟨depth - 1, by omega⟩
  have more := not_atSymbol_of_begins closes.begins phrase ahead
  obtain ⟨e', atComma, read, rfl, ahead⟩ := item depth (by omega) ahead (.cons (by decide))
  have comma := Cursor.atSymbol_of_ahead ahead
  obtain ⟨es', left, readOthers, rfl, behind⟩ :=
    others depth (by omega) (Cursor.ahead_advance_of_ahead ahead)
  refine ⟨e' :: es', left, ?_, by rw [Expr.unplacedItems], behind⟩
  rw [parseItems]
  simp [more, read, comma, readOthers, bind, Except.bind]

theorem objectKey_of_ahead {token : Token} {key : String} (names : token.key? = some key)
    (position : Nat) {c : Cursor} {rest : List Token} (ahead : c.ahead = token :: rest) :
    objectKey position c = .ok (key, c.advance) := by
  unfold objectKey
  rw [Cursor.peek_of_ahead ahead]
  cases token with
  | identifier name => cases names; rfl
  | string name => cases names; rfl
  | number f =>
      cases number : ofFloat f with
      | error value => simp [Token.key?, number] at names
      | ok found =>
          simp only [Token.key?, number, Option.some.injEq] at names
          simp only [numberLiteral, number, bind, Except.bind, names]
  | _ => cases names

theorem not_atSymbol_of_key? {token : Token} {key : String} (names : token.key? = some key) (s : Symbol)
    {c : Cursor} {rest : List Token} (ahead : c.ahead = token :: rest) : c.atSymbol s = false := by
  refine Cursor.atSymbol_eq_false fun peek => ?_
  rw [Cursor.peek_of_ahead ahead] at peek
  rw [peek] at names
  cases names

theorem ReadsEntries.none : ReadsEntries [] [.symbol .closeBrace] := by
  intro depth position c rest deep ahead
  simp only [List.length_cons, List.length_nil] at deep
  obtain ⟨depth, rfl⟩ : ∃ k, depth = k + 1 := ⟨depth - 1, by omega⟩
  refine ⟨[], c.advance, ?_, by rw [Expr.unplacedEntries], Cursor.ahead_advance_of_ahead ahead⟩
  rw [parseEntries, if_pos (Cursor.atSymbol_of_ahead ahead)]

theorem ReadsEntries.last {token : Token} {key : String} (names : token.key? = some key)
    (value : ReadsExpr e ts) :
    ReadsEntries [(key, e)] (token :: .symbol .colon :: (ts ++ [.symbol .closeBrace])) := by
  intro depth position c rest deep ahead
  simp only [List.length_append, List.length_cons, List.length_nil] at deep
  simp only [List.append_assoc, List.cons_append, List.nil_append] at ahead
  obtain ⟨depth, rfl⟩ : ∃ k, depth = k + 1 := ⟨depth - 1, by omega⟩
  have more := not_atSymbol_of_key? names .closeBrace ahead
  have key_ := objectKey_of_ahead names position ahead
  have atColon := Cursor.ahead_advance_of_ahead ahead
  have colon := Cursor.expect_of_ahead atColon
  obtain ⟨e', atClose, read, rfl, ahead⟩ :=
    value depth (by omega) (Cursor.ahead_advance_of_ahead atColon) (.cons (by decide))
  have only : atClose.atSymbol .comma = false :=
    Cursor.atSymbol_eq_false (by simp [Cursor.peek_of_ahead ahead])
  have close := Cursor.expect_of_ahead ahead
  refine ⟨[(key, e')], atClose.advance, ?_, by simp only [Expr.unplacedEntries],
    Cursor.ahead_advance_of_ahead ahead⟩
  rw [parseEntries]
  simp [more, key_, colon, read, only, close, bind, Except.bind]

theorem ReadsEntries.cons {token : Token} {key : String} (names : token.key? = some key)
    (value : ReadsExpr e ts) (others : ReadsEntries es us) :
    ReadsEntries ((key, e) :: es) (token :: .symbol .colon :: (ts ++ .symbol .comma :: us)) := by
  intro depth position c rest deep ahead
  simp only [List.length_append, List.length_cons] at deep
  simp only [List.append_assoc, List.cons_append] at ahead
  obtain ⟨depth, rfl⟩ : ∃ k, depth = k + 1 := ⟨depth - 1, by omega⟩
  have more := not_atSymbol_of_key? names .closeBrace ahead
  have key_ := objectKey_of_ahead names position ahead
  have atColon := Cursor.ahead_advance_of_ahead ahead
  have colon := Cursor.expect_of_ahead atColon
  obtain ⟨e', atComma, read, rfl, ahead⟩ :=
    value depth (by omega) (Cursor.ahead_advance_of_ahead atColon) (.cons (by decide))
  have comma := Cursor.atSymbol_of_ahead ahead
  obtain ⟨es', left, readOthers, rfl, behind⟩ :=
    others depth position (by omega) (Cursor.ahead_advance_of_ahead ahead)
  refine ⟨(key, e') :: es', left, ?_, by rw [Expr.unplacedEntries], behind⟩
  rw [parseEntries]
  simp [more, key_, colon, read, comma, readOthers, bind, Except.bind]

/-- What the parser does with a phrase of each level. -/
def Parsed (level : Nat) (e : Expr) (ts : List Token) : Prop :=
  match level with
  | 0 => ReadsExpr e ts
  | 1 | 2 | 3 | 4 | 5 | 6 => LeadsOperators (level - 1) e ts
  | 7 => ReadsUnary e ts
  | _ => LeadsAccesses e ts

theorem parsed_operand (bound : level ≤ 5) :
    Parsed (level + 1) e ts = LeadsOperators level e ts := by
  interval_cases level <;> rfl

theorem Parsed.readsBinary (parsed : Parsed (level + 1) e ts) (nonempty : 0 < ts.length)
    (bound : level ≤ 6) : ReadsBinary level e ts := by
  rcases Nat.eq_or_lt_of_le bound with rfl | looser
  · exact ReadsUnary.readsBinary parsed nonempty
  · rw [parsed_operand (by omega)] at parsed
    exact parsed.readsBinary nonempty (by omega)

theorem Parsed.loosen (parsed : Parsed (level + 1) e ts) (nonempty : 0 < ts.length) :
    Parsed level e ts := by
  match level with
  | 0 => exact (parsed.readsBinary nonempty (by decide)).readsExpr nonempty
  | 1 | 2 | 3 | 4 | 5 | 6 =>
      exact (parsed.readsBinary nonempty (by decide)).leadsOperators nonempty (by decide)
  | 7 => exact LeadsAccesses.readsUnary parsed nonempty
  | _ + 8 => exact parsed

mutual

/-- The parser reads every phrase as the expression that the grammar gives it. -/
theorem Phrase.parsed : ∀ {level e ts}, Phrase level e ts → Parsed level e ts
  | _, _, _, .loosen tighter => tighter.parsed.loosen tighter.length_pos
  | _, _, _, .conditional condition yes no =>
      .conditional (condition.parsed.readsBinary condition.length_pos (by decide)) yes.parsed no.parsed
  | _, _, _, .binary operator left right => by
      have bound := level_le_tightest operator
      have leads := left.parsed
      rw [parsed_operand bound] at leads ⊢
      exact leads.binary operator (right.parsed.readsBinary right.length_pos (by omega))
  | _, _, _, .unary operator operand => ReadsUnary.unary operator operand.parsed
  | _, _, _, .member target name => LeadsAccesses.member target.parsed name
  | _, _, _, .index target key => LeadsAccesses.index target.parsed key.parsed
  | _, _, _, .literal denotes => by
      refine (ReadsPrimary.literal denotes).leadsAccesses ?_ ?_ <;> rintro rfl <;> cases denotes
  | _, _, _, .variable name => (ReadsPrimary.variable name).leadsAccesses (by simp) (by simp)
  | _, _, _, .call callable arguments =>
      (ReadsPrimary.call callable (arguments.parsed closesItems_closeParen)).leadsAccesses (by simp)
        (by simp)
  | _, _, _, .group inner => (ReadsPrimary.group inner.parsed).leadsAccesses (by simp) (by simp)
  | _, _, _, .array items =>
      (ReadsPrimary.array (items.parsed closesItems_closeBracket)).leadsAccesses (by simp) (by simp)
  | _, _, _, .object entries => (ReadsPrimary.object entries.parsed).leadsAccesses (by simp) (by simp)

theorem Items.parsed : ∀ {close es ts}, Items close es ts → ClosesItems close → ReadsItems close es ts
  | close, _, _, .none, _ => .none close
  | _, _, _, .last item, closes => .last closes item item.parsed
  | _, _, _, .cons item others, closes => .cons closes item item.parsed (others.parsed closes)

theorem Entries.parsed : ∀ {es ts}, Entries es ts → ReadsEntries es ts
  | _, _, .none => .none
  | _, _, .last names value => .last names value.parsed
  | _, _, .cons names value others => .cons names value.parsed others.parsed

end

theorem Phrase.readsExpr (phrase : Phrase level e ts) : ReadsExpr e ts :=
  (phrase.weaken (Nat.zero_le level)).parsed

end StaticSite.Template
