import StaticSite.Proofs.Template.Positions

/-!
Where nodes come from. Every position that a parsed template carries is that of one of its tokens, and
the parser refuses a template at a token or at its beginning.
-/

namespace StaticSite.Template

open Text

mutual

/-- The positions that an expression carries. -/
def Expr.positions : Expr → List Nat
  | .literal position _ => [position]
  | .variable position _ => [position]
  | .array position items => position :: positionsOfItems items
  | .object position entries => position :: positionsOfEntries entries
  | .member position target _ => position :: target.positions
  | .index position target selector => position :: (target.positions ++ selector.positions)
  | .call position _ arguments => position :: positionsOfItems arguments
  | .unary position _ operand => position :: operand.positions
  | .binary position _ left right => position :: (left.positions ++ right.positions)
  | .conditional position condition yes no =>
    position :: (condition.positions ++ (yes.positions ++ no.positions))

def Expr.positionsOfItems : List Expr → List Nat
  | [] => []
  | item :: rest => item.positions ++ positionsOfItems rest

def Expr.positionsOfEntries : List (String × Expr) → List Nat
  | [] => []
  | (_, item) :: rest => item.positions ++ positionsOfEntries rest

end

mutual

def Node.positions : Node → List Nat
  | .text _ => []
  | .echo value => value.positions
  | .expression value => value.positions
  | .declare _ value => value.positions
  | .assign position _ value => position :: value.positions
  | .choose branches none => positionsOfBranches branches
  | .choose branches (some body) => positionsOfBranches branches ++ positionsOfAll body
  | .each _ _ entries body => entries.positions ++ positionsOfAll body
  | .embed position path none => position :: path.positions
  | .embed position path (some environment) => position :: (path.positions ++ environment.positions)

def Node.positionsOfAll : List Node → List Nat
  | [] => []
  | node :: rest => node.positions ++ positionsOfAll rest

def Node.positionsOfBranches : List (Expr × List Node) → List Nat
  | [] => []
  | (condition, body) :: rest =>
    condition.positions ++ (positionsOfAll body ++ positionsOfBranches rest)

end

theorem Expr.position_mem (e : Expr) : e.position ∈ e.positions := by
  cases e <;> simp [position, positions]

variable {α β : Type} {source : List Char} {tokens : List Placed}

/-- Positions of tokens. -/
def AtTokens (tokens : List Placed) (positions : List Nat) : Prop :=
  ∀ position ∈ positions, ∃ placed ∈ tokens, placed.position = position

theorem atTokens_nil : AtTokens tokens [] := fun _ member => absurd member List.not_mem_nil

theorem atTokens_cons {position : Nat} {rest : List Nat} :
    AtTokens tokens (position :: rest) ↔
      (∃ placed ∈ tokens, placed.position = position) ∧ AtTokens tokens rest :=
  List.forall_mem_cons

theorem atTokens_append {first rest : List Nat} :
    AtTokens tokens (first ++ rest) ↔ AtTokens tokens first ∧ AtTokens tokens rest :=
  List.forall_mem_append

theorem AtTokens.cons {first rest : List Nat} {position : Nat} (atTokens : AtTokens tokens first)
    (member : position ∈ first) (others : AtTokens tokens rest) : AtTokens tokens (position :: rest) :=
  atTokens_cons.mpr ⟨atTokens position member, others⟩

theorem AtTokens.append {first rest : List Nat} (atTokens : AtTokens tokens first)
    (others : AtTokens tokens rest) : AtTokens tokens (first ++ rest) :=
  atTokens_append.mpr ⟨atTokens, others⟩

/-! ## Cursors -/

/-- A cursor among the tokens of a source. -/
structure Cursor.Among (source : List Char) (tokens : List Placed) (c : Cursor) : Prop where
  left : c.tokens ⊆ tokens
  bounded : ∀ placed ∈ tokens, Boundary source placed.position
  previous : Boundary source c.previous

/-- A result that is as it should be, or an error between two characters of the source. -/
def Settled (source : List Char) (good : α → Prop) : Except SyntaxError α → Prop
  | .ok value => good value
  | .error error => Boundary source error.position

theorem Settled.bind {good : α → Prop} {fine : β → Prop} {first : Except SyntaxError α}
    {next : α → Except SyntaxError β} (settled : Settled source good first)
    (others : ∀ value, good value → Settled source fine (next value)) :
    Settled source fine (first >>= next) := by
  cases first with
  | error error => exact settled
  | ok value => exact others value settled

/-- A result of the parser whose positions are those of tokens, with the cursor behind it. -/
def Sited (source : List Char) (tokens : List Placed) (positions : α → List Nat) :
    Except SyntaxError (α × Cursor) → Prop :=
  Settled source fun result => AtTokens tokens (positions result.1) ∧ result.2.Among source tokens

namespace Cursor.Among

variable {c : Cursor} (among : c.Among source tokens)
include among

theorem boundary {positions : List Nat} (atTokens : AtTokens tokens positions) {position : Nat}
    (member : position ∈ positions) : Boundary source position := by
  obtain ⟨placed, found, rfl⟩ := atTokens position member
  exact among.bounded placed found

theorem position : Boundary source c.position := by
  unfold Cursor.position
  split
  · rename_i placed rest first
    exact among.bounded placed (among.left (by simp [first]))
  · exact among.previous

theorem advance : c.advance.Among source tokens :=
  ⟨fun _ member => among.left (List.mem_of_mem_tail member), among.bounded, among.position⟩

/-- What is not the end is a token. -/
theorem atTokens (more : c.peek ≠ .finish) : AtTokens tokens [c.position] := by
  refine atTokens_cons.mpr ⟨?_, atTokens_nil⟩
  unfold peek at more
  unfold Cursor.position
  split at more
  · rename_i placed rest first
    exact ⟨placed, among.left (by simp [first]), rfl⟩
  · exact absurd rfl more

theorem skip (s : Symbol) : (c.skip s).Among source tokens := by
  unfold Cursor.skip
  split
  · exact among.advance
  · exact among

theorem skipSpanEnds : c.skipSpanEnds.Among source tokens :=
  ⟨fun _ member => among.left ((List.dropWhile_suffix _).subset member), among.bounded, among.previous⟩

theorem expect (s : Symbol) : Settled source (·.Among source tokens) (c.expect s) := by
  unfold Cursor.expect
  split
  · exact among.advance
  · exact among.position

theorem identifier : Settled source (·.2.Among source tokens) c.identifier := by
  unfold Cursor.identifier
  split
  · exact among.advance
  · exact among.position

theorem endStatement : Settled source (·.Among source tokens) c.endStatement := by
  unfold Cursor.endStatement
  split
  · exact among.advance
  · exact among
  · exact among
  · exact among
  · split
    · exact among
    · exact among.position

end Cursor.Among

theorem settled_numberLiteral {position : Nat} (boundary : Boundary source position) (f : Float) :
    Settled source (fun _ => True) (numberLiteral position f) := by
  unfold numberLiteral
  cases ofFloat f with
  | ok value => trivial
  | error value => exact boundary

theorem settled_objectKey {position : Nat} {c : Cursor} (boundary : Boundary source position)
    (among : c.Among source tokens) : Settled source (·.2.Among source tokens) (objectKey position c) := by
  unfold objectKey
  split
  · exact among.advance
  · exact among.advance
  · exact (settled_numberLiteral boundary _).bind fun _ _ => among.advance
  · exact among.position

/-! ## Expressions -/

/-- What each function of the expression parser gives when its calls nest no deeper than a bound. -/
structure Places (source : List Char) (tokens : List Placed) (depth : Nat) : Prop where
  expr : ∀ {c}, c.Among source tokens → Sited source tokens Expr.positions (parseExpr depth c)
  binary : ∀ {level c}, c.Among source tokens →
    Sited source tokens Expr.positions (parseBinary depth level c)
  operators : ∀ {level left c}, AtTokens tokens (Expr.positions left) → c.Among source tokens →
    Sited source tokens Expr.positions (parseOperators depth level left c)
  unary : ∀ {c}, c.Among source tokens → Sited source tokens Expr.positions (parseUnary depth c)
  accesses : ∀ {target c}, AtTokens tokens (Expr.positions target) → c.Among source tokens →
    Sited source tokens Expr.positions (parseAccesses depth target c)
  primary : ∀ {c}, c.Among source tokens → Sited source tokens Expr.positions (parsePrimary depth c)
  items : ∀ {close c}, c.Among source tokens →
    Sited source tokens Expr.positionsOfItems (parseItems depth close c)
  entries : ∀ {position c}, Boundary source position → c.Among source tokens →
    Sited source tokens Expr.positionsOfEntries (parseEntries depth position c)

section Step

variable {depth : Nat} {c : Cursor}

theorem Places.expr_step (below : Places source tokens depth) (among : c.Among source tokens) :
    Sited source tokens Expr.positions (parseExpr (depth + 1) c) := by
  rw [parseExpr]
  refine (below.binary among).bind ?_
  rintro ⟨condition, c⟩ ⟨first, among⟩
  dsimp only
  split
  · refine (below.expr among.advance).bind ?_
    rintro ⟨yes, c⟩ ⟨second, among⟩
    refine (among.expect .colon).bind fun c among => ?_
    refine (below.expr among).bind ?_
    rintro ⟨no, c⟩ ⟨third, among⟩
    refine ⟨?_, among⟩
    exact first.cons condition.position_mem (first.append (second.append third))
  · exact ⟨first, among⟩

theorem Places.binary_step (below : Places source tokens depth) {level : Nat}
    (among : c.Among source tokens) :
    Sited source tokens Expr.positions (parseBinary (depth + 1) level c) := by
  rw [parseBinary]
  split
  · exact below.unary among
  · refine (below.binary among).bind ?_
    rintro ⟨left, c⟩ ⟨first, among⟩
    exact below.operators first among

theorem Places.operators_step (below : Places source tokens depth) {level : Nat} {left : Expr}
    (first : AtTokens tokens left.positions) (among : c.Among source tokens) :
    Sited source tokens Expr.positions (parseOperators (depth + 1) level left c) := by
  rw [parseOperators]
  split
  · exact ⟨first, among⟩
  · refine (below.binary among.advance).bind ?_
    rintro ⟨right, c⟩ ⟨second, among⟩
    exact below.operators (first.cons left.position_mem (first.append second)) among

theorem Places.unary_step (below : Places source tokens depth) (among : c.Among source tokens) :
    Sited source tokens Expr.positions (parseUnary (depth + 1) c) := by
  rw [parseUnary]
  split
  · rename_i bang
    have here := among.atTokens (by simp [bang])
    refine (below.unary among.advance).bind ?_
    rintro ⟨operand, rest⟩ ⟨inner, behind⟩
    exact ⟨here.cons (List.mem_singleton_self _) inner, behind⟩
  · rename_i minus
    have here := among.atTokens (by simp [minus])
    refine (below.unary among.advance).bind ?_
    rintro ⟨operand, rest⟩ ⟨inner, behind⟩
    exact ⟨here.cons (List.mem_singleton_self _) inner, behind⟩
  · refine (below.primary among).bind ?_
    rintro ⟨target, c⟩ ⟨first, among⟩
    exact below.accesses first among

theorem Places.accesses_step (below : Places source tokens depth) {target : Expr}
    (first : AtTokens tokens target.positions) (among : c.Among source tokens) :
    Sited source tokens Expr.positions (parseAccesses (depth + 1) target c) := by
  rw [parseAccesses]
  split
  · refine among.advance.identifier.bind ?_
    rintro ⟨name, c⟩ among
    exact below.accesses (first.cons target.position_mem first) among
  · refine (below.expr among.advance).bind ?_
    rintro ⟨index, c⟩ ⟨second, among⟩
    refine (among.expect .closeBracket).bind fun c among => ?_
    exact below.accesses (first.cons target.position_mem (first.append second)) among
  · exact among.position
  · exact ⟨first, among⟩

theorem Places.primary_step (below : Places source tokens depth) (among : c.Among source tokens) :
    Sited source tokens Expr.positions (parsePrimary (depth + 1) c) := by
  rw [parsePrimary]
  dsimp only
  split
  · rename_i f number
    exact (settled_numberLiteral among.position f).bind fun _ _ =>
      ⟨among.atTokens (by simp [number]), among.advance⟩
  · rename_i s string
    exact ⟨among.atTokens (by simp [string]), among.advance⟩
  · rename_i word
    exact ⟨among.atTokens (by simp [word]), among.advance⟩
  · rename_i word
    exact ⟨among.atTokens (by simp [word]), among.advance⟩
  · rename_i word
    exact ⟨among.atTokens (by simp [word]), among.advance⟩
  · rename_i name identifier
    have here := among.atTokens (by simp [identifier])
    split
    · split
      · exact among.position
      · refine (below.items among.advance.advance).bind ?_
        rintro ⟨arguments, c⟩ ⟨others, behind⟩
        exact ⟨here.cons (List.mem_singleton_self _) others, behind⟩
    · exact ⟨here, among.advance⟩
  · refine (below.expr among.advance).bind ?_
    rintro ⟨inner, c⟩ ⟨first, among⟩
    exact (among.expect .closeParen).bind fun c among => ⟨first, among⟩
  · rename_i bracket
    have here := among.atTokens (by simp [bracket])
    refine (below.items among.advance).bind ?_
    rintro ⟨items, c⟩ ⟨others, behind⟩
    exact ⟨here.cons (List.mem_singleton_self _) others, behind⟩
  · rename_i brace
    have here := among.atTokens (by simp [brace])
    refine (below.entries among.position among.advance).bind ?_
    rintro ⟨entries, c⟩ ⟨others, behind⟩
    exact ⟨here.cons (List.mem_singleton_self _) others, behind⟩
  · exact among.position

theorem Places.items_step (below : Places source tokens depth) {close : Symbol}
    (among : c.Among source tokens) :
    Sited source tokens Expr.positionsOfItems (parseItems (depth + 1) close c) := by
  rw [parseItems]
  split
  · exact ⟨atTokens_nil, among.advance⟩
  · refine (below.expr among).bind ?_
    rintro ⟨item, c⟩ ⟨first, among⟩
    dsimp only
    split
    · refine (below.items among.advance).bind ?_
      rintro ⟨items, c⟩ ⟨others, among⟩
      exact ⟨first.append others, among⟩
    · exact (among.expect close).bind fun c among => ⟨first.append atTokens_nil, among⟩

theorem Places.entries_step (below : Places source tokens depth) {position : Nat}
    (boundary : Boundary source position) (among : c.Among source tokens) :
    Sited source tokens Expr.positionsOfEntries (parseEntries (depth + 1) position c) := by
  rw [parseEntries]
  split
  · exact ⟨atTokens_nil, among.advance⟩
  · refine (settled_objectKey boundary among).bind ?_
    rintro ⟨key, c⟩ among
    refine (among.expect .colon).bind fun c among => ?_
    refine (below.expr among).bind ?_
    rintro ⟨value, c⟩ ⟨first, among⟩
    dsimp only
    split
    · refine (below.entries boundary among.advance).bind ?_
      rintro ⟨entries, c⟩ ⟨others, among⟩
      exact ⟨first.append others, among⟩
    · exact (among.expect .closeBrace).bind fun c among => ⟨first.append atTokens_nil, among⟩

end Step

theorem places (source : List Char) (tokens : List Placed) (depth : Nat) : Places source tokens depth := by
  -- on the depth that the parser may still go down to: every branch calls the others with one less
  induction depth with
  | zero =>
      constructor <;> intros <;> rename_i among
      · rw [parseExpr]; exact among.position
      · rw [parseBinary]; exact among.position
      · rw [parseOperators]; exact among.position
      · rw [parseUnary]; exact among.position
      · rw [parseAccesses]; exact among.position
      · rw [parsePrimary]; exact among.position
      · rw [parseItems]; exact among.position
      · rw [parseEntries]; exact among.position
  | succ depth below =>
      exact ⟨below.expr_step, below.binary_step, below.operators_step, below.unary_step,
        below.accesses_step, below.primary_step, below.items_step, below.entries_step⟩

/-! ## Nodes -/

section Statements

variable {c : Cursor} {depth : Nat} (among : c.Among source tokens)
include among

theorem sited_embed (more : c.peek ≠ .finish) :
    Sited source tokens Node.positions (parseEmbed depth c) := by
  have here := among.atTokens more
  refine ((places source tokens depth).items among.advance.advance).bind ?_
  rintro ⟨arguments, rest⟩ ⟨inner, behind⟩
  dsimp only
  split
  · refine behind.endStatement.bind fun rest behind => ⟨?_, behind⟩
    exact here.cons (List.mem_singleton_self _) (atTokens_append.mp inner).1
  · refine behind.endStatement.bind fun rest behind => ⟨?_, behind⟩
    obtain ⟨path, others⟩ := atTokens_append.mp inner
    exact here.cons (List.mem_singleton_self _) (path.append (atTokens_append.mp others).1)
  · exact among.position

theorem sited_simple : Sited source tokens Node.positions (parseSimple depth c) := by
  refine ((places source tokens depth).expr among).bind ?_
  rintro ⟨target, c⟩ ⟨first, among⟩
  dsimp only
  split
  · split
    · refine ((places source tokens depth).expr among.advance).bind ?_
      rintro ⟨value, c⟩ ⟨second, among⟩
      exact among.endStatement.bind fun c among =>
        ⟨first.cons (List.mem_singleton_self _) second, among⟩
    · exact among.position
  · exact among.endStatement.bind fun c among => ⟨first, among⟩

theorem sited_echo : Sited source tokens Node.positions (parseEcho depth c) := by
  refine ((places source tokens depth).expr among.advance).bind ?_
  rintro ⟨value, c⟩ ⟨first, among⟩
  dsimp only
  split
  · exact ⟨first, among.skip .semicolon⟩
  · exact (among.skip .semicolon).position

theorem sited_declare : Sited source tokens Node.positions (parseDeclare depth c) := by
  refine among.advance.identifier.bind ?_
  rintro ⟨name, c⟩ among
  refine (among.expect .assign).bind fun c among => ?_
  refine ((places source tokens depth).expr among).bind ?_
  rintro ⟨value, c⟩ ⟨first, among⟩
  exact among.endStatement.bind fun c among => ⟨first, among⟩

theorem sited_loopEntries {parenthesized : Bool} {first : String} {second : Option String} :
    Sited source tokens (fun head : String × Option String × Expr => head.2.2.positions) (do
      let c ←
        if c.atKeyword .inWord then pure c.advance
        else .error (c.unexpected (backquoted Keyword.inWord.text))
      let (entries, c) ← parseExpr depth c
      let c ← if parenthesized then c.expect .closeParen else pure c
      .ok ((first, second, entries), c)) := by
  dsimp only
  split
  · refine ((places source tokens depth).expr among.advance).bind ?_
    rintro ⟨entries, c⟩ ⟨inner, among⟩
    dsimp only
    split
    · exact (among.expect .closeParen).bind fun c among => ⟨inner, among⟩
    · exact ⟨inner, among⟩
  · exact among.position

theorem sited_eachHead :
    Sited source tokens (fun head => head.2.2.positions) (parseEachHead depth c) := by
  have start : Cursor.Among source tokens
      (if (c.advance.skip .openParen).atKeyword .letWord then (c.advance.skip .openParen).advance
        else c.advance.skip .openParen) := by
    split
    · exact (among.advance.skip _).advance
    · exact among.advance.skip _
  refine start.identifier.bind ?_
  rintro ⟨first, c⟩ among
  dsimp only
  split
  · refine among.advance.identifier.bind ?_
    rintro ⟨second, c⟩ among
    exact sited_loopEntries among
  · exact sited_loopEntries among

end Statements

/-- What each function of the statement parser gives when its calls nest no deeper than a bound. -/
structure PlacesNodes (source : List Char) (tokens : List Placed) (depth : Nat) : Prop where
  block : ∀ {opening c}, (∀ position ∈ opening, Boundary source position) → c.Among source tokens →
    Sited source tokens Node.positionsOfAll (parseBlock depth opening c)
  statement : ∀ {c}, c.Among source tokens →
    Sited source tokens Node.positions (parseStatement depth c)
  body : ∀ {c}, c.Among source tokens → Sited source tokens Node.positionsOfAll (parseBody depth c)
  branch : ∀ {c}, c.Among source tokens →
    Sited source tokens (fun branch => branch.1.positions ++ Node.positionsOfAll branch.2)
      (parseBranch depth c)
  alternatives : ∀ {c}, c.Among source tokens →
    Sited source tokens
      (fun branches => Node.positionsOfBranches branches.1 ++ Node.positionsOfAll (branches.2.getD []))
      (parseAlternatives depth c)

section Step

variable {depth : Nat} {c : Cursor}

theorem PlacesNodes.body_step (below : PlacesNodes source tokens depth) (among : c.Among source tokens) :
    Sited source tokens Node.positionsOfAll (parseBody (depth + 1) c) := by
  rw [parseBody]
  refine (among.expect .openBrace).bind fun inner within => below.block ?_ within
  rintro position ⟨⟩
  exact among.position

theorem PlacesNodes.branch_step (below : PlacesNodes source tokens depth) (among : c.Among source tokens) :
    Sited source tokens (fun branch => branch.1.positions ++ Node.positionsOfAll branch.2)
      (parseBranch (depth + 1) c) := by
  rw [parseBranch]
  refine ((places source tokens depth).expr among).bind ?_
  rintro ⟨condition, c⟩ ⟨first, among⟩
  refine (below.body among).bind ?_
  rintro ⟨body, c⟩ ⟨second, among⟩
  exact ⟨first.append second, among⟩

theorem PlacesNodes.alternatives_step (below : PlacesNodes source tokens depth)
    (among : c.Among source tokens) :
    Sited source tokens
      (fun branches => Node.positionsOfBranches branches.1 ++ Node.positionsOfAll (branches.2.getD []))
      (parseAlternatives (depth + 1) c) := by
  rw [parseAlternatives]
  dsimp only
  split
  · exact ⟨atTokens_nil, among⟩
  have ahead := among.skipSpanEnds.advance
  split
  · refine (below.branch ahead.advance).bind ?_
    rintro ⟨branch, c⟩ ⟨first, among⟩
    refine (below.alternatives among).bind ?_
    rintro ⟨⟨branches, otherwise⟩, c⟩ ⟨others, among⟩
    refine ⟨?_, among⟩
    obtain ⟨condition, body⟩ := atTokens_append.mp first
    obtain ⟨behind, last⟩ := atTokens_append.mp others
    exact (condition.append (body.append behind)).append last
  · refine (below.body ahead).bind ?_
    rintro ⟨body, c⟩ ⟨inner, among⟩
    exact ⟨atTokens_nil.append inner, among⟩

theorem PlacesNodes.statement_step (below : PlacesNodes source tokens depth)
    (among : c.Among source tokens) :
    Sited source tokens Node.positions (parseStatement (depth + 1) c) := by
  rw [parseStatement]
  split
  · exact ⟨atTokens_nil, among.advance⟩
  · exact sited_echo among
  · exact sited_declare among
  · refine (below.branch among.advance).bind ?_
    rintro ⟨branch, c⟩ ⟨first, among⟩
    refine (below.alternatives among).bind ?_
    rintro ⟨⟨branches, otherwise⟩, c⟩ ⟨others, among⟩
    refine ⟨?_, among⟩
    obtain ⟨condition, body⟩ := atTokens_append.mp first
    obtain ⟨behind, last⟩ := atTokens_append.mp others
    have all := condition.append (body.append behind)
    cases otherwise with
    | none => exact all
    | some body => exact all.append last
  · refine (sited_eachHead among).bind ?_
    rintro ⟨⟨first, second, entries⟩, c⟩ ⟨head, among⟩
    refine (below.body among).bind ?_
    rintro ⟨body, c⟩ ⟨inner, among⟩
    exact ⟨head.append inner, among⟩
  · rename_i name identifier
    split
    · exact sited_embed among (by simp [identifier])
    · exact sited_simple among
  · exact sited_simple among

theorem PlacesNodes.block_step (below : PlacesNodes source tokens depth) {opening : Option Nat}
    (boundary : ∀ position ∈ opening, Boundary source position) (among : c.Among source tokens) :
    Sited source tokens Node.positionsOfAll (parseBlock (depth + 1) opening c) := by
  rw [parseBlock.eq_def]
  dsimp only
  split
  · exact below.block boundary among.advance
  · exact below.block boundary among.advance
  · split
    · exact boundary _ rfl
    · exact ⟨atTokens_nil, among⟩
  · split
    · exact ⟨atTokens_nil, among.advance⟩
    · exact among.position
  · refine (below.statement among).bind ?_
    rintro ⟨node, c⟩ ⟨first, among⟩
    refine (below.block boundary among).bind ?_
    rintro ⟨nodes, c⟩ ⟨others, among⟩
    exact ⟨first.append others, among⟩

end Step

theorem placesNodes (source : List Char) (tokens : List Placed) (depth : Nat) :
    PlacesNodes source tokens depth := by
  -- on the depth, as for expressions; those stand below all of it and need no hypothesis
  induction depth with
  | zero =>
      constructor <;> intros <;> rename_i among
      · rw [parseBlock]; exact among.position
      · rw [parseStatement]; exact among.position
      · rw [parseBody]; exact among.position
      · rw [parseBranch]; exact among.position
      · rw [parseAlternatives]; exact among.position
  | succ depth below =>
      exact ⟨below.block_step, below.statement_step, below.body_step, below.branch_step,
        below.alternatives_step⟩

theorem parse_settled {source : List Char} {tokens : List Placed} (scanned : scan source = .ok tokens) :
    Settled source (fun nodes => AtTokens tokens (Node.positionsOfAll nodes)) (parse source) := by
  have start : (Cursor.start source tokens).Among source tokens :=
    ⟨List.Subset.refl _, scan_boundary scanned, boundary_start source⟩
  have block : Sited source tokens Node.positionsOfAll
      (parseBlock (enoughDepth tokens) none (Cursor.start source tokens)) :=
    (placesNodes source tokens (enoughDepth tokens)).block (by simp) start
  unfold parse
  rw [scanned]
  refine block.bind ?_
  rintro ⟨nodes, _⟩ ⟨placed, _⟩
  exact placed

/-- All positions of a parsed template are positions of its tokens. -/
theorem parse_positions {source : List Char} {nodes : List Node} (parsed : parse source = .ok nodes) :
    ∃ tokens, scan source = .ok tokens ∧ AtTokens tokens (Node.positionsOfAll nodes) := by
  obtain ⟨tokens, scanned, -⟩ := bind_eq_ok.mp parsed
  have settled := parse_settled scanned
  rw [parsed] at settled
  exact ⟨tokens, scanned, settled⟩

theorem parse_error {source : List Char} {error : SyntaxError} (failed : parse source = .error error) :
    Boundary source error.position := by
  cases scanned : scan source with
  | error other =>
      unfold parse at failed
      rw [scanned] at failed
      cases failed
      exact scan_error scanned
  | ok tokens =>
      have settled := parse_settled scanned
      rwa [failed] at settled

end StaticSite.Template
