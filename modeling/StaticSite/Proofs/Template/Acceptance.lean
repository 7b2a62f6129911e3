import StaticSite.Proofs.Template.Advance
import StaticSite.Proofs.Template.Statement

/-!
The tokens of every sequence of nodes that the parser accepts. A node is accepted with parentheses around
its expressions and around the head of a loop, and semicolons and the ends of spans may stand between
nodes; none of this is in the node.
-/

namespace StaticSite.Template

/-- Whether a parenthesis behind a token opens the arguments of a call. -/
def Token.isName : Token → Bool
  | .identifier _ => true
  | _ => false

/-- What follows a token does not begin with a parenthesis that would make the token the name of a call. -/
def Apart (previous : Token) (rest : List Token) : Prop :=
  previous.isName = true → rest.head? ≠ some (.symbol .openParen)

/-- A token that stands in a source if a condition holds. -/
def optional (present : Bool) (token : α) : List α := if present then [token] else []

/-- The tokens of a loop from behind its keyword up to what it runs over. -/
def loopNames (parenthesized declared : Bool) (first : String) (second : Option String) : List Token :=
  optional parenthesized (.symbol .openParen) ++ optional declared (.keyword .letWord) ++
    .identifier first :: (secondName second ++ [.keyword .inWord])

/-- The tokens of a loop from behind its keyword up to its brace. -/
def loopHead (parenthesized declared : Bool) (first : String) (second : Option String)
    (entries : List Token) : List Token :=
  loopNames parenthesized declared first second ++ entries ++
    optional parenthesized (.symbol .closeParen)

mutual

/-- The tokens of a node. -/
inductive Sentence : Node → List Token → Prop
  | text (content : String) : Sentence (.text content) [.text content]
  | echo (value : Phrase 0 e.unplaced ts) : Sentence (.echo e) (.echo :: ts)
  | expression (value : Phrase 0 e.unplaced ts) : Sentence (.expression e) ts
  | declare (name : String) (value : Phrase 0 e.unplaced ts) :
      Sentence (.declare name e) (.keyword .letWord :: .identifier name :: .symbol .assign :: ts)
  | assign (position : Nat) (name : String) (target : Phrase 0 (.variable 0 name) vs)
      (value : Phrase 0 e.unplaced ts) :
      Sentence (.assign position name e) (vs ++ .symbol .assign :: ts)
  | choose (first : Branch condition body bs) (others : Branches branches otherwise us) :
      Sentence (.choose ((condition, body) :: branches) otherwise) (.keyword .ifWord :: (bs ++ us))
  | each (parenthesized declared : Bool) (first : String) (second : Option String)
      (entries : Phrase 0 e.unplaced ts) (body : Braced ns bs) :
      Sentence (.each first second e ns)
        (.keyword .forWord :: (loopHead parenthesized declared first second ts ++ bs))
  | embed (position : Nat) (environment : Option Expr)
      (arguments : Items .closeParen (Expr.unplacedItems (path :: environment.toList)) ts) :
      Sentence (.embed position path environment) (.identifier "include" :: .symbol .openParen :: ts)

/-- The tokens of a condition and the block that it guards. -/
inductive Branch : Expr → List Node → List Token → Prop
  | guarded (condition : Phrase 0 (Expr.unplaced c) cs) (body : Braced ns bs) : Branch c ns (cs ++ bs)

/-- The tokens of the branches behind the first one. Spans may end before each `else`. -/
inductive Branches : List (Expr × List Node) → Option (List Node) → List Token → Prop
  | none : Branches [] none []
  | final (ends : Nat) (body : Braced ns bs) :
      Branches [] (some ns) (List.replicate ends .spanEnd ++ .keyword .elseWord :: bs)
  | branch (ends : Nat) (first : Branch condition body bs) (others : Branches branches otherwise us) :
      Branches ((condition, body) :: branches) otherwise
        (List.replicate ends .spanEnd ++ .keyword .elseWord :: .keyword .ifWord :: (bs ++ us))

/-- The tokens of a block with its braces. -/
inductive Braced : List Node → List Token → Prop
  | braces (block : Sentences ns ts) :
      Braced ns (.symbol .openBrace :: (ts ++ [.symbol .closeBrace]))

/-- The tokens of the nodes of a block. -/
inductive Sentences : List Node → List Token → Prop
  | none : Sentences [] []
  | semicolon (others : Sentences ns us) : Sentences ns (.symbol .semicolon :: us)
  | spanEnd (others : Sentences ns us) : Sentences ns (.spanEnd :: us)
  | cons (first : Sentence n ts) (others : Sentences ns us) (apart : Apart (ts.getLastD .spanEnd) us) :
      Sentences (n :: ns) (ts ++ us)

end

theorem Braced.exists_last (braced : Braced ns bs) : ∃ front, bs = front ++ [.symbol .closeBrace] := by
  cases braced with
  | braces block => exact ⟨_, (List.cons_append ..).symm⟩

theorem Branch.exists_last (branch : Branch condition ns bs) :
    ∃ front, bs = front ++ [.symbol .closeBrace] := by
  cases branch with
  | @guarded c cs ns bs _ body =>
      obtain ⟨front, rfl⟩ := body.exists_last
      exact ⟨cs ++ front, (List.append_assoc ..).symm⟩

theorem Branches.exists_last : ∀ {others otherwise us}, Branches others otherwise us →
    us = [] ∨ ∃ front, us = front ++ [.symbol .closeBrace]
  | _, _, _, .none => .inl rfl
  | _, _, _, .final ends body => by
      obtain ⟨front, rfl⟩ := body.exists_last
      exact .inr ⟨List.replicate ends .spanEnd ++ .keyword .elseWord :: front, by simp⟩
  | _, _, _, @Branches.branch _ _ bs _ _ _ ends first others => by
      obtain rfl | ⟨front, rfl⟩ := others.exists_last
      · obtain ⟨front, rfl⟩ := first.exists_last
        exact .inr ⟨List.replicate ends .spanEnd ++ .keyword .elseWord :: .keyword .ifWord :: front,
          by simp⟩
      · exact .inr ⟨List.replicate ends .spanEnd ++ .keyword .elseWord :: .keyword .ifWord ::
          (bs ++ front), by simp⟩

theorem apart_of_symbol (front : List Token) (s : Symbol) (rest : List Token) :
    Apart ((front ++ [Token.symbol s]).getLastD .spanEnd) rest := by
  intro isName
  rw [List.getLastD_concat] at isName
  cases isName

theorem Apart.of_append {previous : Token} {us rest : List Token} (apart : Apart previous (us ++ rest)) :
    Apart previous us := by
  cases us with
  | nil => exact fun _ => by simp
  | cons token us => exact apart

theorem Items.exists_last : ∀ {close es ts}, Items close es ts → ∃ front, ts = front ++ [.symbol close]
  | _, _, _, .none => ⟨[], rfl⟩
  | _, _, _, .last _ => ⟨_, rfl⟩
  | _, _, _, @Items.cons _ ts _ _ _ _ others => by
      obtain ⟨front, rfl⟩ := others.exists_last
      exact ⟨ts ++ .symbol .comma :: front, by simp⟩

theorem Entries.exists_last (entries : Entries es ts) : ∃ front, ts = front ++ [.symbol .closeBrace] := by
  cases entries with
  | none => exact ⟨[], rfl⟩
  | @last token _ _ ts => exact ⟨token :: .symbol .colon :: ts, rfl⟩
  | @cons token _ _ ts _ _ _ _ others =>
      obtain ⟨front, rfl⟩ := others.exists_last
      exact ⟨token :: .symbol .colon :: (ts ++ .symbol .comma :: front), by simp⟩

namespace Cursor

variable {c left : Cursor}

theorem head?_ahead_ne_of_uncalled (uncalled : Uncalled c) : c.ahead.head? ≠ some (.symbol .openParen) := by
  intro opens
  refine uncalled ?_
  rw [peek_eq_headD, List.headD_eq_head?_getD, opens]
  rfl

theorem ahead_skip (c : Cursor) (s : Symbol) :
    c.ahead = optional (c.atSymbol s) (.symbol s) ++ (c.skip s).ahead := by
  unfold skip optional
  split
  · exact ahead_of_atSymbol ‹_›
  · rfl

theorem peek_of_atKeyword {word : Keyword} (found : c.atKeyword word = true) :
    c.peek = .keyword word := by
  unfold atKeyword at found
  split at found
  · rename_i kind peek
    rw [peek, eq_of_beq found]
  · cases found

theorem ahead_of_atKeyword {word : Keyword} (found : c.atKeyword word = true) :
    c.ahead = .keyword word :: c.advance.ahead :=
  ahead_of_peek (peek_of_atKeyword found) (by simp)

/-- Behind a statement nothing is taken but a semicolon. -/
theorem ahead_of_endStatement (ended : c.endStatement = .ok left) :
    ∃ semicolon, c.ahead = optional semicolon (.symbol .semicolon) ++ left.ahead := by
  unfold endStatement at ended
  split at ended
  · cases ended
    exact ⟨true, ahead_of_peek ‹_› (by simp)⟩
  · cases ended
    exact ⟨false, rfl⟩
  · cases ended
    exact ⟨false, rfl⟩
  · cases ended
    exact ⟨false, rfl⟩
  · split at ended <;> cases ended
    exact ⟨false, rfl⟩

theorem exists_ahead_skipSpanEnds (c : Cursor) :
    ∃ ends, c.ahead = List.replicate ends .spanEnd ++ c.skipSpanEnds.ahead := by
  unfold ahead skipSpanEnds
  dsimp only
  induction c.tokens with
  | nil => exact ⟨0, rfl⟩
  | cons placed rest ih =>
      rw [List.dropWhile_cons]
      split
      · rename_i isEnd
        obtain ⟨ends, same⟩ := ih
        refine ⟨ends + 1, ?_⟩
        rw [List.map_cons, same, List.replicate_succ, List.cons_append]
        unfold endsSpan at isEnd
        split at isEnd
        · rename_i token
          rw [token]
        · cases isEnd
      · exact ⟨0, rfl⟩

end Cursor

/-- The parser takes the tokens of a node, and at most a semicolon behind them. -/
def TakesNode (c left : Cursor) (node : Node) : Prop :=
  ∃ ts semicolon, c.ahead = ts ++ (optional semicolon (.symbol .semicolon) ++ left.ahead) ∧
    Sentence node ts ∧
      Apart (ts.getLastD .spanEnd) (optional semicolon (.symbol .semicolon) ++ left.ahead)

/-- Whether a node has blocks of its own. -/
def Node.hasBlock : Node → Bool
  | .choose .. | .each .. => true
  | _ => false

/-- The parser takes the tokens of a node without blocks, and the cursor behind them stands where a statement
may end. -/
def TakesStatement (c left : Cursor) (node : Node) : Prop :=
  node.hasBlock = false ∧
    ∃ behind, Takes c behind (fun ts => Sentence node ts ∧ Apart (ts.getLastD .spanEnd) behind.ahead) ∧
      c.Reaches behind ∧ behind.endStatement = .ok left

section Simple

variable {depth : Nat} {c left : Cursor} {node : Node}

theorem TakesStatement.takesNode (statement : TakesStatement c left node) : TakesNode c left node := by
  obtain ⟨-, behind, ⟨ts, taken, sentence, apart⟩, -, ended⟩ := statement
  obtain ⟨semicolon, same⟩ := Cursor.ahead_of_endStatement ended
  exact ⟨ts, semicolon, by rw [taken, same], sentence, by rwa [← same]⟩

theorem Uncalled.apart (uncalled : Uncalled c) (previous : Token) : Apart previous c.ahead :=
  fun _ => Cursor.head?_ahead_ne_of_uncalled uncalled

theorem takesStatement_embed {name : String} (isName : c.peek = .identifier name) (embeds : name = "include")
    (called : c.advance.atSymbol .openParen = true) (parsed : parseEmbed depth c = .ok (node, left)) :
    TakesStatement c left node := by
  subst embeds
  obtain ⟨⟨arguments, behind⟩, inner, parsed⟩ := bind_eq_ok.mp parsed
  obtain ⟨ts, taken, items⟩ := (recognizes depth).items inner
  have whole : c.ahead = .identifier "include" :: .symbol .openParen :: ts ++ behind.ahead := by
    rw [Cursor.ahead_of_peek isName (by simp), Cursor.ahead_of_atSymbol called, taken]
    rfl
  have apart : Apart ((Token.identifier "include" :: .symbol .openParen :: ts).getLastD .spanEnd)
      behind.ahead := by
    obtain ⟨front, rfl⟩ := items.exists_last
    exact apart_of_symbol (_ :: _ :: front) _ _
  have reaches : c.Reaches behind :=
    (c.reaches_advance.trans c.advance.reaches_advance).trans ((advances depth).items _ _ _ inner)
  dsimp only at parsed
  split at parsed
  · obtain ⟨last, ended, parsed⟩ := bind_eq_ok.mp parsed
    cases parsed
    exact ⟨rfl, behind, ⟨_, whole, .embed _ none items, apart⟩, reaches, ended⟩
  · rename_i path environment
    obtain ⟨last, ended, parsed⟩ := bind_eq_ok.mp parsed
    cases parsed
    exact ⟨rfl, behind, ⟨_, whole, .embed _ (some environment) items, apart⟩, reaches, ended⟩
  · cases parsed

theorem takesStatement_simple (parsed : parseSimple depth c = .ok (node, left)) :
    TakesStatement c left node := by
  obtain ⟨⟨target, behind⟩, first, parsed⟩ := bind_eq_ok.mp parsed
  obtain ⟨⟨fs, taken, phrase⟩, uncalled⟩ := (recognizes depth).expr first
  have reaches := (advances depth).expr c _ first
  dsimp only at parsed reaches
  split at parsed
  · rename_i assign
    split at parsed
    · obtain ⟨⟨value, last⟩, second, parsed⟩ := bind_eq_ok.mp parsed
      obtain ⟨final, ended, parsed⟩ := bind_eq_ok.mp parsed
      cases parsed
      obtain ⟨⟨ts, takenValue, valuePhrase⟩, uncalled⟩ := (recognizes depth).expr second
      rw [Expr.unplaced] at phrase
      refine ⟨rfl, last, ⟨_, ?_, .assign _ _ phrase valuePhrase, uncalled.apart _⟩,
        reaches.trans (behind.reaches_advance.trans ((advances depth).expr _ _ second)), ended⟩
      rw [taken, Cursor.ahead_of_atSymbol assign, takenValue]
      simp
    · cases parsed
  · obtain ⟨final, ended, parsed⟩ := bind_eq_ok.mp parsed
    cases parsed
    exact ⟨rfl, behind, ⟨fs, taken, .expression phrase, uncalled.apart _⟩, reaches, ended⟩

/-- Behind an echo, too, a semicolon may stand before the end of the span. -/
theorem takesStatement_echo (isEcho : c.peek = .echo) (parsed : parseEcho depth c = .ok (node, left)) :
    TakesStatement c left node := by
  obtain ⟨⟨value, behind⟩, inner, parsed⟩ := bind_eq_ok.mp parsed
  obtain ⟨⟨ts, taken, phrase⟩, uncalled⟩ := (recognizes depth).expr inner
  dsimp only at parsed
  split at parsed
  · rename_i spanEnd
    cases parsed
    refine ⟨rfl, behind, ⟨.echo :: ts, ?_, .echo phrase, uncalled.apart _⟩,
      c.reaches_advance.trans ((advances depth).expr _ _ inner), ?_⟩
    · rw [Cursor.ahead_of_peek isEcho (by simp), taken]
      rfl
    · unfold Cursor.skip at spanEnd ⊢
      split at spanEnd
      · simp [Cursor.endStatement, Cursor.peek_of_atSymbol ‹_›, *]
      · simp [Cursor.endStatement, *]
  · cases parsed

theorem takesStatement_declare (isLet : c.peek = .keyword .letWord)
    (parsed : parseDeclare depth c = .ok (node, left)) : TakesStatement c left node := by
  obtain ⟨⟨name, atAssign⟩, named, parsed⟩ := bind_eq_ok.mp parsed
  obtain ⟨afterAssign, assign, parsed⟩ := bind_eq_ok.mp parsed
  obtain ⟨⟨value, behind⟩, inner, parsed⟩ := bind_eq_ok.mp parsed
  obtain ⟨last, ended, parsed⟩ := bind_eq_ok.mp parsed
  cases parsed
  obtain ⟨⟨ts, taken, phrase⟩, uncalled⟩ := (recognizes depth).expr inner
  have atValue : c.Reaches afterAssign :=
    (c.reaches_advance.trans (onward_identifier _ _ named)).trans (onward_expect _ _ _ assign)
  refine ⟨rfl, behind, ⟨_, ?_, .declare name phrase, uncalled.apart _⟩,
    atValue.trans ((advances depth).expr _ _ inner), ended⟩
  rw [Cursor.ahead_of_peek isLet (by simp), Cursor.ahead_of_identifier named,
    Cursor.ahead_of_expect assign, taken]
  rfl

/-- The head of a loop from behind its names. -/
theorem taken_of_loopEntries {parenthesized : Bool} {first first' : String} {second second' : Option String}
    {entries : Expr}
    (parsed : (do
      let c ←
        if c.atKeyword .inWord then pure c.advance
        else .error (c.unexpected (backquoted Keyword.inWord.text))
      let (entries, c) ← parseExpr depth c
      let c ← if parenthesized then c.expect .closeParen else pure c
      .ok ((first', second', entries), c)) =
        (.ok ((first, second, entries), left) :
          Except SyntaxError ((String × Option String × Expr) × Cursor))) :
    first' = first ∧ second' = second ∧ ∃ ts, Phrase 0 entries.unplaced ts ∧
      c.ahead =
        .keyword .inWord :: (ts ++ optional parenthesized (.symbol .closeParen)) ++ left.ahead := by
  dsimp only at parsed
  split at parsed
  · rename_i isIn
    obtain ⟨_, ⟨⟩, parsed⟩ := bind_eq_ok.mp parsed
    obtain ⟨⟨found, behind⟩, inner, parsed⟩ := bind_eq_ok.mp parsed
    obtain ⟨⟨ts, taken, phrase⟩, -⟩ := (recognizes depth).expr inner
    have front : c.ahead = .keyword .inWord :: (ts ++ behind.ahead) := by
      rw [Cursor.ahead_of_atKeyword isIn, taken]
    dsimp only at parsed
    split at parsed
    · obtain ⟨last, close, parsed⟩ := bind_eq_ok.mp parsed
      cases parsed
      refine ⟨rfl, rfl, ts, phrase, ?_⟩
      simp [Cursor.ahead_of_expect close, optional, *]
    · cases parsed
      refine ⟨rfl, rfl, ts, phrase, ?_⟩
      simp [optional, *]
  · cases parsed

theorem taken_of_eachHead {first : String} {second : Option String} {entries : Expr}
    (isFor : c.peek = .keyword .forWord)
    (parsed : parseEachHead depth c = .ok ((first, second, entries), left)) :
    ∃ parenthesized declared ts, Phrase 0 entries.unplaced ts ∧
      c.ahead = .keyword .forWord :: (loopHead parenthesized declared first second ts ++ left.ahead) := by
  have opening := c.advance.ahead_skip .openParen
  unfold parseEachHead at parsed
  dsimp only at parsed
  generalize c.advance.skip .openParen = inside at parsed opening
  obtain ⟨⟨first', atSecond⟩, named, parsed⟩ := bind_eq_ok.mp parsed
  obtain ⟨declared, atFirst⟩ : ∃ declared, inside.ahead =
      optional declared (.keyword .letWord) ++ .identifier first' :: atSecond.ahead := by
    have name := Cursor.ahead_of_identifier named
    split at name
    · exact ⟨true, by rw [Cursor.ahead_of_atKeyword ‹_›, name]; rfl⟩
    · exact ⟨false, name⟩
  have front : c.ahead = .keyword .forWord :: (optional (c.advance.atSymbol .openParen)
      (.symbol .openParen) ++ optional declared (.keyword .letWord) ++
        .identifier first' :: atSecond.ahead) := by
    rw [Cursor.ahead_of_peek isFor (by simp), opening, atFirst, List.append_assoc]
  dsimp only at parsed
  split at parsed
  · rename_i comma
    obtain ⟨⟨name, atIn⟩, named, parsed⟩ := bind_eq_ok.mp parsed
    obtain ⟨rfl, rfl, ts, phrase, taken⟩ := taken_of_loopEntries parsed
    refine ⟨c.advance.atSymbol .openParen, declared, ts, phrase, ?_⟩
    rw [front, Cursor.ahead_of_atSymbol comma, Cursor.ahead_of_identifier named, taken]
    simp [loopHead, loopNames, secondName]
  · obtain ⟨rfl, rfl, ts, phrase, taken⟩ := taken_of_loopEntries parsed
    refine ⟨c.advance.atSymbol .openParen, declared, ts, phrase, ?_⟩
    rw [front, taken]
    simp [loopHead, loopNames, secondName]

end Simple

/-- The symbol that ends a block which a brace opened. -/
def blockEnd (opening : Option Nat) : List Token :=
  match opening with
  | some _ => [.symbol .closeBrace]
  | none => []

/-- What each function of the statement parser accepts when its calls nest no deeper than a bound. -/
structure Accepts (depth : Nat) : Prop where
  block : ∀ {opening c left ns}, parseBlock depth opening c = .ok (ns, left) →
    Takes c left (fun ts => ∃ us, ts = us ++ blockEnd opening ∧ Sentences ns us) ∧
      (opening = none → left.peek = .finish)
  statement : ∀ {c left n}, parseStatement depth c = .ok (n, left) → TakesNode c left n
  body : ∀ {c left ns}, parseBody depth c = .ok (ns, left) → Takes c left (Braced ns)
  branch : ∀ {c left condition ns}, parseBranch depth c = .ok ((condition, ns), left) →
    Takes c left (Branch condition ns)
  alternatives : ∀ {c left branches otherwise},
    parseAlternatives depth c = .ok ((branches, otherwise), left) →
    Takes c left (Branches branches otherwise)

section Step

variable {depth : Nat} {c left : Cursor}

theorem Accepts.body_step (below : Accepts depth) {ns : List Node}
    (parsed : parseBody (depth + 1) c = .ok (ns, left)) : Takes c left (Braced ns) := by
  rw [parseBody] at parsed
  obtain ⟨inner, brace, parsed⟩ := bind_eq_ok.mp parsed
  obtain ⟨⟨_, taken, us, rfl, block⟩, -⟩ := below.block parsed
  exact ⟨_, by rw [Cursor.ahead_of_expect brace, taken]; rfl, .braces block⟩

theorem Accepts.branch_step (below : Accepts depth) {condition : Expr} {ns : List Node}
    (parsed : parseBranch (depth + 1) c = .ok ((condition, ns), left)) :
    Takes c left (Branch condition ns) := by
  rw [parseBranch] at parsed
  obtain ⟨⟨found, atBody⟩, first, parsed⟩ := bind_eq_ok.mp parsed
  obtain ⟨⟨body, behind⟩, second, parsed⟩ := bind_eq_ok.mp parsed
  cases parsed
  obtain ⟨⟨cs, taken, phrase⟩, -⟩ := (recognizes depth).expr first
  obtain ⟨bs, takenBody, braced⟩ := below.body second
  exact ⟨cs ++ bs, by rw [taken, takenBody, List.append_assoc], .guarded phrase braced⟩

theorem Accepts.alternatives_step (below : Accepts depth) {branches : List (Expr × List Node)}
    {otherwise : Option (List Node)}
    (parsed : parseAlternatives (depth + 1) c = .ok ((branches, otherwise), left)) :
    Takes c left (Branches branches otherwise) := by
  rw [parseAlternatives] at parsed
  obtain ⟨ends, skipped⟩ := c.exists_ahead_skipSpanEnds
  dsimp only at parsed
  split at parsed
  · cases parsed
    exact ⟨[], rfl, .none⟩
  · rename_i atElse
    have isElse := Cursor.ahead_of_atKeyword (by simpa using atElse)
    split at parsed
    · rename_i atIf
      obtain ⟨⟨⟨condition, body⟩, behind⟩, first, parsed⟩ := bind_eq_ok.mp parsed
      obtain ⟨⟨⟨more, final⟩, last⟩, others, parsed⟩ := bind_eq_ok.mp parsed
      cases parsed
      obtain ⟨bs, taken, branch⟩ := below.branch first
      obtain ⟨us, takenOthers, rest⟩ := below.alternatives others
      refine ⟨_, ?_, .branch ends branch rest⟩
      rw [skipped, isElse, Cursor.ahead_of_atKeyword atIf, taken, takenOthers]
      simp
    · obtain ⟨⟨body, behind⟩, inner, parsed⟩ := bind_eq_ok.mp parsed
      cases parsed
      obtain ⟨bs, taken, braced⟩ := below.body inner
      refine ⟨_, ?_, .final ends braced⟩
      rw [skipped, isElse, taken]
      simp

/-- A node that ends with a block. -/
theorem takesNode_of_block {node : Node} {ts : List Token} (front : List Token)
    (same : ts = front ++ [.symbol .closeBrace]) (sentence : Sentence node ts)
    (taken : c.ahead = ts ++ left.ahead) : TakesNode c left node :=
  ⟨ts, false, taken, sentence, same ▸ apart_of_symbol front _ _⟩

theorem Accepts.statement_step (below : Accepts depth) {n : Node}
    (parsed : parseStatement (depth + 1) c = .ok (n, left)) : TakesNode c left n := by
  rw [parseStatement] at parsed
  split at parsed
  · rename_i content isText
    cases parsed
    refine ⟨[.text content], false, Cursor.ahead_of_peek isText (by simp), .text content, ?_⟩
    rintro ⟨⟩
  · exact (takesStatement_echo ‹_› parsed).takesNode
  · exact (takesStatement_declare ‹_› parsed).takesNode
  · rename_i isIf
    obtain ⟨⟨⟨condition, body⟩, behind⟩, first, parsed⟩ := bind_eq_ok.mp parsed
    obtain ⟨⟨⟨branches, otherwise⟩, last⟩, others, parsed⟩ := bind_eq_ok.mp parsed
    cases parsed
    obtain ⟨bs, taken, branch⟩ := below.branch first
    obtain ⟨us, takenOthers, more⟩ := below.alternatives others
    have whole : c.ahead = .keyword .ifWord :: (bs ++ us) ++ left.ahead := by
      rw [Cursor.ahead_of_peek isIf (by simp), taken, takenOthers]
      simp
    obtain rfl | ⟨front, rfl⟩ := more.exists_last
    · obtain ⟨front, rfl⟩ := branch.exists_last
      exact takesNode_of_block (.keyword .ifWord :: front) (by simp) (.choose branch more) whole
    · exact takesNode_of_block (.keyword .ifWord :: (bs ++ front)) (by simp)
        (.choose branch more) whole
  · rename_i isFor
    obtain ⟨⟨⟨first, second, entries⟩, atBody⟩, head, parsed⟩ := bind_eq_ok.mp parsed
    obtain ⟨⟨body, behind⟩, inner, parsed⟩ := bind_eq_ok.mp parsed
    cases parsed
    obtain ⟨parenthesized, declared, ts, phrase, taken⟩ := taken_of_eachHead isFor head
    obtain ⟨bs, takenBody, braced⟩ := below.body inner
    obtain ⟨front, rfl⟩ := braced.exists_last
    refine takesNode_of_block
      (.keyword .forWord :: (loopHead parenthesized declared first second ts ++ front)) ?_
      (.each parenthesized declared first second phrase braced) ?_
    · simp
    · rw [taken, takenBody]
      simp
  · rename_i name isName
    split at parsed
    · rename_i embeds
      simp only [Bool.and_eq_true, beq_iff_eq] at embeds
      exact (takesStatement_embed isName embeds.1 embeds.2 parsed).takesNode
    · exact (takesStatement_simple parsed).takesNode
  · exact (takesStatement_simple parsed).takesNode

theorem Accepts.block_step (below : Accepts depth) {opening : Option Nat} {ns : List Node}
    (parsed : parseBlock (depth + 1) opening c = .ok (ns, left)) :
    Takes c left (fun ts => ∃ us, ts = us ++ blockEnd opening ∧ Sentences ns us) ∧
      (opening = none → left.peek = .finish) := by
  rw [parseBlock.eq_def] at parsed
  dsimp only at parsed
  split at parsed
  · rename_i semicolon
    obtain ⟨⟨_, taken, us, rfl, block⟩, finished⟩ := below.block parsed
    refine ⟨⟨_, ?_, _, rfl, .semicolon block⟩, finished⟩
    rw [Cursor.ahead_of_peek semicolon (by simp), taken]
    rfl
  · rename_i spanEnd
    obtain ⟨⟨_, taken, us, rfl, block⟩, finished⟩ := below.block parsed
    refine ⟨⟨_, ?_, _, rfl, .spanEnd block⟩, finished⟩
    rw [Cursor.ahead_of_peek spanEnd (by simp), taken]
    rfl
  · rename_i finish
    split at parsed <;> cases parsed
    exact ⟨⟨[], rfl, [], rfl, .none⟩, fun _ => finish⟩
  · rename_i brace
    split at parsed <;> cases parsed
    refine ⟨⟨[.symbol .closeBrace], Cursor.ahead_of_peek brace (by simp), [], rfl, .none⟩, ?_⟩
    rintro ⟨⟩
  · obtain ⟨⟨node, behind⟩, first, parsed⟩ := bind_eq_ok.mp parsed
    obtain ⟨⟨nodes, last⟩, others, parsed⟩ := bind_eq_ok.mp parsed
    cases parsed
    obtain ⟨ts, semicolon, taken, sentence, apart⟩ := below.statement first
    obtain ⟨⟨_, takenOthers, us, rfl, block⟩, finished⟩ := below.block others
    have separated : Sentences nodes (optional semicolon (.symbol .semicolon) ++ us) := by
      cases semicolon with
      | false => exact block
      | true => exact .semicolon block
    rw [takenOthers, List.append_assoc, ← List.append_assoc] at apart
    refine ⟨⟨_, ?_, _, rfl, .cons sentence separated apart.of_append⟩, finished⟩
    rw [taken, takenOthers]
    simp

end Step

/-- Whatever bound the calls of the parser have, it accepts nothing but what the grammar of nodes allows. -/
theorem accepts (depth : Nat) : Accepts depth := by
  -- on the depth, as for expressions; those stand below all of it and need no hypothesis
  induction depth with
  | zero =>
      constructor <;> intros <;> rename_i parsed
      · rw [parseBlock] at parsed; cases parsed
      · rw [parseStatement] at parsed; cases parsed
      · rw [parseBody] at parsed; cases parsed
      · rw [parseBranch] at parsed; cases parsed
      · rw [parseAlternatives] at parsed; cases parsed
  | succ depth below =>
      exact ⟨below.block_step, below.statement_step, below.body_step, below.branch_step,
        below.alternatives_step⟩

/-- A source that is parsed is, up to its end, a sequence of the tokens of its nodes. -/
theorem exists_sentences_of_parse {source : List Char} {nodes : List Node}
    (parsed : parse source = .ok nodes) :
    ∃ tokens ts rest, scan source = .ok tokens ∧ tokens.map Placed.token = ts ++ rest ∧
      Sentences nodes ts ∧ rest.headD .finish = .finish := by
  obtain ⟨tokens, scanned, parsed⟩ := bind_eq_ok.mp parsed
  obtain ⟨⟨found, left⟩, block, parsed⟩ := bind_eq_ok.mp parsed
  cases parsed
  obtain ⟨⟨_, taken, ts, rfl, sentences⟩, finished⟩ := (accepts _).block block
  refine ⟨tokens, ts, left.ahead, scanned, by simpa [Cursor.ahead, Cursor.start, blockEnd] using taken,
    sentences, ?_⟩
  rw [← Cursor.peek_eq_headD]
  exact finished rfl

end StaticSite.Template
