import StaticSite.Proofs.Template.Phrase

/-!
The grammar of template nodes as they stand in spans of their own, and that the parser reads every block
of it as the grammar says. A block that a statement opens begins behind the end of the statement's span.
-/

namespace StaticSite.Template

mutual

/-- The node with every position forgotten. -/
def Node.unplaced : Node → Node
  | .text content => .text content
  | .echo value => .echo value.unplaced
  | .expression value => .expression value.unplaced
  | .declare name value => .declare name value.unplaced
  | .assign _ name value => .assign 0 name value.unplaced
  | .choose branches otherwise =>
      .choose (Node.unplacedBranches branches) (Node.unplacedOtherwise otherwise)
  | .each first second entries body => .each first second entries.unplaced (Node.unplacedAll body)
  | .embed _ path environment => .embed 0 path.unplaced (environment.map Expr.unplaced)

def Node.unplacedAll : List Node → List Node
  | [] => []
  | node :: rest => node.unplaced :: Node.unplacedAll rest

def Node.unplacedBranches : List (Expr × List Node) → List (Expr × List Node)
  | [] => []
  | (condition, body) :: rest =>
      (condition.unplaced, Node.unplacedAll body) :: Node.unplacedBranches rest

def Node.unplacedOtherwise : Option (List Node) → Option (List Node)
  | none => none
  | some body => some (Node.unplacedAll body)

end

/-- The tokens of the second name of a loop, if it has one. -/
def secondName : Option String → List Token
  | none => []
  | some name => [.symbol .comma, .identifier name]

mutual

/-- The tokens of a node other than text, up to the end of its last span. -/
inductive Statement : Node → List Token → Prop
  | echo (value : Phrase 0 e ts) : Statement (.echo e) (.echo :: ts)
  | expression (value : Phrase 0 e ts) : Statement (.expression e) ts
  | declare (name : String) (value : Phrase 0 e ts) :
      Statement (.declare name e)
        (.keyword .letWord :: .identifier name :: .symbol .assign :: ts)
  | assign (name : String) (value : Phrase 0 e ts) :
      Statement (.assign 0 name e) (.identifier name :: .symbol .assign :: ts)
  | choose (condition : Phrase 0 c cs) (body : Body ns bs) (others : Alternatives branches otherwise us) :
      Statement (.choose ((c, ns) :: branches) otherwise) (.keyword .ifWord :: (cs ++ bs ++ us))
  | each (first : String) (second : Option String) (entries : Phrase 0 e ts) (body : Body ns bs) :
      Statement (.each first second e ns)
        (.keyword .forWord :: .identifier first :: (secondName second ++ .keyword .inWord :: (ts ++ bs)))
  | embed (environment : Option Expr) (arguments : Items .closeParen (p :: environment.toList) ts) :
      Statement (.embed 0 p environment) (.identifier "include" :: .symbol .openParen :: ts)

/-- The tokens of the branches behind the first one. -/
inductive Alternatives : List (Expr × List Node) → Option (List Node) → List Token → Prop
  | none : Alternatives [] none []
  | final (body : Body ns bs) : Alternatives [] (some ns) (.keyword .elseWord :: bs)
  | branch (condition : Phrase 0 c cs) (body : Body ns bs) (others : Alternatives branches otherwise us) :
      Alternatives ((c, ns) :: branches) otherwise
        (.keyword .elseWord :: .keyword .ifWord :: (cs ++ bs ++ us))

/-- The tokens of a block with its braces, the first of which ends a span. -/
inductive Body : List Node → List Token → Prop
  | braces (block : Block ns ts) :
      Body ns (.symbol .openBrace :: .spanEnd :: (ts ++ [.symbol .closeBrace]))

inductive Block : List Node → List Token → Prop
  | none : Block [] []
  | text (content : String) (others : Block ns ts) : Block (.text content :: ns) (.text content :: ts)
  | statement (first : Statement n ts) (others : Block ns us) : Block (n :: ns) (ts ++ .spanEnd :: us)

end

/-- Whether a token can begin a node. -/
def Token.opens : Token → Bool
  | .symbol .semicolon | .symbol .closeBrace | .spanEnd | .finish | .keyword .elseWord => false
  | _ => true

theorem Token.opens_of_begins {token : Token} (begins : token.begins = true) : token.opens = true := by
  cases token with
  | keyword word => cases word <;> first | rfl | cases begins
  | symbol s => cases s <;> first | rfl | cases begins
  | _ => first | rfl | cases begins

theorem Statement.exists_opens (statement : Statement n ts) :
    ∃ token us, ts = token :: us ∧ token.opens = true := by
  cases statement with
  | expression value =>
      obtain ⟨token, us, rfl, begins⟩ := value.exists_begins
      exact ⟨token, us, rfl, Token.opens_of_begins begins⟩
  | _ => exact ⟨_, _, rfl, rfl⟩

/-- An expression is not mistaken for the inclusion of a template. -/
theorem Phrase.not_embed : ∀ {level e ts}, Phrase level e ts →
    ∀ {rest us}, rest.head? ≠ some (.symbol .openParen) →
      ts ++ rest ≠ .identifier "include" :: .symbol .openParen :: us
  | _, _, _, .loosen tighter, _, _, apart => tighter.not_embed apart
  | _, _, _, .conditional condition _ _, _, _, _ => by
      rw [List.append_assoc]
      exact condition.not_embed (by rintro ⟨⟩)
  | _, _, _, .binary operator left _, _, _, _ => by
      rw [List.append_assoc]
      exact left.not_embed (by cases operator <;> rintro ⟨⟩)
  | _, _, _, .member target _, _, _, _ => by
      rw [List.append_assoc]
      exact target.not_embed (by rintro ⟨⟩)
  | _, _, _, .index target _, _, _, _ => by
      rw [List.append_assoc]
      exact target.not_embed (by rintro ⟨⟩)
  | _, _, _, .unary operator _, _, _, _ => by cases operator <;> rintro ⟨⟩
  | _, _, _, .literal denotes, _, _, _ => by
      rintro ⟨⟩
      cases denotes
  | _, _, _, .variable _, _, _, apart => by
      rintro same
      cases same
      exact apart rfl
  | _, _, _, .call callable _, _, _, _ => by
      rintro ⟨⟩
      exact callable rfl
  | _, _, _, .group _, _, _, _ | _, _, _, .array _, _, _, _ | _, _, _, .object _, _, _, _ => by rintro ⟨⟩

/-- What may follow the end of a statement's last span. -/
def Unfollowed (rest : List Token) : Prop := ∃ token us, rest = token :: us ∧
  token ≠ .spanEnd ∧ token ≠ .keyword .elseWord

theorem unfollowed_of_opens {token : Token} (opens : token.opens = true) (us : List Token) :
    Unfollowed (token :: us) := by
  refine ⟨token, us, rfl, ?_, ?_⟩ <;> rintro rfl <;> cases opens

/-- The tokens at which a block ends, and those that are left then. -/
inductive Ends : Option Nat → List Token → List Token → Prop
  | brace : Ends (some position) (.symbol .closeBrace :: rest) rest
  | template : Ends none (.finish :: rest) (.finish :: rest)

theorem Block.unfollowed (block : Block ns ts) (ends : Ends opening rest behind) :
    Unfollowed (ts ++ rest) := by
  cases block with
  | none => cases ends <;> exact ⟨_, _, rfl, by simp, by simp⟩
  | text content others => exact ⟨_, _, rfl, by simp, by simp⟩
  | statement first others =>
      obtain ⟨token, us, rfl, opens⟩ := first.exists_opens
      exact unfollowed_of_opens opens _

namespace Cursor

variable {c : Cursor} {token : Token} {rest : List Token}

theorem endStatement_of_ahead (ahead : c.ahead = .spanEnd :: rest) : c.endStatement = .ok c := by
  simp [endStatement, peek_of_ahead ahead]

theorem atKeyword_of_ahead {word : Keyword} (ahead : c.ahead = .keyword word :: rest) :
    c.atKeyword word = true := by
  simp [atKeyword, peek_of_ahead ahead]

theorem atKeyword_eq_false {word : Keyword} (different : c.peek ≠ .keyword word) :
    c.atKeyword word = false := by
  unfold atKeyword
  split
  · rename_i found peek
    rw [peek] at different
    simpa using different
  · rfl

theorem skipSpanEnds_of_ahead (ahead : c.ahead = token :: rest) (different : token ≠ .spanEnd) :
    c.skipSpanEnds = c := by
  obtain ⟨tokens, previous, lineFeeds⟩ := c
  cases tokens with
  | nil => rfl
  | cons placed tokens =>
      simp only [Cursor.ahead, List.map_cons, List.cons.injEq] at ahead
      have same : endsSpan placed = false := by
        unfold endsSpan
        split
        · rename_i isEnd
          exact absurd (ahead.1.symm.trans isEnd) different
        · rfl
      simp [skipSpanEnds, same]

theorem skipSpanEnds_spanEnd (ahead : c.ahead = .spanEnd :: rest) :
    c.skipSpanEnds.ahead = (skipSpanEnds c.advance).ahead := by
  obtain ⟨tokens, previous, lineFeeds⟩ := c
  cases tokens with
  | nil => rfl
  | cons placed tokens =>
      simp only [Cursor.ahead, List.map_cons, List.cons.injEq] at ahead
      have same : endsSpan placed = true := by
        unfold endsSpan
        rw [ahead.1]
      simp [skipSpanEnds, same, advance, Cursor.ahead]

end Cursor

/-! What it means that tokens are read as a node, for each function of the parser. -/

def ReadsStatement (n : Node) (ts : List Token) : Prop :=
  ∀ (depth : Nat) {c : Cursor} {rest : List Token}, 16 * (ts.length + 1) ≤ depth →
    c.ahead = ts ++ .spanEnd :: rest → Unfollowed rest →
    ∃ found left, parseStatement depth c = .ok (found, left) ∧ found.unplaced = n ∧
      left.ahead = .spanEnd :: rest

def ReadsAlternatives (branches : List (Expr × List Node)) (otherwise : Option (List Node))
    (ts : List Token) : Prop :=
  ∀ (depth : Nat) {c : Cursor} {rest : List Token}, 16 * ts.length < depth →
    c.ahead = ts ++ .spanEnd :: rest → Unfollowed rest →
    ∃ found final left, parseAlternatives depth c = .ok ((found, final), left) ∧
      Node.unplacedBranches found = branches ∧ Node.unplacedOtherwise final = otherwise ∧
      left.ahead = .spanEnd :: rest

def ReadsBody (ns : List Node) (ts : List Token) : Prop :=
  ∀ (depth : Nat) {c : Cursor} {rest : List Token}, 16 * ts.length ≤ depth + 15 →
    c.ahead = ts ++ rest →
    ∃ found left, parseBody depth c = .ok (found, left) ∧ Node.unplacedAll found = ns ∧
      left.ahead = rest

def ReadsBlock (ns : List Node) (ts : List Token) : Prop :=
  ∀ (depth : Nat) (opening : Option Nat) {c : Cursor} {rest behind : List Token},
    16 * ts.length < depth → c.ahead = ts ++ rest → Ends opening rest behind →
    ∃ found left, parseBlock depth opening c = .ok (found, left) ∧ Node.unplacedAll found = ns ∧
      left.ahead = behind

theorem ReadsStatement.echo (value : ReadsExpr e ts) : ReadsStatement (.echo e) (.echo :: ts) := by
  intro depth c rest deep ahead unfollowed
  simp only [List.length_cons] at deep
  rw [List.cons_append] at ahead
  obtain ⟨depth, rfl⟩ : ∃ k, depth = k + 1 := ⟨depth - 1, by omega⟩
  have peek := Cursor.peek_of_ahead ahead
  obtain ⟨e', left, read, rfl, behind⟩ :=
    value depth (by omega) (Cursor.ahead_advance_of_ahead ahead) (.cons (by decide))
  have spanEnd := Cursor.peek_of_ahead behind
  have closed : left.skip .semicolon = left := by
    rw [Cursor.skip, Cursor.atSymbol_eq_false (by simp [spanEnd])]
    rfl
  refine ⟨.echo e', left, ?_, by rw [Node.unplaced], behind⟩
  rw [parseStatement]
  simp only [peek, parseEcho, read, bind, Except.bind, closed, spanEnd]

theorem parseStatement_simple {token : Token} (begins : token.begins = true) {depth : Nat} {c : Cursor}
    (ahead : c.ahead = token :: rest)
    (notEmbed : ∀ us, token :: rest ≠ .identifier "include" :: .symbol .openParen :: us) :
    parseStatement (depth + 1) c = parseSimple depth c := by
  have peek := Cursor.peek_of_ahead ahead
  rw [parseStatement]
  cases token with
  | identifier name =>
      simp only [peek]
      rw [if_neg]
      intro embeds
      rw [Bool.and_eq_true, beq_iff_eq] at embeds
      obtain ⟨rfl, opens⟩ := embeds
      have behind := Cursor.ahead_advance_of_ahead ahead
      cases rest with
      | nil =>
          rw [Cursor.atSymbol, Cursor.peek_eq_headD, behind] at opens
          cases opens
      | cons next us =>
          cases next with
          | symbol s =>
              simp only [Cursor.atSymbol, Cursor.peek_of_ahead behind, beq_iff_eq] at opens
              exact notEmbed us (by rw [opens])
          | _ => simp [Cursor.atSymbol, Cursor.peek_of_ahead behind] at opens
  | keyword word => cases word <;> simp only [peek] <;> cases begins
  | symbol s => simp only [peek]
  | number f => simp only [peek]
  | string s => simp only [peek]
  | _ => cases begins

theorem ReadsStatement.expression (phrase : Phrase 0 e ts) : ReadsStatement (.expression e) ts := by
  intro depth c rest deep ahead unfollowed
  obtain ⟨depth, rfl⟩ : ∃ k, depth = k + 1 := ⟨depth - 1, by omega⟩
  obtain ⟨e', left, read, rfl, behind⟩ :=
    phrase.readsExpr depth (by omega) ahead (.cons (by decide))
  have unassigned : left.atSymbol .assign = false :=
    Cursor.atSymbol_eq_false (by simp [Cursor.peek_of_ahead behind])
  have ends := Cursor.endStatement_of_ahead behind
  refine ⟨.expression e', left, ?_, by rw [Node.unplaced], behind⟩
  obtain ⟨token, us, rfl, begins⟩ := phrase.exists_begins
  rw [parseStatement_simple begins ahead fun us => phrase.not_embed (by simp), parseSimple]
  simp [read, unassigned, ends, bind, Except.bind]

theorem ReadsStatement.declare (name : String) (value : ReadsExpr e ts) :
    ReadsStatement (.declare name e)
      (.keyword .letWord :: .identifier name :: .symbol .assign :: ts) := by
  intro depth c rest deep ahead unfollowed
  simp only [List.length_cons] at deep
  simp only [List.cons_append] at ahead
  obtain ⟨depth, rfl⟩ : ∃ k, depth = k + 1 := ⟨depth - 1, by omega⟩
  have peek := Cursor.peek_of_ahead ahead
  have atName := Cursor.ahead_advance_of_ahead ahead
  have named := Cursor.identifier_of_ahead atName
  have atAssign := Cursor.ahead_advance_of_ahead atName
  have assigned := Cursor.expect_of_ahead atAssign
  obtain ⟨e', left, read, rfl, behind⟩ :=
    value depth (by omega) (Cursor.ahead_advance_of_ahead atAssign) (.cons (by decide))
  have ends := Cursor.endStatement_of_ahead behind
  refine ⟨.declare name e', left, ?_, by rw [Node.unplaced], behind⟩
  rw [parseStatement]
  simp only [peek, parseDeclare, named, assigned, read, ends, bind, Except.bind]

theorem ReadsStatement.assign (name : String) (value : ReadsExpr e ts) :
    ReadsStatement (.assign 0 name e) (.identifier name :: .symbol .assign :: ts) := by
  intro depth c rest deep ahead unfollowed
  simp only [List.length_cons] at deep
  simp only [List.cons_append] at ahead
  obtain ⟨depth, rfl⟩ : ∃ k, depth = k + 1 := ⟨depth - 1, by omega⟩
  obtain ⟨target, atAssign, readTarget, same, behind⟩ :=
    (Phrase.variable name).readsExpr depth (by simp only [List.length_cons, List.length_nil]; omega)
      ahead (.cons (by decide))
  obtain ⟨position, rfl⟩ : ∃ position, target = .variable position name := by
    cases target <;> rw [Expr.unplaced] at same <;> cases same
    exact ⟨_, rfl⟩
  have assigned := Cursor.atSymbol_of_ahead behind
  obtain ⟨e', left, read, rfl, behind⟩ :=
    value depth (by omega) (Cursor.ahead_advance_of_ahead behind) (.cons (by decide))
  have ends := Cursor.endStatement_of_ahead behind
  refine ⟨.assign position name e', left, ?_, by rw [Node.unplaced], behind⟩
  rw [parseStatement_simple rfl ahead (by simp), parseSimple]
  simp only [readTarget, assigned, if_true, read, ends, bind, Except.bind]

theorem ReadsStatement.embed (environment : Option Expr)
    (arguments : ReadsItems .closeParen (p :: environment.toList) ts) :
    ReadsStatement (.embed 0 p environment) (.identifier "include" :: .symbol .openParen :: ts) := by
  intro depth c rest deep ahead unfollowed
  simp only [List.length_cons] at deep
  simp only [List.cons_append] at ahead
  obtain ⟨depth, rfl⟩ : ∃ k, depth = k + 1 := ⟨depth - 1, by omega⟩
  have peek := Cursor.peek_of_ahead ahead
  have atParen := Cursor.ahead_advance_of_ahead ahead
  have opens := Cursor.atSymbol_of_ahead atParen
  obtain ⟨found, left, read, same, behind⟩ :=
    arguments depth (by omega) (Cursor.ahead_advance_of_ahead atParen)
  have ends := Cursor.endStatement_of_ahead behind
  have parsed (path : Expr) (environment' : Option Expr) (whole : found = path :: environment'.toList) :
      parseStatement (depth + 1) c = .ok (.embed c.position path environment', left) := by
    rw [parseStatement]
    cases environment' <;> simp [peek, opens, parseEmbed, read, whole, ends, bind, Except.bind]
  match found, environment with
  | [path], none =>
      simp only [Expr.unplacedItems, Option.toList_none, List.cons.injEq, and_true] at same
      exact ⟨_, left, parsed path none rfl, by rw [Node.unplaced, same]; rfl, behind⟩
  | [path, environment'], some e =>
      simp only [Expr.unplacedItems, Option.toList_some, List.cons.injEq, and_true] at same
      exact ⟨_, left, parsed path (some environment') rfl, by rw [Node.unplaced, same.1, ← same.2]; rfl,
        behind⟩
  | [], _ => cases same
  | [_], some _ | _ :: _ :: _, none | _ :: _ :: _ :: _, some _ => simp [Expr.unplacedItems] at same

theorem Body.exists_brace (body : Body ns bs) : ∃ us, bs = .symbol .openBrace :: us ∧ 3 ≤ bs.length := by
  cases body with
  | braces block => exact ⟨_, rfl, by simp⟩

theorem readsBranch (condition : Phrase 0 c cs) (body : Body ns bs) (readsBody : ReadsBody ns bs)
    (depth : Nat) {start : Cursor} {rest : List Token} (deep : 16 * (cs.length + bs.length) ≤ depth)
    (ahead : start.ahead = cs ++ bs ++ rest) :
    ∃ found block left, parseBranch depth start = .ok ((found, block), left) ∧ found.unplaced = c ∧
      Node.unplacedAll block = ns ∧ left.ahead = rest := by
  have nonempty := condition.length_pos
  obtain ⟨us, same, long⟩ := body.exists_brace
  rw [List.append_assoc] at ahead
  obtain ⟨depth, rfl⟩ : ∃ k, depth = k + 1 := ⟨depth - 1, by omega⟩
  obtain ⟨found, atBrace, readCondition, rfl, ahead⟩ :=
    condition.readsExpr depth (by omega) ahead (by rw [same]; exact .cons (by decide))
  obtain ⟨block, left, readBlock, rfl, behind⟩ := readsBody depth (by omega) ahead
  refine ⟨found, block, left, ?_, rfl, rfl, behind⟩
  rw [parseBranch]
  simp only [readCondition, readBlock, bind, Except.bind]

theorem ReadsStatement.choose (condition : Phrase 0 c cs) (body : Body ns bs)
    (readsBody : ReadsBody ns bs) (others : ReadsAlternatives branches otherwise us) :
    ReadsStatement (.choose ((c, ns) :: branches) otherwise) (.keyword .ifWord :: (cs ++ bs ++ us)) := by
  intro depth start rest deep ahead unfollowed
  simp only [List.length_append, List.length_cons] at deep
  rw [List.cons_append, List.append_assoc] at ahead
  obtain ⟨depth, rfl⟩ : ∃ k, depth = k + 1 := ⟨depth - 1, by omega⟩
  have peek := Cursor.peek_of_ahead ahead
  obtain ⟨found, block, atOthers, readBranch, rfl, rfl, ahead⟩ :=
    readsBranch condition body readsBody depth (by omega) (Cursor.ahead_advance_of_ahead ahead)
  obtain ⟨more, final, left, readOthers, rfl, rfl, behind⟩ := others depth (by omega) ahead unfollowed
  refine ⟨.choose ((found, block) :: more) final, left, ?_, ?_, behind⟩
  · rw [parseStatement]
    simp only [peek, readBranch, readOthers, bind, Except.bind]
  · rw [Node.unplaced, Node.unplacedBranches]

theorem ReadsAlternatives.unbranched : ReadsAlternatives [] none [] := by
  intro depth c rest deep ahead unfollowed
  obtain ⟨depth, rfl⟩ : ∃ k, depth = k + 1 := ⟨depth - 1, by omega⟩
  obtain ⟨token, us, rfl, notEnd, notElse⟩ := unfollowed
  have behind := Cursor.ahead_advance_of_ahead ahead
  have finished : c.skipSpanEnds.atKeyword .elseWord = false := by
    refine Cursor.atKeyword_eq_false ?_
    rw [Cursor.peek_eq_headD, Cursor.skipSpanEnds_spanEnd ahead,
      Cursor.skipSpanEnds_of_ahead behind notEnd, behind]
    exact notElse
  refine ⟨[], none, c, ?_, by rw [Node.unplacedBranches], by rw [Node.unplacedOtherwise], ahead⟩
  rw [parseAlternatives]
  simp [finished]

theorem ReadsAlternatives.final (body : Body ns bs) (readsBody : ReadsBody ns bs) :
    ReadsAlternatives [] (some ns) (.keyword .elseWord :: bs) := by
  intro depth c rest deep ahead unfollowed
  simp only [List.length_cons] at deep
  rw [List.cons_append] at ahead
  obtain ⟨depth, rfl⟩ : ∃ k, depth = k + 1 := ⟨depth - 1, by omega⟩
  have here := Cursor.skipSpanEnds_of_ahead ahead (by simp)
  have isElse := Cursor.atKeyword_of_ahead ahead
  have behindElse := Cursor.ahead_advance_of_ahead ahead
  have last : c.advance.atKeyword .ifWord = false := by
    obtain ⟨us, rfl, _⟩ := body.exists_brace
    exact Cursor.atKeyword_eq_false (by simp [Cursor.peek_of_ahead behindElse])
  obtain ⟨block, left, readBlock, rfl, behind⟩ := readsBody depth (by omega) behindElse
  refine ⟨[], some block, left, ?_, by rw [Node.unplacedBranches], by rw [Node.unplacedOtherwise], behind⟩
  rw [parseAlternatives]
  simp [here, isElse, last, readBlock, bind, Except.bind]

theorem ReadsAlternatives.branch (condition : Phrase 0 c cs) (body : Body ns bs)
    (readsBody : ReadsBody ns bs) (others : ReadsAlternatives branches otherwise us) :
    ReadsAlternatives ((c, ns) :: branches) otherwise
      (.keyword .elseWord :: .keyword .ifWord :: (cs ++ bs ++ us)) := by
  intro depth start rest deep ahead unfollowed
  simp only [List.length_append, List.length_cons] at deep
  rw [List.cons_append, List.cons_append, List.append_assoc] at ahead
  obtain ⟨depth, rfl⟩ : ∃ k, depth = k + 1 := ⟨depth - 1, by omega⟩
  have here := Cursor.skipSpanEnds_of_ahead ahead (by simp)
  have isElse := Cursor.atKeyword_of_ahead ahead
  have atIf := Cursor.ahead_advance_of_ahead ahead
  have isIf := Cursor.atKeyword_of_ahead atIf
  obtain ⟨found, block, atOthers, readBranch, rfl, rfl, ahead⟩ :=
    readsBranch condition body readsBody depth (by omega) (Cursor.ahead_advance_of_ahead atIf)
  obtain ⟨more, final, left, readOthers, rfl, rfl, behind⟩ := others depth (by omega) ahead unfollowed
  refine ⟨(found, block) :: more, final, left, ?_, by rw [Node.unplacedBranches], rfl, behind⟩
  rw [parseAlternatives]
  simp [here, isElse, isIf, readBranch, readOthers, bind, Except.bind]

/-- The head of a loop, whose names stand without parentheses. -/
theorem parseEachHead_of_ahead (first : String) (second : Option String) (entries : Phrase 0 e ts)
    (body : Body ns bs) (depth : Nat) {c : Cursor} {rest : List Token} (deep : 16 * ts.length ≤ depth)
    (ahead : c.ahead = .keyword .forWord :: .identifier first ::
      (secondName second ++ .keyword .inWord :: (ts ++ (bs ++ rest)))) :
    ∃ found left, parseEachHead depth c = .ok ((first, second, found), left) ∧ found.unplaced = e ∧
      left.ahead = bs ++ rest := by
  obtain ⟨us, brace, _⟩ := body.exists_brace
  have stops : Stops 0 (bs ++ rest) := by
    rw [brace]
    exact .cons (by decide)
  have atName := Cursor.ahead_advance_of_ahead ahead
  have peekName := Cursor.peek_of_ahead atName
  have bare : c.advance.atSymbol .openParen = false := Cursor.atSymbol_eq_false (by simp [peekName])
  have named : c.advance.atKeyword .letWord = false := Cursor.atKeyword_eq_false (by simp [peekName])
  have firstNamed := Cursor.identifier_of_ahead atName
  have behindName := Cursor.ahead_advance_of_ahead atName
  cases second with
  | none =>
      have single : c.advance.advance.atSymbol .comma = false :=
        Cursor.atSymbol_eq_false (by simp [Cursor.peek_of_ahead behindName])
      have isIn := Cursor.atKeyword_of_ahead behindName
      obtain ⟨found, left, read, rfl, behind⟩ :=
        entries.readsExpr depth deep (Cursor.ahead_advance_of_ahead behindName) stops
      refine ⟨found, left, ?_, rfl, behind⟩
      simp [parseEachHead, bare, Cursor.skip, named, firstNamed, single, isIn, read, bind, Except.bind,
        pure, Except.pure]
  | some second =>
      have paired := Cursor.atSymbol_of_ahead behindName
      have atSecond := Cursor.ahead_advance_of_ahead behindName
      have secondNamed := Cursor.identifier_of_ahead atSecond
      have behindSecond := Cursor.ahead_advance_of_ahead atSecond
      have isIn := Cursor.atKeyword_of_ahead behindSecond
      obtain ⟨found, left, read, rfl, behind⟩ :=
        entries.readsExpr depth deep (Cursor.ahead_advance_of_ahead behindSecond) stops
      refine ⟨found, left, ?_, rfl, behind⟩
      simp [parseEachHead, bare, Cursor.skip, named, firstNamed, paired, secondNamed, isIn, read, bind,
        Except.bind, pure, Except.pure]

theorem ReadsStatement.each (first : String) (second : Option String) (entries : Phrase 0 e ts)
    (body : Body ns bs) (readsBody : ReadsBody ns bs) :
    ReadsStatement (.each first second e ns)
      (.keyword .forWord :: .identifier first ::
        (secondName second ++ .keyword .inWord :: (ts ++ bs))) := by
  intro depth c rest deep ahead unfollowed
  simp only [List.length_append, List.length_cons] at deep
  simp only [List.append_assoc, List.cons_append] at ahead
  obtain ⟨depth, rfl⟩ : ∃ k, depth = k + 1 := ⟨depth - 1, by omega⟩
  have peek := Cursor.peek_of_ahead ahead
  obtain ⟨found, atBody, readHead, rfl, ahead⟩ :=
    parseEachHead_of_ahead first second entries body depth (by omega) ahead
  obtain ⟨block, left, readBlock, rfl, behind⟩ := readsBody depth (by omega) ahead
  refine ⟨.each first second found block, left, ?_, by rw [Node.unplaced], behind⟩
  rw [parseStatement]
  simp only [peek, readHead, readBlock, bind, Except.bind]

theorem ReadsBody.braces (block : ReadsBlock ns ts) :
    ReadsBody ns (.symbol .openBrace :: .spanEnd :: (ts ++ [.symbol .closeBrace])) := by
  intro depth c rest deep ahead
  simp only [List.length_append, List.length_cons, List.length_nil] at deep
  simp only [List.append_assoc, List.cons_append, List.nil_append] at ahead
  obtain ⟨depth, rfl⟩ : ∃ k, depth = k + 2 := ⟨depth - 2, by omega⟩
  have opens := Cursor.expect_of_ahead ahead
  have atEnd := Cursor.ahead_advance_of_ahead ahead
  obtain ⟨found, left, read, rfl, behind⟩ :=
    block depth (some c.position) (by omega) (Cursor.ahead_advance_of_ahead atEnd) .brace
  refine ⟨found, left, ?_, rfl, behind⟩
  rw [parseBody, opens]
  simp only [bind, Except.bind]
  rw [parseBlock, Cursor.peek_of_ahead atEnd]
  exact read

theorem ReadsBlock.none : ReadsBlock [] [] := by
  intro depth opening c rest behind deep ahead ends
  obtain ⟨depth, rfl⟩ : ∃ k, depth = k + 1 := ⟨depth - 1, by omega⟩
  cases ends with
  | brace =>
      refine ⟨[], c.advance, ?_, by rw [Node.unplacedAll], Cursor.ahead_advance_of_ahead ahead⟩
      rw [parseBlock, Cursor.peek_of_ahead ahead]
  | template =>
      refine ⟨[], c, ?_, by rw [Node.unplacedAll], ahead⟩
      rw [parseBlock, Cursor.peek_of_ahead ahead]

theorem ReadsBlock.text (content : String) (others : ReadsBlock ns ts) :
    ReadsBlock (.text content :: ns) (.text content :: ts) := by
  intro depth opening c rest behind deep ahead ends
  simp only [List.length_cons] at deep
  rw [List.cons_append] at ahead
  obtain ⟨depth, rfl⟩ : ∃ k, depth = k + 2 := ⟨depth - 2, by omega⟩
  have peek := Cursor.peek_of_ahead ahead
  obtain ⟨found, left, read, rfl, behind⟩ :=
    others (depth + 1) opening (by omega) (Cursor.ahead_advance_of_ahead ahead) ends
  refine ⟨.text content :: found, left, ?_, by rw [Node.unplacedAll, Node.unplaced], behind⟩
  unfold parseBlock
  simp only [peek, parseStatement, read, bind, Except.bind]

theorem ReadsBlock.statement (first : Statement n ts) (reads : ReadsStatement n ts) (block : Block ns us)
    (others : ReadsBlock ns us) : ReadsBlock (n :: ns) (ts ++ .spanEnd :: us) := by
  intro depth opening c rest behind deep ahead ends
  simp only [List.length_append, List.length_cons] at deep
  simp only [List.append_assoc, List.cons_append] at ahead
  obtain ⟨depth, rfl⟩ : ∃ k, depth = k + 2 := ⟨depth - 2, by omega⟩
  obtain ⟨n', atEnd, readFirst, rfl, aheadEnd⟩ :=
    reads (depth + 1) (by omega) ahead (block.unfollowed ends)
  obtain ⟨ns', left, readOthers, rfl, behind⟩ :=
    others depth opening (by omega) (Cursor.ahead_advance_of_ahead aheadEnd) ends
  obtain ⟨token, vs, rfl, opens⟩ := first.exists_opens
  have peek := Cursor.peek_of_ahead ahead
  refine ⟨n' :: ns', left, ?_, by rw [Node.unplacedAll], behind⟩
  have skipEnd : parseBlock (depth + 1) opening atEnd = .ok (ns', left) := by
    unfold parseBlock
    rw [Cursor.peek_of_ahead aheadEnd]
    exact readOthers
  unfold parseBlock
  split
  case h_5 => simp only [readFirst, skipEnd, bind, Except.bind]
  all_goals
    rename_i other
    rw [peek] at other
    rw [other] at opens
    cases opens

mutual

theorem Statement.parsed : ∀ {n ts}, Statement n ts → ReadsStatement n ts
  | _, _, .echo value => .echo value.readsExpr
  | _, _, .expression value => .expression value
  | _, _, .declare name value => .declare name value.readsExpr
  | _, _, .assign name value => .assign name value.readsExpr
  | _, _, .choose condition body others => .choose condition body body.parsed others.parsed
  | _, _, .each first second entries body => .each first second entries body body.parsed
  | _, _, .embed environment arguments => .embed environment (arguments.parsed closesItems_closeParen)

theorem Alternatives.parsed :
    ∀ {branches otherwise ts}, Alternatives branches otherwise ts →
      ReadsAlternatives branches otherwise ts
  | _, _, _, .none => .unbranched
  | _, _, _, .final body => .final body body.parsed
  | _, _, _, .branch condition body others => .branch condition body body.parsed others.parsed

theorem Body.parsed : ∀ {ns ts}, Body ns ts → ReadsBody ns ts
  | _, _, .braces block => .braces block.parsed

theorem Block.parsed : ∀ {ns ts}, Block ns ts → ReadsBlock ns ts
  | _, _, .none => .none
  | _, _, .text content others => .text content others.parsed
  | _, _, .statement first others => .statement first first.parsed others others.parsed

end

/-- A template whose tokens are a block is parsed as that block, up to positions. -/
theorem parse_of_block {source : List Char} {tokens : List Placed} (scanned : scan source = .ok tokens)
    (block : Block ns ts) (spelled : tokens.map Placed.token = ts ++ [.finish]) :
    ∃ found, parse source = .ok found ∧ Node.unplacedAll found = ns := by
  have size := congrArg List.length spelled
  simp only [List.length_map, List.length_append, List.length_cons, List.length_nil] at size
  obtain ⟨found, left, read, same, _⟩ :=
    block.parsed (enoughDepth tokens) none (c := Cursor.start source tokens) (by rw [enoughDepth]; omega)
      spelled .template
  refine ⟨found, ?_, same⟩
  simp only [parse, scanned, read, bind, Except.bind]

end StaticSite.Template
