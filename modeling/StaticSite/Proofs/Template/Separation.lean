import Mathlib
import StaticSite.Proofs.Template.Extent
import StaticSite.Proofs.Template.Spans

/-!
What ends a statement. Nodes are laid out over the tokens of a source, block by block, and behind a
statement the source has a semicolon or a line feed before the next one of its span. A line feed counts
from the beginning of the last token of the statement on, so that one within a string will do.
-/

namespace StaticSite.Template

open Text

/-- Whether a node is a declaration, an assignment, an inclusion or an expression. -/
def Node.isSimple : Node → Bool
  | .declare .. | .assign .. | .embed .. | .expression _ => true
  | _ => false

def Placed.isSemicolon (placed : Placed) : Bool :=
  match placed.token with
  | .symbol .semicolon => true
  | _ => false

theorem Placed.isSemicolon_iff {placed : Placed} :
    placed.isSemicolon = true ↔ placed.token = .symbol .semicolon := by
  unfold isSemicolon
  split <;> simp_all

/-- The first token that is no semicolon stands behind semicolons. -/
theorem exists_semicolons_append {us : List Placed} {next : Placed}
    (found : next ∈ (us.dropWhile Placed.isSemicolon).head?) :
    ∃ ends more, us = ends ++ next :: more ∧ (∀ placed ∈ ends, placed.token = .symbol .semicolon) ∧
      next.token ≠ .symbol .semicolon := by
  obtain ⟨more, split⟩ := List.head?_eq_some_iff.mp found
  have other : next.isSemicolon = false := by
    have first := List.head?_dropWhile_not Placed.isSemicolon us
    rwa [split] at first
  refine ⟨us.takeWhile Placed.isSemicolon, more, ?_, fun placed member => ?_, fun isSemicolon => ?_⟩
  · rw [← split, List.takeWhile_append_dropWhile]
  · exact Placed.isSemicolon_iff.mp (List.mem_takeWhile_imp member)
  · rw [Placed.isSemicolon_iff.mpr isSemicolon] at other
    cases other

mutual

/-- A node and its tokens. `border` holds of each node in a block, its tokens and those behind them in the
block. -/
inductive NodeAt (border : Node → List Placed → List Placed → Prop) : Node → List Placed → Prop
  | flat (sentence : Sentence n (ts.map Placed.token)) (flat : n.hasBlock = false) : NodeAt border n ts
  | choose (isIf : Placed.token lead = .keyword .ifWord) (first : BranchAt border condition body bs)
      (others : BranchesAt border branches otherwise us) :
      NodeAt border (.choose ((condition, body) :: branches) otherwise) (lead :: (bs ++ us))
  | each (parenthesized declared : Bool) (entries : Phrase 0 (Expr.unplaced e) es)
      (head : List.map Placed.token hs =
        .keyword .forWord :: loopHead parenthesized declared first second es)
      (body : BracedAt border ns bs) : NodeAt border (.each first second e ns) (hs ++ bs)

/-- A condition and the block that it guards. -/
inductive BranchAt (border : Node → List Placed → List Placed → Prop) :
    Expr → List Node → List Placed → Prop
  | guarded (condition : Phrase 0 (Expr.unplaced c) (List.map Placed.token cs))
      (body : BracedAt border ns bs) : BranchAt border c ns (cs ++ bs)

/-- The branches behind the first one. -/
inductive BranchesAt (border : Node → List Placed → List Placed → Prop) :
    List (Expr × List Node) → Option (List Node) → List Placed → Prop
  | none : BranchesAt border [] none []
  | final (ends : Nat) (lead : List.map Placed.token hs = List.replicate ends .spanEnd ++ [.keyword .elseWord])
      (body : BracedAt border ns bs) : BranchesAt border [] (some ns) (hs ++ bs)
  | branch (ends : Nat)
      (lead : List.map Placed.token hs = List.replicate ends .spanEnd ++ [.keyword .elseWord, .keyword .ifWord])
      (first : BranchAt border condition body bs) (others : BranchesAt border branches otherwise us) :
      BranchesAt border ((condition, body) :: branches) otherwise (hs ++ (bs ++ us))

/-- A block with its braces. -/
inductive BracedAt (border : Node → List Placed → List Placed → Prop) : List Node → List Placed → Prop
  | braces (opens : Placed.token opening = .symbol .openBrace) (block : BlockAt border ns ts)
      (closes : Placed.token closing = .symbol .closeBrace) : BracedAt border ns (opening :: (ts ++ [closing]))

/-- The nodes of a block. -/
inductive BlockAt (border : Node → List Placed → List Placed → Prop) : List Node → List Placed → Prop
  | none : BlockAt border [] []
  | semicolon (isSemicolon : Placed.token placed = .symbol .semicolon) (others : BlockAt border ns us) :
      BlockAt border ns (placed :: us)
  | spanEnd (isEnd : Placed.token placed = .spanEnd) (others : BlockAt border ns us) :
      BlockAt border ns (placed :: us)
  | cons (first : NodeAt border n ts) (others : BlockAt border ns us) (apart : border n ts us) :
      BlockAt border (n :: ns) (ts ++ us)

end

/-- What stands between a statement and the next one of its block, if that is in the same span: a semicolon
or a line feed, or else the last token of the statement is a string that has a line feed in it. -/
def Separated (source : List Char) (n : Node) (ts us : List Placed) : Prop :=
  n.isSimple = true → ∃ last ∈ ts.getLast?,
    ∀ next ∈ (us.dropWhile Placed.isSemicolon).head?, next.token.isCode = true →
      ∃ text gap, Between source last next text gap ∧
        (';' ∈ gap ∨ '\n' ∈ gap ∨ (∃ value, last.token = .string value) ∧ '\n' ∈ text)

/-- A cursor that stands at some of the last tokens of a source. -/
structure Cursor.Within (source : List Char) (c : Cursor) : Prop where
  scanned : ∃ front, scan source = .ok (front ++ c.tokens)
  lineFeeds : c.lineFeeds = lineFeedsFrom 0 source

theorem Cursor.Within.passes {source : List Char} {c left : Cursor} {ts : List Placed}
    (within : c.Within source) (passes : c.Passes ts left) : left.Within source := by
  obtain ⟨front, scanned⟩ := within.scanned
  refine ⟨⟨front ++ ts, ?_⟩, passes.lineFeeds.trans within.lineFeeds⟩
  rw [scanned, passes.tokens, List.append_assoc]

theorem Sentence.isCode {n : Node} {ts : List Token} (sentence : Sentence n ts) (simple : n.isSimple = true) :
    ∀ token ∈ ts, token.isCode = true := by
  cases sentence with
  | expression value => exact value.isCode
  | declare name value =>
      simp only [List.forall_mem_cons]
      exact ⟨rfl, rfl, rfl, value.isCode⟩
  | assign position name target value =>
      simp only [List.forall_mem_append, List.forall_mem_cons]
      exact ⟨target.isCode, rfl, value.isCode⟩
  | embed position environment arguments =>
      simp only [List.forall_mem_cons]
      exact ⟨rfl, rfl, arguments.isCode⟩
  | _ => cases simple

theorem Sentence.ne_nil {n : Node} {ts : List Token} (sentence : Sentence n ts) : ts ≠ [] := by
  cases sentence with
  | expression value =>
      obtain ⟨token, us, rfl, -⟩ := value.exists_begins
      exact List.cons_ne_nil token us
  | _ => simp

/-- Where a statement may end without a semicolon or the end of what surrounds it, a line feed stands. -/
theorem Cursor.exists_lineFeed_of_endStatement {c left : Cursor} {next : Placed} {rest : List Placed}
    (ended : c.endStatement = .ok left) (tokens : c.tokens = next :: rest) (inCode : next.token.isCode = true)
    (open_ : next.token ≠ .symbol .closeBrace) (goesOn : next.token ≠ .symbol .semicolon) :
    ∃ feed ∈ c.lineFeeds, c.previous ≤ feed ∧ feed < next.position := by
  have peek : c.peek = next.token := by
    unfold Cursor.peek
    rw [tokens]
  have position : c.position = next.position := by
    unfold Cursor.position
    rw [tokens]
  unfold endStatement at ended
  rw [peek] at ended
  split at ended
  · exact absurd ‹_› goesOn
  · exact absurd ‹_› open_
  · simp [Token.isCode, *] at inCode
  · simp [Token.isCode, *] at inCode
  · split at ended
    · simpa [onNewLine, position] using ‹c.onNewLine = true›
    · cases ended

/-- What ends a statement separates it from the next one of its span. -/
theorem separated_of_endStatement {source : List Char} {c behind left : Cursor} {n : Node}
    {ts us rest : List Placed} (within : c.Within source) (passes : c.Passes ts behind)
    (sentence : Sentence n (ts.map Placed.token)) (ended : behind.endStatement = .ok left)
    (tokens : behind.tokens = us ++ rest) (open_ : ∀ placed ∈ us.head?, placed.token ≠ .symbol .closeBrace) :
    Separated source n ts us := by
  intro simple
  have nonempty : ts ≠ [] := fun absent => sentence.ne_nil (by rw [absent, List.map_nil])
  obtain ⟨init, last, rfl⟩ : ∃ init last, ts = init ++ [last] :=
    ⟨_, _, (List.dropLast_append_getLast nonempty).symm⟩
  refine ⟨last, by simp, fun next found inCode => ?_⟩
  obtain ⟨ends, more, rfl, semicolons, goesOn⟩ := exists_semicolons_append found
  obtain ⟨front, scanned⟩ := within.scanned
  obtain ⟨text, gap, between, semicolon⟩ :
      ∃ text gap, Between source last next text gap ∧
        ∀ placed ∈ ends, placed.token = .symbol .semicolon → ';' ∈ gap := by
    refine exists_between (front ++ init) (more ++ rest) ?_ ?_
    · rw [scanned, passes.tokens, tokens]
      simp
    · simp only [List.forall_mem_cons, List.forall_mem_append]
      refine ⟨?_, fun placed member => ?_, inCode, by simp⟩
      · exact sentence.isCode simple last.token (List.mem_map_of_mem (by simp))
      · rw [semicolons placed member]
        rfl
  refine ⟨text, gap, between, ?_⟩
  cases ends with
  | cons placed ends =>
      -- the first of the semicolons ended the statement, and any of them is in the source
      exact .inl (semicolon placed List.mem_cons_self (semicolons placed List.mem_cons_self))
  | nil =>
      obtain ⟨feed, member, start, stop⟩ :=
        Cursor.exists_lineFeed_of_endStatement ended tokens inCode (open_ next rfl) goesOn
      rw [(within.passes passes).lineFeeds] at member
      rw [passes.previous_concat] at start
      obtain inText | inGap := between.lineFeed member start stop
      · obtain ⟨_, _, _, _, _, spells⟩ := between.spelled
        exact .inr (.inr ⟨spells.exists_string inText, inText⟩)
      · exact .inr (.inl inGap)

theorem separated_of_not_isSimple {source : List Char} {n : Node} {ts us : List Placed}
    (other : n.isSimple = false) : Separated source n ts us := by
  intro simple
  rw [other] at simple
  cases simple

/-! ## Nodes of a source -/

/-- A node at the cursor, with at most a semicolon behind it, and its border to whatever its block goes on
with. -/
def LaysNode (source : List Char) (c left : Cursor) (n : Node) : Prop :=
  ∃ ts ends behind, c.Passes ts behind ∧ NodeAt (Separated source) n ts ∧ behind.Passes ends left ∧
    (∀ placed ∈ ends, placed.token = .symbol .semicolon) ∧
      ∀ us rest, behind.tokens = us ++ rest → (∀ placed ∈ us.head?, placed.token ≠ .symbol .closeBrace) →
        Separated source n ts us

/-- Some nodes at the cursor up to the end of their block. -/
def LaysBlock (source : List Char) (opening : Option Nat) (c left : Cursor) (ns : List Node) : Prop :=
  ∃ us ends, c.Passes (us ++ ends) left ∧ ends.map Placed.token = blockEnd opening ∧
    BlockAt (Separated source) ns us ∧ ∀ placed ∈ us.head?, placed.token ≠ .symbol .closeBrace

/-- What each function of the statement parser lays out when its calls nest no deeper than a bound. -/
structure Lays (source : List Char) (depth : Nat) : Prop where
  block : ∀ {opening c left ns}, c.Within source → parseBlock depth opening c = .ok (ns, left) →
    LaysBlock source opening c left ns
  statement : ∀ {c left n}, c.Within source → parseStatement depth c = .ok (n, left) →
    LaysNode source c left n
  body : ∀ {c left ns}, c.Within source → parseBody depth c = .ok (ns, left) →
    ∃ bs, c.Passes bs left ∧ BracedAt (Separated source) ns bs
  branch : ∀ {c left condition ns}, c.Within source → parseBranch depth c = .ok ((condition, ns), left) →
    ∃ bs, c.Passes bs left ∧ BranchAt (Separated source) condition ns bs
  alternatives : ∀ {c left branches otherwise}, c.Within source →
    parseAlternatives depth c = .ok ((branches, otherwise), left) →
      ∃ us, c.Passes us left ∧ BranchesAt (Separated source) branches otherwise us

section Step

variable {source : List Char} {depth : Nat} {c left : Cursor}

theorem Cursor.exists_passes_of_endStatement (ended : c.endStatement = .ok left) :
    ∃ ends, c.Passes ends left ∧ ∀ placed ∈ ends, placed.token = .symbol .semicolon := by
  unfold endStatement at ended
  split at ended
  · cases ended
    obtain ⟨placed, isSemicolon, passes⟩ := exists_passes_of_peek ‹_› (by simp)
    exact ⟨[placed], passes, by simpa using isSemicolon⟩
  · cases ended
    exact ⟨[], .refl c, by simp⟩
  · cases ended
    exact ⟨[], .refl c, by simp⟩
  · cases ended
    exact ⟨[], .refl c, by simp⟩
  · split at ended <;> cases ended
    exact ⟨[], .refl c, by simp⟩

theorem TakesStatement.laysNode {n : Node} (statement : TakesStatement c left n) (within : c.Within source) :
    LaysNode source c left n := by
  obtain ⟨flat, behind, takes, reaches, ended⟩ := statement
  obtain ⟨ts, passes, sentence, -⟩ := takes.exists_passes reaches
  obtain ⟨ends, last, semicolons⟩ := Cursor.exists_passes_of_endStatement ended
  refine ⟨ts, ends, behind, passes, .flat sentence flat, last, semicolons, fun us rest tokens open_ => ?_⟩
  exact separated_of_endStatement within passes sentence ended tokens open_

/-- A node that goes up to the cursor behind it, and is no statement by itself. -/
theorem laysNode_of_passes {n : Node} {ts : List Placed} (passes : c.Passes ts left)
    (node : NodeAt (Separated source) n ts) (other : n.isSimple = false) : LaysNode source c left n :=
  ⟨ts, [], left, passes, node, .refl left, by simp, fun _ _ _ _ => separated_of_not_isSimple other⟩

theorem Lays.body_step (below : Lays source depth) {ns : List Node} (within : c.Within source)
    (parsed : parseBody (depth + 1) c = .ok (ns, left)) :
    ∃ bs, c.Passes bs left ∧ BracedAt (Separated source) ns bs := by
  rw [parseBody] at parsed
  obtain ⟨inner, brace, parsed⟩ := bind_eq_ok.mp parsed
  obtain ⟨opening, opens, first⟩ := Cursor.exists_passes_of_expect brace
  obtain ⟨us, ends, second, closes, block, -⟩ := below.block (within.passes first) parsed
  obtain ⟨closing, rfl, isBrace⟩ := List.map_eq_singleton_iff.mp closes
  exact ⟨_, first.trans second, .braces opens block isBrace⟩

theorem Lays.branch_step (below : Lays source depth) {condition : Expr} {ns : List Node}
    (within : c.Within source) (parsed : parseBranch (depth + 1) c = .ok ((condition, ns), left)) :
    ∃ bs, c.Passes bs left ∧ BranchAt (Separated source) condition ns bs := by
  rw [parseBranch] at parsed
  obtain ⟨⟨found, atBody⟩, inner, parsed⟩ := bind_eq_ok.mp parsed
  obtain ⟨⟨body, behind⟩, block, parsed⟩ := bind_eq_ok.mp parsed
  cases parsed
  obtain ⟨cs, first, phrase⟩ :=
    ((recognizes depth).expr inner).1.exists_passes ((advances depth).expr c _ inner)
  obtain ⟨bs, second, braced⟩ := below.body (within.passes first) block
  exact ⟨cs ++ bs, first.trans second, .guarded phrase braced⟩

/-- The ends of spans before an `else`, with the `else`. -/
theorem Cursor.exists_passes_else (atElse : c.skipSpanEnds.atKeyword .elseWord = true) :
    ∃ hs ends, c.Passes hs c.skipSpanEnds.advance ∧
      hs.map Placed.token = List.replicate ends .spanEnd ++ [.keyword .elseWord] := by
  obtain ⟨ends, skipped⟩ := c.exists_ahead_skipSpanEnds
  obtain ⟨placed, isElse, passes⟩ := exists_passes_of_peek (peek_of_atKeyword atElse) (by simp)
  have split : c.tokens = c.tokens.takeWhile endsSpan ++ c.skipSpanEnds.tokens :=
    List.takeWhile_append_dropWhile.symm
  refine ⟨c.tokens.takeWhile endsSpan ++ [placed], ends, ⟨?_, ?_, passes.lineFeeds⟩, ?_⟩
  · rw [List.append_assoc, ← passes.tokens]
    exact split
  · rw [passes.previous, List.map_append]
    simp
  · have spanEnds : (c.tokens.takeWhile endsSpan).map Placed.token = List.replicate ends .spanEnd := by
      apply List.append_cancel_right
      rw [← skipped]
      unfold Cursor.ahead
      rw [← List.map_append, ← split]
    rw [List.map_append, spanEnds, List.map_singleton, isElse]

theorem Lays.alternatives_step (below : Lays source depth) {branches : List (Expr × List Node)}
    {otherwise : Option (List Node)} (within : c.Within source)
    (parsed : parseAlternatives (depth + 1) c = .ok ((branches, otherwise), left)) :
    ∃ us, c.Passes us left ∧ BranchesAt (Separated source) branches otherwise us := by
  rw [parseAlternatives] at parsed
  dsimp only at parsed
  split at parsed
  · cases parsed
    exact ⟨[], .refl c, .none⟩
  · rename_i atElse
    obtain ⟨hs, ends, toElse, lead⟩ := Cursor.exists_passes_else (by simpa using atElse)
    split at parsed
    · rename_i atIf
      obtain ⟨⟨⟨condition, body⟩, behind⟩, first, parsed⟩ := bind_eq_ok.mp parsed
      obtain ⟨⟨⟨more, final⟩, last⟩, others, parsed⟩ := bind_eq_ok.mp parsed
      cases parsed
      obtain ⟨placed, isIf, toIf⟩ :=
        Cursor.exists_passes_of_peek (Cursor.peek_of_atKeyword atIf) (by simp)
      have toBranch := toElse.trans toIf
      obtain ⟨bs, toBody, branch⟩ := below.branch (within.passes toBranch) first
      have toOthers := toBranch.trans toBody
      obtain ⟨us, toEnd, rest⟩ := below.alternatives (within.passes toOthers) others
      refine ⟨_, toOthers.trans toEnd, ?_⟩
      rw [List.append_assoc]
      exact .branch ends (by simp [lead, isIf]) branch rest
    · obtain ⟨⟨body, behind⟩, inner, parsed⟩ := bind_eq_ok.mp parsed
      cases parsed
      obtain ⟨bs, toEnd, braced⟩ := below.body (within.passes toElse) inner
      exact ⟨hs ++ bs, toElse.trans toEnd, .final ends lead braced⟩

theorem Lays.statement_step (below : Lays source depth) {n : Node} (within : c.Within source)
    (parsed : parseStatement (depth + 1) c = .ok (n, left)) : LaysNode source c left n := by
  rw [parseStatement] at parsed
  split at parsed
  · rename_i content isText
    cases parsed
    obtain ⟨placed, kind, passes⟩ := Cursor.exists_passes_of_peek isText (by simp)
    exact laysNode_of_passes passes (.flat (by simpa [kind] using .text content) rfl) rfl
  · exact (takesStatement_echo ‹_› parsed).laysNode within
  · exact (takesStatement_declare ‹_› parsed).laysNode within
  · rename_i isIf
    obtain ⟨⟨⟨condition, body⟩, behind⟩, first, parsed⟩ := bind_eq_ok.mp parsed
    obtain ⟨⟨⟨branches, otherwise⟩, last⟩, others, parsed⟩ := bind_eq_ok.mp parsed
    cases parsed
    obtain ⟨lead, kind, toBranch⟩ := Cursor.exists_passes_of_peek isIf (by simp)
    obtain ⟨bs, toBody, branch⟩ := below.branch (within.passes toBranch) first
    have toOthers := toBranch.trans toBody
    obtain ⟨us, toEnd, more⟩ := below.alternatives (within.passes toOthers) others
    exact laysNode_of_passes (toOthers.trans toEnd) (.choose kind branch more) rfl
  · rename_i isFor
    obtain ⟨⟨⟨first, second, entries⟩, atBody⟩, head, parsed⟩ := bind_eq_ok.mp parsed
    obtain ⟨⟨body, behind⟩, inner, parsed⟩ := bind_eq_ok.mp parsed
    cases parsed
    obtain ⟨parenthesized, declared, es, phrase, taken⟩ := taken_of_eachHead isFor head
    have takes : Takes c atBody
        (· = .keyword .forWord :: loopHead parenthesized declared first second es) := ⟨_, taken, rfl⟩
    obtain ⟨hs, toBody, lead⟩ := takes.exists_passes (onward_eachHead depth c _ head)
    obtain ⟨bs, toEnd, braced⟩ := below.body (within.passes toBody) inner
    exact laysNode_of_passes (toBody.trans toEnd)
      (.each parenthesized declared phrase lead braced) rfl
  · rename_i name isName
    split at parsed
    · rename_i embeds
      simp only [Bool.and_eq_true, beq_iff_eq] at embeds
      exact (takesStatement_embed isName embeds.1 embeds.2 parsed).laysNode within
    · exact (takesStatement_simple parsed).laysNode within
  · exact (takesStatement_simple parsed).laysNode within

theorem BlockAt.semicolons {border : Node → List Placed → List Placed → Prop} {ns : List Node}
    {ends us : List Placed} (block : BlockAt border ns us)
    (areSemicolons : ∀ placed ∈ ends, placed.token = .symbol .semicolon) : BlockAt border ns (ends ++ us) := by
  induction ends with
  | nil => exact block
  | cons placed ends ih =>
      obtain ⟨first, others⟩ := List.forall_mem_cons.mp areSemicolons
      exact .semicolon first (ih others)

theorem Lays.block_step (below : Lays source depth) {opening : Option Nat} {ns : List Node}
    (within : c.Within source) (parsed : parseBlock (depth + 1) opening c = .ok (ns, left)) :
    LaysBlock source opening c left ns := by
  rw [parseBlock.eq_def] at parsed
  dsimp only at parsed
  split at parsed
  · rename_i semicolon
    obtain ⟨placed, kind, first⟩ := Cursor.exists_passes_of_peek semicolon (by simp)
    obtain ⟨us, ends, second, closes, block, -⟩ := below.block (within.passes first) parsed
    exact ⟨placed :: us, ends, first.trans second, closes, .semicolon kind block, by simp [kind]⟩
  · rename_i spanEnd
    obtain ⟨placed, kind, first⟩ := Cursor.exists_passes_of_peek spanEnd (by simp)
    obtain ⟨us, ends, second, closes, block, -⟩ := below.block (within.passes first) parsed
    exact ⟨placed :: us, ends, first.trans second, closes, .spanEnd kind block, by simp [kind]⟩
  · split at parsed <;> cases parsed
    exact ⟨[], [], .refl c, rfl, .none, by simp⟩
  · rename_i brace
    split at parsed <;> cases parsed
    obtain ⟨placed, kind, passes⟩ := Cursor.exists_passes_of_peek brace (by simp)
    exact ⟨[], [placed], passes, by simp [blockEnd, kind], .none, by simp⟩
  · rename_i goesOn
    obtain ⟨⟨node, behind⟩, inner, parsed⟩ := bind_eq_ok.mp parsed
    obtain ⟨⟨nodes, last⟩, others, parsed⟩ := bind_eq_ok.mp parsed
    cases parsed
    obtain ⟨ts, semicolons, middle, first, laid, second, areSemicolons, border⟩ :=
      below.statement within inner
    have both := first.trans second
    obtain ⟨us, ends, third, closes, block, open_⟩ := below.block (within.passes both) others
    have tokens : middle.tokens = semicolons ++ us ++ (ends ++ last.tokens) := by
      rw [second.tokens, third.tokens, List.append_assoc, List.append_assoc]
    have opens : ∀ placed ∈ (semicolons ++ us).head?, placed.token ≠ .symbol .closeBrace := by
      cases semicolons with
      | nil => exact open_
      | cons placed semicolons => simp [areSemicolons placed]
    refine ⟨ts ++ (semicolons ++ us), ends, ?_, closes,
      .cons laid (block.semicolons areSemicolons) (border _ _ tokens opens), ?_⟩
    · simpa using both.trans third
    · cases ts with
      | nil => exact opens
      | cons placed ts =>
          intro placed' head isBrace
          cases head
          exact goesOn ((Cursor.peek_of_ahead first.ahead).trans isBrace)

end Step

/-- Whatever bound the calls of the parser have, it lays out the nodes of a source with their borders. -/
theorem lays (source : List Char) (depth : Nat) : Lays source depth := by
  -- on the depth, as for the grammar of nodes; every branch calls the others with one less
  induction depth with
  | zero =>
      constructor <;> intros <;> rename_i parsed
      · rw [parseBlock] at parsed; cases parsed
      · rw [parseStatement] at parsed; cases parsed
      · rw [parseBody] at parsed; cases parsed
      · rw [parseBranch] at parsed; cases parsed
      · rw [parseAlternatives] at parsed; cases parsed
  | succ depth below =>
      exact ⟨below.block_step, below.statement_step, below.body_step, below.branch_step,
        below.alternatives_step⟩

/-- The statements of a source that is parsed are separated. Its tokens up to its end are laid out as its
nodes, block by block; and between a statement and the next one of its block and span the source has a
semicolon or a line feed, unless the last token of the statement is a string with a line feed in it. -/
theorem parse_separates {source : List Char} {nodes : List Node} (parsed : parse source = .ok nodes) :
    ∃ block rest, scan source = .ok (block ++ rest) ∧ (rest.map Placed.token).headD .finish = .finish ∧
      BlockAt (Separated source) nodes block := by
  obtain ⟨tokens, scanned, parsed⟩ := bind_eq_ok.mp parsed
  obtain ⟨⟨found, left⟩, inner, parsed⟩ := bind_eq_ok.mp parsed
  cases parsed
  have start : (Cursor.start source tokens).Within source := ⟨⟨[], scanned⟩, rfl⟩
  obtain ⟨us, ends, passes, closes, block, -⟩ := (lays source _).block start inner
  obtain rfl : ends = [] := List.map_eq_nil_iff.mp closes
  have finished := ((accepts _).block inner).2 rfl
  rw [Cursor.peek_eq_headD] at finished
  rw [List.append_nil] at passes
  exact ⟨us, left.tokens, by rw [scanned]; exact congrArg Except.ok passes.tokens, finished, block⟩

/-- Statements with a line feed, a semicolon and a comment between them. -/
def separatedSource : List Char :=
  "<? let a = 'x'\na = [a, 'y'] /* z */ ; if (a) \x7b include('b') // c\n f(a) \x7d ?>".toList

theorem parse_separates_sample :
    ∃ nodes, parse separatedSource = .ok nodes ∧ nodes.map Node.isSimple = [true, true, false] ∧
      ∃ block rest, scan separatedSource = .ok (block ++ rest) ∧
        (rest.map Placed.token).headD .finish = .finish ∧
          BlockAt (Separated separatedSource) nodes block := by
  have kinds : (parse separatedSource).toOption.map (fun nodes => nodes.map Node.isSimple) =
      some [true, true, false] := by
    decide +kernel
  cases parsed : parse separatedSource with
  | error error => simp [parsed, Except.toOption] at kinds
  | ok nodes =>
      rw [parsed] at kinds
      exact ⟨nodes, rfl, Option.some.inj kinds, parse_separates parsed⟩

/-- Two declarations on one line but for the line feed in a string of the first one. -/
def brokenString : List Char := "<? let a = 'x\\\ny' let b = a ?>".toList

/-- A line feed within a string is enough where the string ends a statement. -/
theorem string_separates :
    ∃ front last next back text gap,
      parse brokenString =
        .ok [.declare "a" (.literal 11 (.string "xy")), .declare "b" (.variable 26 "a")] ∧
      scan brokenString = .ok (front ++ last :: next :: back) ∧
      front.map Placed.token = [.keyword .letWord, .identifier "a", .symbol .assign] ∧
      last.token = .string "xy" ∧ next.token = .keyword .letWord ∧
      Between brokenString last next text gap ∧ ';' ∉ gap ∧ '\n' ∉ gap := by
  refine ⟨[⟨.keyword .letWord, 3⟩, ⟨.identifier "a", 7⟩, ⟨.symbol .assign, 9⟩], ⟨.string "xy", 11⟩,
    ⟨.keyword .letWord, 18⟩, [⟨.identifier "b", 22⟩, ⟨.symbol .assign, 24⟩, ⟨.identifier "a", 26⟩,
      ⟨.spanEnd, 28⟩, ⟨.finish, 30⟩], "'x\\\ny'".toList, [' '], ?_, ?_, rfl, rfl, rfl, ⟨?_, ?_⟩, ?_, ?_⟩
  · cbv
  · cbv
  · refine ⟨2, " let a = ".toList, "let b = a ".toList, ?_, rfl, '\'', "x\\\ny'".toList, rfl, rfl⟩
    decide +kernel
  · exact ⟨"<? let a = ".toList, "let b = a ?>".toList, rfl, rfl, rfl⟩
  · simp
  · simp

end StaticSite.Template
