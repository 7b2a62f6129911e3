import StaticSite.Proofs.Template.Cut
import StaticSite.Proofs.Template.Printing
import StaticSite.Proofs.Template.Statement

/-!
Templates as text, and that compiling such a text gives the template back up to positions. Every node is
printed in spans of its own; the spans of a block's statement stand around the spans of the block.
-/

namespace StaticSite.Template

open Text

/-- A part of a printed template: text, or a span with all that stands between its `<?` and its `?>`. -/
inductive Segment
  | text (content : List Char)
  | span (inside : List Char)

def Segment.source : Segment → List Char
  | .text content => content
  | .span inside => '<' :: '?' :: (inside ++ ['?', '>'])

/-- The text of segments. -/
def sourceOf (segments : List Segment) : List Char := segments.flatMap Segment.source

/-- A span of code. -/
def Segment.code (code : List Char) : Segment := .span (' ' :: (code ++ [' ']))

/-- A span that writes the value of its code. -/
def Segment.echo (code : List Char) : Segment := .span ('=' :: ' ' :: (code ++ [' ']))

/-- The text of the second name of a loop, if it has one. -/
def printSecond : Option String → List Char
  | none => []
  | some name => ',' :: ' ' :: name.toList

/-- The head of a loop before its brace. -/
def eachHead (first : String) (second : Option String) (entries : List Char) : List Char :=
  "for ".toList ++ (first.toList ++ (printSecond second ++ (" in ".toList ++ entries)))

mutual

def Node.segments : Node → List Segment
  | .text content => [.text content.toList]
  | .echo value => [.echo (value.print 0)]
  | .expression value => [.code (value.print 0)]
  | .declare name value =>
      [.code ("let ".toList ++ (name.toList ++ ' ' :: '=' :: ' ' :: value.print 0))]
  | .assign _ name value => [.code (name.toList ++ ' ' :: '=' :: ' ' :: value.print 0)]
  | .choose branches otherwise =>
      Node.branchSegments "if ".toList (Node.otherwiseSegments otherwise) branches
  | .each first second entries body =>
      .code (eachHead first second (entries.print 0) ++ [' ', '\x7b']) ::
        (Node.segmentsAll body ++ [.code ['\x7d']])
  | .embed _ path environment =>
      [.code ("include".toList ++ '(' :: (Expr.printItems (path :: environment.toList) ++ [')']))]

def Node.segmentsAll : List Node → List Segment
  | [] => []
  | node :: rest => node.segments ++ Node.segmentsAll rest

/-- The branches of a choice, the first of which `lead` opens, with the segments behind them. -/
def Node.branchSegments (lead : List Char) (closing : List Segment) :
    List (Expr × List Node) → List Segment
  | [] => closing
  | (condition, body) :: rest =>
      .code (lead ++ (condition.print 0 ++ [' ', '\x7b'])) ::
        (Node.segmentsAll body ++ Node.branchSegments "\x7d else if ".toList closing rest)

/-- The end of a choice, with the block for the case that no branch is taken. -/
def Node.otherwiseSegments : Option (List Node) → List Segment
  | none => [.code ['\x7d']]
  | some body => .code "\x7d else \x7b".toList :: (Node.segmentsAll body ++ [.code ['\x7d']])

end

/-- The text of a template. -/
def printTemplate (program : List Node) : List Char := sourceOf (Node.segmentsAll program)

def Node.isText : Node → Bool
  | .text _ => true
  | _ => false

mutual

/-- Whether a node can be written in a template. A choice has a branch, and text begins no span. -/
def Node.printable : Node → Bool
  | .text content => !content.toList.isEmpty && decide (¬ ['<', '?'] <:+: content.toList)
  | .echo value => value.printable
  | .expression value => value.printable
  | .declare name value => isName name && value.printable
  | .assign _ name value => isName name && value.printable
  | .choose branches otherwise =>
      !branches.isEmpty && Node.printableBranches branches && Node.printableOtherwise otherwise
  | .each first second entries body =>
      isName first && second.all isName && entries.printable && Node.printableAll body
  | .embed _ path environment => path.printable && environment.all Expr.printable

/-- Whether nodes can be written one after the other: text never follows text. -/
def Node.printableAll : List Node → Bool
  | [] => true
  | node :: rest =>
      node.printable && !(node.isText && rest.head?.any Node.isText) && Node.printableAll rest

def Node.printableBranches : List (Expr × List Node) → Bool
  | [] => true
  | (condition, body) :: rest =>
      condition.printable && Node.printableAll body && Node.printableBranches rest

def Node.printableOtherwise : Option (List Node) → Bool
  | none => true
  | some body => Node.printableAll body

end

/-- Whether segments begin with text. -/
def StartsText (segments : List Segment) : Prop := ∃ content rest, segments = .text content :: rest

/-- Segments that stand for tokens: text does not follow text, and code is cut into its tokens. -/
inductive Spelled : List Segment → List Token → Prop
  | nil : Spelled [] []
  | text (filled : content ≠ []) (free : ¬ ['<', '?'] <:+: content) (apart : ¬ StartsText rest)
      (others : Spelled rest ts) :
      Spelled (.text content :: rest) (.text (String.ofList content) :: ts)
  | code (quiet : Quiet code) (lexes : Lexes code us [' ']) (others : Spelled rest ts) :
      Spelled (.code code :: rest) (us ++ .spanEnd :: ts)
  | echo (quiet : Quiet code) (lexes : Lexes code us [' ']) (others : Spelled rest ts) :
      Spelled (.echo code :: rest) (.echo :: (us ++ .spanEnd :: ts))

/-- The cut of segments behind some text. -/
def cutFrom (text : List Char) : List Segment → Cut
  | [] => .plain text
  | .text content :: rest => cutFrom (text ++ content) rest
  | .span inside :: rest => .marked text inside (cutFrom [] rest)

theorem source_cutFrom (text : List Char) (segments : List Segment) :
    (cutFrom text segments).source = text ++ sourceOf segments := by
  induction segments generalizing text with
  | nil => simp [cutFrom, Cut.source, sourceOf]
  | cons segment rest ih =>
      cases segment with
      | text content => simp [cutFrom, ih, sourceOf, Segment.source]
      | span inside => simp [cutFrom, Cut.source, ih, sourceOf, Segment.source]

theorem Quiet.code {inner : List Char} (quiet : Quiet inner) :
    ¬ ['?', '>'] <:+: ' ' :: (inner ++ [' ']) := by
  have whole : Quiet (' ' :: (inner ++ [' '])) := .cons (by decide) (quiet.append (by decide))
  unfold Quiet at whole
  rw [List.infix_cons_iff, not_or] at whole
  exact whole.2

theorem Spelled.leftmost (spelled : Spelled segments ts) {text : List Char}
    (free : ¬ ['<', '?'] <:+: text) (start : text = [] ∨ ¬ StartsText segments) :
    (cutFrom text segments).Leftmost := by
  induction spelled generalizing text with
  | nil =>
      rintro before behind rfl
      exact absurd ⟨before, behind, by simp⟩ free
  | text filled freeContent apart others ih =>
      rcases start with rfl | other
      · exact ih freeContent (.inr apart)
      · exact absurd ⟨_, _, rfl⟩ other
  | code quiet lexes others ih => exact ⟨free, quiet.code, ih (by simp) (.inl rfl)⟩
  | echo quiet lexes others ih =>
      refine ⟨free, ?_, ih (by simp) (.inl rfl)⟩
      rw [List.infix_cons_iff, not_or]
      exact ⟨by simp, quiet.code⟩

/-- The token of text, unless there is none. -/
def textTokens (text : List Char) : List Token :=
  if text.isEmpty then [] else [.text (String.ofList text)]

theorem piecesTokens_append {first second : List Piece} {front behind : List Placed}
    (readFirst : piecesTokens first = .ok front) (readSecond : piecesTokens second = .ok behind) :
    piecesTokens (first ++ second) = .ok (front ++ behind) := by
  induction first generalizing front with
  | nil =>
      cases readFirst
      exact readSecond
  | cons piece first ih =>
      cases tokens : piece.tokens with
      | error error => simp [piecesTokens, tokens, bind, Except.bind] at readFirst
      | ok placed =>
          cases others : piecesTokens first with
          | error error => simp [piecesTokens, tokens, others, bind, Except.bind] at readFirst
          | ok more =>
              simp only [piecesTokens, tokens, others, bind, Except.bind, Except.ok.injEq] at readFirst
              subst readFirst
              simp [piecesTokens, tokens, ih others, bind, Except.bind]

theorem piecesTokens_textPiece (position : Nat) (text : List Char) :
    ∃ placed, piecesTokens (textPiece position text) = .ok placed ∧
      placed.map Placed.token = textTokens text := by
  unfold textPiece textTokens
  split
  · exact ⟨[], rfl, rfl⟩
  · exact ⟨_, rfl, rfl⟩

theorem Lexes.code {inner : List Char} (lexes : Lexes inner us [' ']) :
    Lexes (' ' :: (inner ++ [' '])) us [] := by
  have whole : Lexes (inner ++ [' ']) (us ++ []) [] := .append lexes (.blank (.nil []))
  rw [List.append_nil] at whole
  exact .blank whole

theorem piecesTokens_marked (text : List Char) {inside : List Char} {rest : Cut} (position : Nat)
    (front : inside.head? ≠ some '-') (back : inside.getLast? ≠ some '-')
    (code : ∀ position, ∃ placed, (Piece.code position inside).tokens = .ok placed ∧
      placed.map Placed.token = us)
    (others : ∀ position, ∃ placed, piecesTokens (rest.pieces position false) = .ok placed ∧
      placed.map Placed.token = ts) :
    ∃ placed, piecesTokens ((Cut.marked text inside rest).pieces position false) = .ok placed ∧
      placed.map Placed.token = textTokens text ++ (us ++ ts) := by
  have before : trimsBefore inside = false := by simpa [trimsBefore] using front
  have behind : trimsBehind inside = false := by simp [trimsBehind, back]
  have whole : codeOf inside = inside := by simp [codeOf, before, behind]
  simp only [Cut.pieces, before, behind, whole, dropBlanks, Bool.false_eq_true, if_false]
  obtain ⟨texts, readText, sameText⟩ :=
    piecesTokens_textPiece (position + byteLength (blanksOf false text)) text
  obtain ⟨codes, readCode, rfl⟩ := code (position + byteLength text + 2 + 0)
  obtain ⟨more, readOthers, rfl⟩ := others (position + byteLength text + 2 + byteLength inside + 2)
  refine ⟨texts ++ (codes ++ more), piecesTokens_append readText ?_, by simp [sameText]⟩
  simp [piecesTokens, readCode, readOthers, bind, Except.bind]

theorem getLast?_code (code front : List Char) : (front ++ (code ++ [' '])).getLast? ≠ some '-' := by
  rw [← List.append_assoc, List.getLast?_concat]
  decide

theorem Spelled.exists_tokens (spelled : Spelled segments ts) {text : List Char}
    (start : text = [] ∨ ¬ StartsText segments) (position : Nat) :
    ∃ placed, piecesTokens ((cutFrom text segments).pieces position false) = .ok placed ∧
      placed.map Placed.token = textTokens text ++ ts := by
  induction spelled generalizing text position with
  | nil =>
      rw [List.append_nil]
      exact piecesTokens_textPiece _ text
  | @text content rest ts filled free apart others ih =>
      rcases start with rfl | other
      · obtain ⟨placed, read, same⟩ := ih (.inr apart) position
        refine ⟨placed, read, same.trans ?_⟩
        simp [textTokens, filled]
      · exact absurd ⟨_, _, rfl⟩ other
  | @code inner us rest ts quiet lexes others ih =>
      have read (position : Nat) : ∃ placed, (Piece.code position (' ' :: (inner ++ [' ']))).tokens =
          .ok placed ∧ placed.map Placed.token = us ++ [.spanEnd] := by
        obtain ⟨placed, lexed, rfl⟩ := lexes.code.lexFrom position
        refine ⟨placed ++ [⟨.spanEnd, position + byteLength (' ' :: (inner ++ [' ']))⟩], ?_, by simp⟩
        rw [Piece.tokens_code]
        simp only [List.head?_cons, Option.some.injEq, Char.reduceEq, if_false, lexed]
        rfl
      obtain ⟨placed, whole, same⟩ :=
        piecesTokens_marked text position (by simp) (getLast?_code inner [' ']) read (ih (.inl rfl))
      exact ⟨placed, whole, same.trans (by simp [textTokens])⟩
  | @echo inner us rest ts quiet lexes others ih =>
      have read (position : Nat) : ∃ placed, (Piece.code position ('=' :: ' ' :: (inner ++ [' ']))).tokens =
          .ok placed ∧ placed.map Placed.token = .echo :: us ++ [.spanEnd] := by
        obtain ⟨placed, lexed, rfl⟩ := lexes.code.lexFrom (position + 1)
        refine ⟨⟨.echo, position⟩ :: placed ++
          [⟨.spanEnd, position + byteLength ('=' :: ' ' :: (inner ++ [' ']))⟩], ?_, by simp⟩
        rw [Piece.tokens_code]
        simp only [List.head?_cons, if_true, List.tail_cons, lexed]
        rfl
      obtain ⟨placed, whole, same⟩ :=
        piecesTokens_marked text position (by simp) (getLast?_code inner ['=', ' ']) read (ih (.inl rfl))
      exact ⟨placed, whole, same.trans (by simp [textTokens])⟩

/-- The tokens of a template that is printed in segments. -/
theorem Spelled.scan (spelled : Spelled segments ts) :
    ∃ tokens, Template.scan (sourceOf segments) = .ok tokens ∧
      tokens.map Placed.token = ts ++ [.finish] := by
  obtain ⟨placed, read, same⟩ := spelled.exists_tokens (.inl rfl) 0
  have leftmost : (cutFrom [] segments).Leftmost := spelled.leftmost (by simp) (.inl rfl)
  have source := source_cutFrom [] segments
  rw [List.nil_append] at source
  refine ⟨placed ++ [⟨.finish, byteLength (sourceOf segments)⟩], ?_, by simp [same, textTokens]⟩
  rw [← source, scan_source leftmost, read]
  rfl

/-! What printed nodes stand for, in front of any segments that may follow them. -/

def StatementSpelled (n : Node) (segments : List Segment) : Prop :=
  ∃ ts, Statement n ts ∧
    ∀ {rest us}, Spelled rest us → Spelled (segments ++ rest) (ts ++ .spanEnd :: us)

def BlockSpelled (ns : List Node) (segments : List Segment) : Prop :=
  ∃ ts, Block ns ts ∧
    ∀ {rest us}, ¬ StartsText rest → Spelled rest us → Spelled (segments ++ rest) (ts ++ us)

/-- The branches behind the first one, and the brace that closes the block before them. -/
def AlternativesSpelled (branches : List (Expr × List Node)) (otherwise : Option (List Node))
    (segments : List Segment) : Prop :=
  ∃ ts, Alternatives branches otherwise ts ∧
    ∀ {rest us}, Spelled rest us →
      Spelled (segments ++ rest) (.symbol .closeBrace :: (ts ++ .spanEnd :: us))

theorem Spelled.not_startsText {token : Token} (spelled : Spelled segments (token :: ts))
    (code : ∀ content, token ≠ .text content) : ¬ StartsText segments := by
  intro given
  rcases given with ⟨content, rest, rfl⟩
  cases spelled
  exact code _ rfl

theorem lexes_assigned {name : String} (named : isName name = true) (value : Lexes text ts rest) :
    Lexes (name.toList ++ ' ' :: '=' :: ' ' :: text) (.identifier name :: .symbol .assign :: ts) rest := by
  have sign : lexeme '=' (' ' :: text ++ rest) = .ok ⟨some (.symbol .assign), 0⟩ := rfl
  have given : Lexes ('=' :: ' ' :: text) (.symbol .assign :: ts) rest := .symbol sign (.blank value)
  exact .append (.name named (show Clear (' ' :: _) from rfl)) (.blank given)

theorem quiet_assigned {name : String} (named : isName name = true) (quiet : Quiet text) :
    Quiet (name.toList ++ ' ' :: '=' :: ' ' :: text) :=
  (quiet_of_isName named).append (.cons (by decide) (.cons (by decide) (.cons (by decide) quiet)))

theorem lexes_head (head : ∀ rest, Clear rest → Lexes text ts rest) (rest : List Char) :
    Lexes (text ++ [' ', '\x7b']) (ts ++ [.symbol .openBrace]) rest := by
  have brace : Lexes ['\x7b'] [.symbol .openBrace] rest := .token rfl
  exact .append (head _ rfl) (.blank brace)

theorem quiet_head (quiet : Quiet text) : Quiet (text ++ [' ', '\x7b']) := quiet.append (by decide)

theorem lexes_keyword_blank (word : Keyword) (rest : List Char) :
    Lexes (word.text.toList ++ [' ']) [.keyword word] rest := by
  have blank : Lexes [' '] [] rest := .blank (.nil rest)
  exact .append (.keyword word (show Clear (' ' :: rest) from rfl)) blank

theorem lexes_closeBrace (rest : List Char) : Lexes ['\x7d'] [.symbol .closeBrace] rest := .token rfl

/-- A condition and its block, behind the words that lead to them. -/
theorem exists_branch_spelled {lead : List Char} {ls : List Token} (quietLead : Quiet lead)
    (lexesLead : ∀ rest, Lexes lead ls rest) (condition : Spells 0 c text) (quiet : Quiet text)
    (body : BlockSpelled ns segments) (others : AlternativesSpelled branches otherwise closing) :
    ∃ cs bs us, Phrase 0 c cs ∧ Body ns bs ∧ Alternatives branches otherwise us ∧
      ∀ {rest vs}, Spelled rest vs →
        Spelled (.code (lead ++ (text ++ [' ', '\x7b'])) :: (segments ++ closing) ++ rest)
          (ls ++ (cs ++ bs ++ us) ++ .spanEnd :: vs) := by
  obtain ⟨cs, phrase, lexes⟩ := condition
  obtain ⟨bs, block, spelledBody⟩ := body
  obtain ⟨us, alternatives, spelledOthers⟩ := others
  refine ⟨cs, _, us, phrase, .braces block, alternatives, fun {rest vs} spelled => ?_⟩
  have behind := spelledOthers spelled
  have inner := spelledBody (behind.not_startsText (by simp)) behind
  have whole := Spelled.code (quietLead.append (quiet_head quiet))
    (.append (lexesLead _) (lexes_head lexes [' '])) inner
  simpa using whole

/-- A block behind the head of a loop or the word `else`, and the brace that closes it. -/
theorem exists_body_spelled {head : List Char} {hs : List Token} (quiet : Quiet head)
    (lexes : Lexes (head ++ [' ', '\x7b']) (hs ++ [.symbol .openBrace]) [' '])
    (body : BlockSpelled ns segments) :
    ∃ bs, Body ns bs ∧ ∀ {rest vs}, Spelled rest vs →
      Spelled (.code (head ++ [' ', '\x7b']) :: (segments ++ [.code ['\x7d']]) ++ rest)
        (hs ++ bs ++ .spanEnd :: vs) := by
  obtain ⟨bs, block, spelledBody⟩ := body
  refine ⟨_, .braces block, fun {rest vs} spelled => ?_⟩
  have behind : Spelled (.code ['\x7d'] :: rest) ([.symbol .closeBrace] ++ .spanEnd :: vs) :=
    .code (by decide) (lexes_closeBrace _) spelled
  have inner := spelledBody (behind.not_startsText (by simp)) behind
  have whole := Spelled.code (quiet_head quiet) lexes inner
  simpa using whole

theorem lexes_else (rest : List Char) :
    Lexes ("\x7d else".toList ++ [' ', '\x7b'])
      ([.symbol .closeBrace, .keyword .elseWord] ++ [.symbol .openBrace]) rest := by
  have word : Lexes (Keyword.elseWord.text.toList ++ [' ', '\x7b'])
      ([.keyword .elseWord] ++ [.symbol .openBrace]) rest :=
    lexes_head (fun _ clear => .keyword .elseWord clear) rest
  exact .symbol rfl (.blank word)

theorem lexes_elseIf (rest : List Char) :
    Lexes "\x7d else if ".toList [.symbol .closeBrace, .keyword .elseWord, .keyword .ifWord] rest := by
  have words := Lexes.append (lexes_keyword_blank .elseWord _) (lexes_keyword_blank .ifWord rest)
  exact .symbol rfl (.blank words)

theorem quiet_else : Quiet "\x7d else".toList := by
  decide

theorem quiet_elseIf : Quiet "\x7d else if ".toList := by
  decide

theorem lexes_eachHead {first : String} {second : Option String} (namedFirst : isName first = true)
    (namedSecond : second.all isName = true) (entries : Lexes text ts rest) :
    Lexes (eachHead first second text)
      (.keyword .forWord :: .identifier first :: (secondName second ++ .keyword .inWord :: ts)) rest := by
  have inWord : Lexes (' ' :: (Keyword.inWord.text.toList ++ [' '] ++ text)) (.keyword .inWord :: ts) rest :=
    .blank (.append (lexes_keyword_blank .inWord _) entries)
  have names : Lexes (first.toList ++ (printSecond second ++
      ' ' :: (Keyword.inWord.text.toList ++ [' '] ++ text)))
      (.identifier first :: (secondName second ++ .keyword .inWord :: ts)) rest := by
    cases second with
    | none => exact .append (.name namedFirst (show Clear (' ' :: _) from rfl)) inWord
    | some second =>
        have named : Lexes (second.toList ++ ' ' :: (Keyword.inWord.text.toList ++ [' '] ++ text))
            (.identifier second :: .keyword .inWord :: ts) rest :=
          .append (.name namedSecond (show Clear (' ' :: _) from rfl)) inWord
        exact .append (.name namedFirst (show Clear (',' :: _) from rfl)) (.symbol rfl (.blank named))
  exact .append (lexes_keyword_blank .forWord _) names

theorem quiet_eachHead {first : String} {second : Option String} (namedFirst : isName first = true)
    (namedSecond : second.all isName = true) (quiet : Quiet text) :
    Quiet (eachHead first second text) := by
  have entries : Quiet (" in ".toList ++ text) := .append (by decide) quiet
  have names : Quiet (first.toList ++ (printSecond second ++ (" in ".toList ++ text))) := by
    refine (quiet_of_isName namedFirst).append (.append ?_ entries)
    cases second with
    | none => decide
    | some second => exact .cons (by decide) (.cons (by decide) (quiet_of_isName namedSecond))
  exact .append (by decide) names

theorem isName_include : isName "include" = true := by
  decide

theorem lexes_include (arguments : Lexes text ts rest) :
    Lexes ("include".toList ++ '(' :: text) (.identifier "include" :: .symbol .openParen :: ts) rest := by
  have word : Lexes "include".toList [.identifier "include"] ('(' :: text ++ rest) :=
    .name isName_include (show Clear ('(' :: _) from rfl)
  exact .append word (.symbol rfl arguments)

theorem quiet_include (quiet : Quiet text) : Quiet ("include".toList ++ '(' :: (text ++ [')'])) :=
  (quiet_of_isName isName_include).append (.cons (by decide) (quiet.append (by decide)))

theorem not_startsText_code (code : List Char) (rest : List Segment) :
    ¬ StartsText (.code code :: rest) := by
  intro given
  rcases given with ⟨content, more, same⟩
  cases same

theorem Node.not_startsText : ∀ {n : Node}, n.printable = true → n.isText = false →
    ∀ rest, ¬ StartsText (n.segments ++ rest)
  | .text _, _, span, _ => by cases span
  | .choose [] _, printable, _, _ => by simp [Node.printable] at printable
  | .choose (_ :: _) _, _, _, _ => by
      rw [Node.segments, Node.branchSegments]
      exact not_startsText_code _ _
  | .echo _, _, _, _ => by
      rw [Node.segments]
      intro given
      rcases given with ⟨content, more, same⟩
      cases same
  | .expression _, _, _, _ | .declare _ _, _, _, _ | .assign _ _ _, _, _, _ | .each _ _ _ _, _, _, _
  | .embed _ _ _, _, _, _ => by
      rw [Node.segments]
      exact not_startsText_code _ _

mutual

theorem Node.spelled : ∀ n : Node, n.printable = true → n.isText = false →
    StatementSpelled n.unplaced n.segments
  | .text _, _, span => by cases span
  | .echo value, printable, _ => by
      rw [Node.printable] at printable
      rw [Node.unplaced, Node.segments]
      obtain ⟨ts, phrase, lexes⟩ := value.spells_print 0 printable (by decide)
      exact ⟨_, .echo phrase, .echo (value.quiet_print 0 printable) (lexes _ rfl)⟩
  | .expression value, printable, _ => by
      rw [Node.printable] at printable
      rw [Node.unplaced, Node.segments]
      obtain ⟨ts, phrase, lexes⟩ := value.spells_print 0 printable (by decide)
      exact ⟨_, .expression phrase, .code (value.quiet_print 0 printable) (lexes _ rfl)⟩
  | .declare name value, printable, _ => by
      rw [Node.printable, Bool.and_eq_true] at printable
      rw [Node.unplaced, Node.segments]
      obtain ⟨ts, phrase, lexes⟩ := value.spells_print 0 printable.2 (by decide)
      have quiet : Quiet "let ".toList := by decide
      exact ⟨_, .declare name phrase,
        .code (quiet.append (quiet_assigned printable.1 (value.quiet_print 0 printable.2)))
          (.append (lexes_keyword_blank .letWord _) (lexes_assigned printable.1 (lexes _ rfl)))⟩
  | .assign _ name value, printable, _ => by
      rw [Node.printable, Bool.and_eq_true] at printable
      rw [Node.unplaced, Node.segments]
      obtain ⟨ts, phrase, lexes⟩ := value.spells_print 0 printable.2 (by decide)
      exact ⟨_, .assign name phrase,
        .code (quiet_assigned printable.1 (value.quiet_print 0 printable.2))
          (lexes_assigned printable.1 (lexes _ rfl))⟩
  | .choose [] _, printable, _ => by simp [Node.printable] at printable
  | .choose ((condition, body) :: branches) otherwise, printable, _ => by
      simp only [Node.printable, Node.printableBranches, Bool.and_eq_true] at printable
      obtain ⟨⟨_, ⟨printableCondition, printableBody⟩, printableBranches⟩, printableOtherwise⟩ := printable
      rw [Node.unplaced, Node.unplacedBranches, Node.segments, Node.branchSegments]
      obtain ⟨cs, bs, us, phrase, block, others, spelled⟩ := exists_branch_spelled (by decide)
        (lexes_keyword_blank .ifWord) (condition.spells_print 0 printableCondition (by decide))
        (condition.quiet_print 0 printableCondition) (Node.spelledAll body printableBody)
        (Node.spelledBranches branches printableBranches
          (Node.spelledOtherwise otherwise printableOtherwise))
      exact ⟨_, .choose phrase block others, spelled⟩
  | .each first second entries body, printable, _ => by
      simp only [Node.printable, Bool.and_eq_true] at printable
      obtain ⟨⟨⟨namedFirst, namedSecond⟩, printableEntries⟩, printableBody⟩ := printable
      obtain ⟨ts, phrase, lexes⟩ := entries.spells_print 0 printableEntries (by decide)
      rw [Node.unplaced, Node.segments]
      obtain ⟨bs, block, spelled⟩ := exists_body_spelled
        (quiet_eachHead namedFirst namedSecond (entries.quiet_print 0 printableEntries))
        (lexes_head (fun rest clear => lexes_eachHead namedFirst namedSecond (lexes rest clear)) _)
        (Node.spelledAll body printableBody)
      refine ⟨_, .each first second phrase block, fun {rest us} others => ?_⟩
      simpa using spelled others
  | .embed _ path environment, printable, _ => by
      rw [Node.printable, Bool.and_eq_true] at printable
      rw [Node.unplaced, Node.segments]
      have printableItems : Expr.printableItems (path :: environment.toList) = true := by
        cases environment <;> simpa [Expr.printableItems] using printable
      have same : Expr.unplacedItems (path :: environment.toList) =
          path.unplaced :: (environment.map Expr.unplaced).toList := by
        cases environment <;> rfl
      obtain ⟨ts, items, lexes⟩ :=
        Expr.spells_printItems spellsClose_closeParen (path :: environment.toList) printableItems
      rw [same] at items
      exact ⟨_, .embed _ items, .code (quiet_include (Expr.quiet_printItems _ printableItems))
        (lexes_include (lexes _))⟩

theorem Node.spelledAll : ∀ ns : List Node, Node.printableAll ns = true →
    BlockSpelled (Node.unplacedAll ns) (Node.segmentsAll ns)
  | [], _ => by
      rw [Node.unplacedAll, Node.segmentsAll]
      exact ⟨[], .none, fun _ spelled => spelled⟩
  | n :: ns, printable => by
      simp only [Node.printableAll, Bool.and_eq_true, Bool.not_eq_true'] at printable
      obtain ⟨⟨printableFirst, apart⟩, printableOthers⟩ := printable
      obtain ⟨us, block, spelledOthers⟩ := Node.spelledAll ns printableOthers
      rw [Node.unplacedAll, Node.segmentsAll]
      cases isText : n.isText with
      | false =>
          obtain ⟨ts, statement, spelledFirst⟩ := n.spelled printableFirst isText
          refine ⟨_, .statement statement block, fun {rest vs} code others => ?_⟩
          simpa using spelledFirst (spelledOthers code others)
      | true =>
          obtain ⟨content, rfl⟩ : ∃ content, n = .text content := by
            cases n with
            | text content => exact ⟨content, rfl⟩
            | _ => cases isText
          simp only [Node.printable, Bool.and_eq_true, Bool.not_eq_true', List.isEmpty_eq_false_iff,
            decide_eq_true_eq] at printableFirst
          rw [Node.unplaced, Node.segments]
          refine ⟨_, .text content block, fun {rest vs} code others => ?_⟩
          have behind : ¬ StartsText (Node.segmentsAll ns ++ rest) := by
            cases ns with
            | nil =>
                rw [Node.segmentsAll]
                exact code
            | cons next others =>
                simp only [Node.printableAll, Bool.and_eq_true] at printableOthers
                simp only [Node.isText, List.head?_cons, Option.any_some, Bool.true_and] at apart
                rw [Node.segmentsAll, List.append_assoc]
                exact Node.not_startsText printableOthers.1.1 apart _
          have whole := Spelled.text printableFirst.1 printableFirst.2 behind (spelledOthers code others)
          rwa [String.ofList_toList] at whole

theorem Node.spelledBranches {otherwise : Option (List Node)} {closing : List Segment} :
    ∀ branches : List (Expr × List Node), Node.printableBranches branches = true →
      AlternativesSpelled [] otherwise closing →
      AlternativesSpelled (Node.unplacedBranches branches) otherwise
        (Node.branchSegments "\x7d else if ".toList closing branches)
  | [], _, final => by
      rw [Node.unplacedBranches, Node.branchSegments]
      exact final
  | (condition, body) :: branches, printable, final => by
      simp only [Node.printableBranches, Bool.and_eq_true] at printable
      rw [Node.unplacedBranches, Node.branchSegments]
      obtain ⟨cs, bs, us, phrase, block, others, spelled⟩ := exists_branch_spelled quiet_elseIf
        lexes_elseIf (condition.spells_print 0 printable.1.1 (by decide))
        (condition.quiet_print 0 printable.1.1) (Node.spelledAll body printable.1.2)
        (Node.spelledBranches branches printable.2 final)
      exact ⟨_, .branch phrase block others, spelled⟩

theorem Node.spelledOtherwise : ∀ otherwise : Option (List Node),
    Node.printableOtherwise otherwise = true →
      AlternativesSpelled [] (Node.unplacedOtherwise otherwise) (Node.otherwiseSegments otherwise)
  | none, _ => by
      rw [Node.unplacedOtherwise, Node.otherwiseSegments]
      exact ⟨[], .none, fun others => .code (by decide) (lexes_closeBrace _) others⟩
  | some body, printable => by
      rw [Node.printableOtherwise] at printable
      rw [Node.unplacedOtherwise, Node.otherwiseSegments]
      obtain ⟨bs, block, spelled⟩ := exists_body_spelled quiet_else (lexes_else _)
        (Node.spelledAll body printable)
      exact ⟨_, .final block, spelled⟩

end

/-- Compiling undoes printing: the text of a template is parsed as that template, up to positions. -/
theorem parse_printTemplate (program : List Node) (printable : Node.printableAll program = true) :
    ∃ found, parse (printTemplate program) = .ok found ∧
      Node.unplacedAll found = Node.unplacedAll program := by
  obtain ⟨ts, block, spelled⟩ := Node.spelledAll program printable
  have whole := spelled (fun ⟨_, _, same⟩ => by cases same) .nil
  rw [List.append_nil, List.append_nil] at whole
  obtain ⟨tokens, scanned, same⟩ := whole.scan
  exact parse_of_block scanned block same

/-- A template with a choice, a loop and operators of several levels. -/
def sampleTemplate : List Node :=
  [.declare "n" (.binary 0 .multiply
      (.binary 0 .subtract (.literal 0 (.number (.int 7))) (.unary 0 .negate (.variable 0 "x")))
      (.literal 0 (.number (.int 2)))),
    .choose
      [(.binary 0 .greater (.variable 0 "n") (.literal 0 (.number (.int 3))),
        [.text "big ", .echo (.member 0 (.variable 0 "page") "title")])]
      (some [.each "k" (some "v") (.object 0 [("a?>", .array 0 [.literal 0 .null])])
        [.echo (.conditional 0 (.variable 0 "v") (.variable 0 "k") (.literal 0 (.string "?>")))]]),
    .embed 0 (.literal 0 (.string "foot")) none]

theorem parse_printTemplate_sample :
    Node.printableAll sampleTemplate = true ∧
      String.ofList (printTemplate sampleTemplate) =
        "<? let n = (7 - -x) * 2 ?><? if n > 3 \x7b ?>big <?= page.title ?><? \x7d else \x7b ?>" ++
        "<? for k, v in \x7b\"a?\\u003e\": [null]\x7d \x7b ?><?= v ? k : \"?\\u003e\" ?><? \x7d ?>" ++
        "<? \x7d ?><? include(\"foot\") ?>" ∧
      ∃ found, parse (printTemplate sampleTemplate) = .ok found ∧
        Node.unplacedAll found = Node.unplacedAll sampleTemplate :=
  ⟨by decide, by decide +kernel, parse_printTemplate sampleTemplate (by decide +kernel)⟩

end StaticSite.Template
