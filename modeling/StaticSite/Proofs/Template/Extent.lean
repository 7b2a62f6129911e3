import StaticSite.Proofs.Template.Positions

/-!
How far tokens reach. A token of code begins at its position and ends where the lexer goes on behind it,
so that the source between two tokens of a span is what the lexer has passed over there.
-/

namespace StaticSite.Template

open Text

/-- The text of a token: what the lexer takes for it off code that goes on behind. -/
def Token.Spells (token : Token) (text behind : List Char) : Prop :=
  ∃ c more, text = c :: more ∧ lexeme c (more ++ behind) = .ok ⟨some token, more.length⟩

/-! ## Line feeds within tokens -/

theorem not_mem_takeWhile {α : Type} {part : α → Bool} {a : α} (other : part a = false) (l : List α) :
    a ∉ l.takeWhile part := by
  intro member
  rw [List.mem_takeWhile_imp member] at other
  cases other

theorem lineFeed_not_mem_symbol? {c : Char} {rest : List Char} {s : Symbol} {more : Nat}
    (found : symbol? c rest = some (s, more)) : '\n' ∉ c :: rest.take more := by
  unfold symbol? at found
  split at found <;> cases found <;> simp

theorem hexNumber_reads {x : Char} {rest : List Char} {found : Lexeme} (mark : x ≠ '\n')
    (read : hexNumber rest = .ok found) :
    '\n' ∉ (x :: rest).take found.more ∧ ∃ value, found.token = some (.number value) := by
  have digits : '\n' ∉ rest.takeWhile (isDigitIn 16) := not_mem_takeWhile (by decide) rest
  unfold hexNumber at read
  dsimp only at read
  split at read
  · split at read <;> cases read
    refine ⟨?_, _, rfl⟩
    rw [List.take_succ_cons, List.mem_cons, not_or, ← List.prefix_iff_eq_take.mp (List.takeWhile_prefix _)]
    exact ⟨mark.symm, digits⟩
  · cases read

theorem decimalNumber_reads {c : Char} {rest : List Char} {found : Lexeme}
    (read : decimalNumber (c :: rest) = .ok found) :
    '\n' ∉ rest.take found.more ∧ ∃ value, found.token = some (.number value) := by
  obtain ⟨left, ⟨front, same, parts⟩, ⟨value, other⟩ | other⟩ :=
    exists_numberTo_of_decimalNumber (c :: rest)
  · rw [other] at read
    cases read
    refine ⟨?_, _, rfl⟩
    cases front with
    | nil => simp [same]
    | cons d front =>
        obtain ⟨rfl, rfl⟩ := List.cons.inj same
        have width : (c :: (front ++ left)).length - left.length - 1 = front.length := by
          rw [List.length_cons, List.length_append]
          omega
        change '\n' ∉ (front ++ left).take ((c :: (front ++ left)).length - left.length - 1)
        rw [width, List.take_left]
        intro feed
        have part := parts '\n' (List.mem_cons_of_mem c feed)
        cases part
  · rw [other] at read
    cases read

/-- What the lexer finds: nothing, a string, or else a token whose text is all on one line. -/
theorem lexeme_cases {c : Char} {rest : List Char} {found : Lexeme} (read : lexeme c rest = .ok found) :
    found.token = none ∨ (∃ value, found.token = some (.string value)) ∨
      '\n' ∉ c :: rest.take found.more ∧
        ((∃ value, found.token = some (.number value)) ∨ (∃ word, found.token = some (wordToken word)) ∨
          ∃ s, found.token = some (.symbol s) ∧ symbol? c rest = some (s, found.more)) := by
  unfold lexeme at read
  split at read
  · cases read
    exact .inl rfl
  rename_i visible
  have head : c ≠ '\n' := by
    rintro rfl
    exact visible rfl
  have inLine {text : List Char} (absent : '\n' ∉ text) : '\n' ∉ c :: text := by
    rw [List.mem_cons, not_or]
    exact ⟨head.symm, absent⟩
  split at read
  · cases read
    exact .inl rfl
  split at read
  · split at read <;> cases read
    exact .inl rfl
  split at read
  · obtain ⟨⟨chars, width⟩, -, done⟩ := bind_eq_ok.mp read
    cases done
    exact .inr (.inl ⟨_, rfl⟩)
  split at read
  · rename_i hexadecimal
    cases rest with
    | nil => simp at hexadecimal
    | cons x rest =>
        have mark : x ≠ '\n' := by
          rintro rfl
          simp at hexadecimal
        obtain ⟨absent, number⟩ := hexNumber_reads mark read
        exact .inr (.inr ⟨inLine absent, .inl number⟩)
  split at read
  · obtain ⟨absent, number⟩ := decimalNumber_reads read
    exact .inr (.inr ⟨inLine absent, .inl number⟩)
  split at read
  · cases read
    refine .inr (.inr ⟨inLine ?_, .inr (.inl ⟨_, rfl⟩)⟩)
    rw [← List.prefix_iff_eq_take.mp (List.takeWhile_prefix _)]
    exact not_mem_takeWhile (by decide) rest
  · split at read <;> cases read
    rename_i found
    exact .inr (.inr ⟨lineFeed_not_mem_symbol? found, .inr (.inr ⟨_, rfl, found⟩)⟩)

/-- No token but a string goes on behind a line feed. -/
theorem Token.Spells.exists_string {token : Token} {text behind : List Char}
    (spells : token.Spells text behind) (feed : '\n' ∈ text) : ∃ value, token = .string value := by
  obtain ⟨c, more, rfl, read⟩ := spells
  obtain absent | ⟨value, isString⟩ | ⟨inLine, -⟩ := lexeme_cases read
  · cases absent
  · exact ⟨value, Option.some.inj isString⟩
  · rw [List.take_left] at inLine
    exact absurd feed inLine

theorem eq_of_symbol?_semicolon {c : Char} {rest : List Char} {more : Nat}
    (found : symbol? c rest = some (.semicolon, more)) : c = ';' := by
  unfold symbol? at found
  split at found <;> cases found
  rfl

theorem wordToken_ne_symbol (word : String) (s : Symbol) : wordToken word ≠ .symbol s := by
  unfold wordToken
  split <;> simp

theorem Token.Spells.mem_of_semicolon {text behind : List Char}
    (spells : Token.Spells (.symbol .semicolon) text behind) : ';' ∈ text := by
  obtain ⟨c, more, rfl, read⟩ := spells
  obtain absent | ⟨value, isString⟩ | ⟨-, ⟨value, number⟩ | ⟨word, isWord⟩ | ⟨s, isSymbol, found⟩⟩ :=
    lexeme_cases read
  · cases absent
  · cases isString
  · cases number
  · exact absurd (Option.some.inj isWord).symm (wordToken_ne_symbol word .semicolon)
  · cases isSymbol
    rw [eq_of_symbol?_semicolon found]
    exact List.mem_cons_self

/-! ## Tokens within code -/

/-- A token of code that begins at a position, with its text, and the tokens that the lexer finds when it
goes on behind it. -/
def StandsIn (position : Nat) (code : List Char) (placed : Placed) (back : List Placed) : Prop :=
  ∃ before text behind, code = before ++ (text ++ behind) ∧
    placed.position = position + byteLength before ∧ placed.token.Spells text behind ∧
      lexFrom (position + byteLength (before ++ text)) behind = .ok back

theorem StandsIn.append {position : Nat} {code : List Char} {placed : Placed} {back : List Placed}
    (front : List Char) (stands : StandsIn (position + byteLength front) code placed back) :
    StandsIn position (front ++ code) placed back := by
  obtain ⟨before, text, behind, rfl, place, spells, others⟩ := stands
  refine ⟨front ++ before, text, behind, (List.append_assoc ..).symm, ?_, spells, ?_⟩
  · rw [place, byteLength_append, Nat.add_assoc]
  · rwa [List.append_assoc, byteLength_append, ← Nat.add_assoc]

/-- The lexer stands at each of its tokens. -/
theorem standsIn_of_lexFrom {position : Nat} {code : List Char} (front : List Placed) {back : List Placed}
    {placed : Placed} (read : lexFrom position code = .ok (front ++ placed :: back)) :
    StandsIn position code placed back := by
  generalize same : front ++ placed :: back = tokens at read
  fun_induction lexFrom position code generalizing front tokens with
  | case1 =>
      cases read
      simp at same
  | case2 => cases read
  | case3 => cases read
  | case4 position c rest lexeme found next others behind token isToken =>
      rename_i ih
      cases read
      have width : next = position + byteLength (c :: rest.take lexeme.more) := Nat.add_assoc _ _ _
      have whole : c :: rest.take lexeme.more ++ rest.drop lexeme.more = c :: rest := by simp
      cases front with
      | nil =>
          obtain ⟨rfl, rfl⟩ := List.cons.inj same
          refine ⟨[], _, _, whole.symm, rfl, ⟨c, rest.take lexeme.more, rfl, ?_⟩, width ▸ behind⟩
          rw [List.take_append_drop, List.length_take_of_le (lexeme_more_le found), found, ← isToken]
      | cons first front =>
          rw [← whole]
          exact .append _ (width ▸ ih _ _ (List.cons.inj same).2 behind)
  | case5 position c rest lexeme found next others behind isBlank =>
      rename_i ih
      cases read
      have width : next = position + byteLength (c :: rest.take lexeme.more) := Nat.add_assoc _ _ _
      have whole : c :: rest.take lexeme.more ++ rest.drop lexeme.more = c :: rest := by simp
      rw [← whole]
      exact .append _ (width ▸ ih _ _ same behind)

/-- Between two tokens of code the lexer passes over what stands between their texts, semicolons that are
tokens included. -/
theorem exists_gap_of_lexFrom {position : Nat} {code : List Char} (front : List Placed)
    {mids back : List Placed} {first next : Placed}
    (read : lexFrom position code = .ok (front ++ first :: (mids ++ next :: back))) :
    ∃ before text gap behind, code = before ++ (text ++ (gap ++ behind)) ∧
      first.position = position + byteLength before ∧ first.token.Spells text (gap ++ behind) ∧
        next.position = position + byteLength (before ++ (text ++ gap)) ∧
          ∀ placed ∈ mids, placed.token = .symbol .semicolon → ';' ∈ gap := by
  -- on the tokens between: the lexer goes on behind each of them as behind the first one
  induction mids generalizing position code front first with
  | nil =>
      obtain ⟨before, text, rest, rfl, place, spells, others⟩ := standsIn_of_lexFrom front read
      obtain ⟨gap, nextText, behind, rfl, nextPlace, -, -⟩ := standsIn_of_lexFrom [] others
      refine ⟨before, text, gap, nextText ++ behind, rfl, place, spells, ?_, by simp⟩
      rw [nextPlace, ← List.append_assoc, byteLength_append (before ++ text), Nat.add_assoc]
  | cons mid mids ih =>
      obtain ⟨before, text, rest, rfl, place, spells, others⟩ := standsIn_of_lexFrom front read
      obtain ⟨gap, midText, more, behind, rfl, -, midSpells, nextPlace, semicolons⟩ :=
        ih [] others
      refine ⟨before, text, gap ++ (midText ++ more), behind, by simp, place, by simpa using spells, ?_, ?_⟩
      · rw [nextPlace, ← List.append_assoc before, byteLength_append (before ++ text), Nat.add_assoc]
      · intro placed member isSemicolon
        rw [List.mem_append, List.mem_append]
        rcases List.mem_cons.mp member with rfl | member
        · rw [isSemicolon] at midSpells
          exact .inr (.inl midSpells.mem_of_semicolon)
        · exact .inr (.inr (semicolons placed member isSemicolon))

/-! ## Tokens within a source -/

/-- A part of a list that lacks one of its entries stands before that entry or behind it. -/
theorem within_or_behind {α : Type} (inner : List α) {others front part back : List α} {final : α}
    (same : inner ++ final :: others = front ++ (part ++ back)) (nonempty : part ≠ [])
    (apart : final ∉ part) :
    (∃ rest, inner = front ++ (part ++ rest)) ∨ ∃ more, others = more ++ (part ++ back) := by
  obtain ⟨more, -, split⟩ | ⟨rest, rfl, split⟩ := List.append_eq_append_iff.mp same
  · cases more with
    | cons a more =>
        obtain ⟨-, rfl⟩ := List.cons.inj split
        exact .inr ⟨more, rfl⟩
    | nil =>
        cases part with
        | nil => exact absurd rfl nonempty
        | cons a part =>
            obtain ⟨rfl, -⟩ := List.cons.inj split
            exact absurd List.mem_cons_self apart
  · obtain ⟨left, rfl, -⟩ | ⟨right, rfl, split'⟩ := List.append_eq_append_iff.mp split
    · exact .inl ⟨left, rfl⟩
    · cases right with
      | nil => exact .inl ⟨[], by simp⟩
      | cons a right =>
          obtain ⟨rfl, -⟩ := List.cons.inj split'
          exact absurd (List.mem_append_right rest List.mem_cons_self) apart

/-- A piece of code with tokens in a row among those that the lexer finds in it. -/
def Piece.Holds (part : List Placed) (piece : Piece) : Prop :=
  ∃ position lead code others more, piece = .code position (lead ++ code) ∧
    lexFrom (position + byteLength lead) code = .ok (others ++ (part ++ more))

section Part

variable {front part back : List Placed} (nonempty : part ≠ [])
  (inCode : ∀ placed ∈ part, placed.token.isCode = true)
include nonempty inCode

theorem Piece.holds_or_behind {piece : Piece} {tokens others : List Placed}
    (read : piece.tokens = .ok tokens) (same : tokens ++ others = front ++ (part ++ back)) :
    piece.Holds part ∨ ∃ more, others = more ++ (part ++ back) := by
  have apart {placed : Placed} (outside : placed.token.isCode = false) : placed ∉ part := fun member => by
    rw [inCode placed member] at outside
    cases outside
  have behind {placed : Placed} {front others : List Placed} (outside : placed.token.isCode = false)
      (same : placed :: others = front ++ (part ++ back)) : ∃ more, others = more ++ (part ++ back) := by
    obtain ⟨rest, split⟩ | behind := within_or_behind [] same nonempty (apart outside)
    · simp [nonempty] at split
    · exact behind
  cases piece with
  | text position content =>
      cases read
      exact .inr (behind rfl same)
  | code position content =>
      obtain ⟨opening, lead, code, lexed, rfl, opens, found, rfl⟩ := exists_lexed read
      obtain ⟨front, same⟩ : ∃ front, lexed ++ ⟨.spanEnd, position + byteLength (lead ++ code)⟩ :: others =
          front ++ (part ++ back) := by
        obtain ⟨rfl, -⟩ | ⟨rfl, -⟩ := opens
        · exact ⟨front, by simpa using same⟩
        · obtain ⟨more, same⟩ := behind rfl same
          exact ⟨more, by simpa using same⟩
      obtain ⟨rest, rfl⟩ | behind := within_or_behind lexed same nonempty (apart rfl)
      · exact .inl ⟨position, lead, code, front, rest, rfl, found⟩
      · exact .inr behind

theorem exists_holds_of_piecesTokens {parts : List Piece} {tokens others : List Placed}
    (read : piecesTokens parts = .ok tokens) (same : tokens ++ others = front ++ (part ++ back))
    (outside : ∀ more, others ≠ more ++ (part ++ back)) : ∃ piece ∈ parts, piece.Holds part := by
  induction parts generalizing front tokens with
  | nil =>
      cases read
      exact absurd same (outside front)
  | cons piece parts ih =>
      obtain ⟨first, here, read⟩ := bind_eq_ok.mp read
      obtain ⟨rest, there, read⟩ := bind_eq_ok.mp read
      cases read
      rw [List.append_assoc] at same
      obtain holds | ⟨more, same⟩ := Piece.holds_or_behind nonempty inCode here same
      · exact ⟨piece, List.mem_cons_self, holds⟩
      · obtain ⟨other, member, holds⟩ := ih there same
        exact ⟨other, List.mem_cons_of_mem piece member, holds⟩

/-- Tokens of code in a row, with none between that ends or opens a span, are of one span. -/
theorem exists_holds_of_scan {source : List Char} (scanned : scan source = .ok (front ++ (part ++ back))) :
    ∃ piece ∈ pieces source, piece.Holds part := by
  obtain ⟨tokens, read, ending⟩ := bind_eq_ok.mp scanned
  refine exists_holds_of_piecesTokens nonempty inCode read (Except.ok.inj ending) fun more same => ?_
  obtain ⟨placed, member⟩ := List.exists_mem_of_ne_nil part nonempty
  have last : placed ∈ more ++ (part ++ back) := by simp [member]
  rw [← same, List.mem_singleton] at last
  have code := inCode placed member
  rw [last] at code
  cases code

end Part

/-! ## Line feeds -/

theorem map_lineFeedsFrom (offset : Nat) (text : List Char) :
    (lineFeedsFrom offset text).map (· + 1) = lineStartsFrom offset text := by
  induction text generalizing offset with
  | nil => rfl
  | cons c text ih =>
      by_cases feed : c = '\n'
      · subst feed
        simp only [lineFeedsFrom, lineStartsFrom, if_true, List.map_cons, ih]
        rfl
      · simp only [lineFeedsFrom, lineStartsFrom, if_neg feed, ih]

/-- A line feed of a source that lies within a part of it is one of that part. -/
theorem lineFeed_mem_part {before part : List Char} (behind : List Char) {feed : Nat}
    (member : feed ∈ lineFeedsFrom 0 (before ++ (part ++ behind))) (start : byteLength before ≤ feed)
    (stop : feed < byteLength (before ++ part)) : '\n' ∈ part := by
  have begins : feed + 1 ∈ lineStartsFrom 0 (before ++ (part ++ behind)) := by
    rw [← map_lineFeedsFrom]
    exact List.mem_map_of_mem member
  simp only [lineStartsFrom_append, List.mem_append, byteLength_append, Nat.zero_add] at begins stop
  rcases begins with early | inside | late
  · have bound := le_of_mem_lineStartsFrom early
    omega
  · rw [← List.count_pos_iff, ← length_lineStartsFrom (byteLength before)]
    exact List.length_pos_of_mem inside
  · have bound := lt_of_mem_lineStartsFrom late
    omega

/-! ## Tokens of one span -/

/-- Two tokens of one span, with the text of the first one and the source between it and the other. -/
structure Between (source : List Char) (first next : Placed) (text gap : List Char) : Prop where
  spelled : ∃ position before behind,
    .code position (before ++ (text ++ (gap ++ behind))) ∈ pieces source ∧
      first.position = position + byteLength before ∧ first.token.Spells text (gap ++ behind)
  placed : ∃ before behind, source = before ++ (text ++ (gap ++ behind)) ∧
    first.position = byteLength before ∧ next.position = byteLength (before ++ (text ++ gap))

/-- A line feed from one token to another is in the text of the first or behind it. -/
theorem Between.lineFeed {source text gap : List Char} {first next : Placed} {feed : Nat}
    (between : Between source first next text gap) (member : feed ∈ lineFeedsFrom 0 source)
    (start : first.position ≤ feed) (stop : feed < next.position) : '\n' ∈ text ∨ '\n' ∈ gap := by
  obtain ⟨before, behind, rfl, place, nextPlace⟩ := between.placed
  rw [← List.mem_append]
  exact lineFeed_mem_part behind (by rwa [List.append_assoc]) (place ▸ start) (nextPlace ▸ stop)

theorem exists_between {source : List Char} (front : List Placed) {mids : List Placed} (back : List Placed)
    {first next : Placed} (scanned : scan source = .ok (front ++ (first :: (mids ++ [next]) ++ back)))
    (inCode : ∀ placed ∈ first :: (mids ++ [next]), placed.token.isCode = true) :
    ∃ text gap, Between source first next text gap ∧
      ∀ placed ∈ mids, placed.token = .symbol .semicolon → ';' ∈ gap := by
  obtain ⟨_, member, position, lead, code, others, more, rfl, read⟩ :=
    exists_holds_of_scan (List.cons_ne_nil first _) inCode scanned
  obtain ⟨ahead, rest, rfl, start⟩ := pieces_sliced source _ member
  simp only [List.cons_append, List.append_assoc, List.nil_append] at read
  obtain ⟨before, text, gap, behind, rfl, place, spells, nextPlace, semicolons⟩ :=
    exists_gap_of_lexFrom others read
  refine ⟨text, gap, ⟨⟨position, lead ++ before, behind, ?_, ?_, spells⟩,
    ⟨ahead ++ (lead ++ before), behind ++ rest, ?_, ?_, ?_⟩⟩, semicolons⟩
  · simpa using member
  · rw [place, byteLength_append, Nat.add_assoc]
  · simp
  · rw [place, byteLength_append, byteLength_append, start, Nat.add_assoc]
  · simp only [nextPlace, byteLength_append, start, Nat.add_assoc]

end StaticSite.Template
