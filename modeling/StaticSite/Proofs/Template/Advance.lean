import StaticSite.Proofs.Template.Recognition

/-!
How the parser moves. Whatever it is looking for, it takes the tokens at its cursor one by one, so that
behind a call the cursor still knows where the last token of the call began.
-/

namespace StaticSite.Template

variable {α β : Type}

/-- The cursor behind some of the tokens that were left. -/
structure Cursor.Passes (c : Cursor) (taken : List Placed) (left : Cursor) : Prop where
  tokens : c.tokens = taken ++ left.tokens
  previous : left.previous = (taken.map Placed.position).getLastD c.previous
  lineFeeds : left.lineFeeds = c.lineFeeds

namespace Cursor

variable {c middle left : Cursor} {ts us : List Placed}

theorem Passes.refl (c : Cursor) : c.Passes [] c := ⟨rfl, rfl, rfl⟩

theorem Passes.trans (first : c.Passes ts middle) (second : middle.Passes us left) :
    c.Passes (ts ++ us) left where
  tokens := by rw [first.tokens, second.tokens, List.append_assoc]
  previous := by
    rw [second.previous, first.previous]
    simp only [List.getLastD_eq_getLast?, List.map_append, List.getLast?_append, Option.getD_or]
  lineFeeds := second.lineFeeds.trans first.lineFeeds

theorem Passes.ahead (passes : c.Passes ts left) : c.ahead = ts.map Placed.token ++ left.ahead := by
  unfold Cursor.ahead
  rw [passes.tokens, List.map_append]

/-- Behind a token the cursor knows where it began. -/
theorem Passes.previous_concat {last : Placed} (passes : c.Passes (ts ++ [last]) left) :
    left.previous = last.position := by
  rw [passes.previous, List.map_append]
  exact List.getLastD_concat

theorem passes_advance {placed : Placed} {rest : List Placed} (tokens : c.tokens = placed :: rest) :
    c.Passes [placed] c.advance where
  tokens := by simp [advance, tokens]
  previous := by simp [advance, position, tokens]
  lineFeeds := rfl

theorem exists_passes_of_peek {token : Token} (peek : c.peek = token) (more : token ≠ .finish) :
    ∃ placed, placed.token = token ∧ c.Passes [placed] c.advance := by
  unfold Cursor.peek at peek
  split at peek
  · exact ⟨_, peek, passes_advance ‹_›⟩
  · exact absurd peek.symm more

theorem exists_passes_of_expect {s : Symbol} (expected : c.expect s = .ok left) :
    ∃ placed, placed.token = .symbol s ∧ c.Passes [placed] left := by
  unfold expect at expected
  split at expected
  · cases expected
    exact exists_passes_of_peek (peek_of_atSymbol ‹_›) (by simp)
  · cases expected

/-- A cursor that another comes to by going forward. -/
def Reaches (c left : Cursor) : Prop := ∃ taken, c.Passes taken left

theorem Reaches.refl (c : Cursor) : c.Reaches c := ⟨[], .refl c⟩

theorem Reaches.trans (first : c.Reaches middle) (second : middle.Reaches left) : c.Reaches left := by
  obtain ⟨ts, first⟩ := first
  obtain ⟨us, second⟩ := second
  exact ⟨ts ++ us, first.trans second⟩

theorem reaches_advance (c : Cursor) : c.Reaches c.advance := by
  cases tokens : c.tokens with
  | nil =>
      -- at the end there is nothing to pass, and the cursor stays where it is
      refine ⟨[], ?_, ?_, rfl⟩
      · simp [advance, tokens]
      · simp [advance, position, tokens]
  | cons placed rest => exact ⟨[placed], passes_advance tokens⟩

theorem reaches_skip (c : Cursor) (s : Symbol) : c.Reaches (c.skip s) := by
  unfold skip
  split
  · exact c.reaches_advance
  · exact .refl c

end Cursor

/-- A call that goes forward if it comes to a result. -/
def Onward (c : Cursor) (cursor : α → Cursor) (outcome : Except SyntaxError α) : Prop :=
  ∀ result, outcome = .ok result → c.Reaches (cursor result)

namespace Onward

variable {c middle : Cursor} {cursor : α → Cursor} {other : β → Cursor}

theorem ok {result : α} (reaches : c.Reaches (cursor result)) : Onward c cursor (.ok result) := by
  rintro _ ⟨⟩
  exact reaches

theorem error (error : SyntaxError) : Onward c cursor (.error error) := by
  rintro _ ⟨⟩

theorem behind {outcome : Except SyntaxError α} (onward : Onward middle cursor outcome)
    (reaches : c.Reaches middle) : Onward c cursor outcome :=
  fun result same => reaches.trans (onward result same)

theorem bind {first : Except SyntaxError α} {next : α → Except SyntaxError β}
    (onward : Onward c cursor first) (others : ∀ result, Onward (cursor result) other (next result)) :
    Onward c other (first >>= next) := by
  intro result same
  obtain ⟨value, first, second⟩ := bind_eq_ok.mp same
  exact (onward value first).trans (others value result second)

end Onward

section Small

variable (c : Cursor)

theorem onward_expect (s : Symbol) : Onward c id (c.expect s) := by
  unfold Cursor.expect
  split
  · exact .ok c.reaches_advance
  · exact .error _

theorem onward_identifier : Onward c Prod.snd c.identifier := by
  unfold Cursor.identifier
  split
  · exact .ok c.reaches_advance
  · exact .error _

theorem onward_objectKey (position : Nat) : Onward c Prod.snd (objectKey position c) := by
  unfold objectKey
  split
  · exact .ok c.reaches_advance
  · exact .ok c.reaches_advance
  · intro result read
    obtain ⟨value, -, same⟩ := bind_eq_ok.mp read
    cases same
    exact c.reaches_advance
  · exact .error _

end Small

/-- What each function of the expression parser does when its calls nest no deeper than a bound. -/
structure Advances (depth : Nat) : Prop where
  expr : ∀ c, Onward c Prod.snd (parseExpr depth c)
  binary : ∀ level c, Onward c Prod.snd (parseBinary depth level c)
  operators : ∀ level first c, Onward c Prod.snd (parseOperators depth level first c)
  unary : ∀ c, Onward c Prod.snd (parseUnary depth c)
  accesses : ∀ target c, Onward c Prod.snd (parseAccesses depth target c)
  primary : ∀ c, Onward c Prod.snd (parsePrimary depth c)
  items : ∀ close c, Onward c Prod.snd (parseItems depth close c)
  entries : ∀ position c, Onward c Prod.snd (parseEntries depth position c)

section Step

variable {depth : Nat} (below : Advances depth) (c : Cursor)
include below

theorem Advances.expr_step : Onward c Prod.snd (parseExpr (depth + 1) c) := by
  rw [parseExpr]
  apply (below.binary 0 c).bind
  rintro ⟨condition, c⟩
  dsimp only
  split
  · apply ((below.expr c.advance).behind c.reaches_advance).bind
    rintro ⟨yes, c⟩
    apply (onward_expect c .colon).bind
    intro c
    apply (below.expr c).bind
    rintro ⟨no, c⟩
    exact .ok (.refl c)
  · exact .ok (.refl c)

theorem Advances.binary_step (level : Nat) : Onward c Prod.snd (parseBinary (depth + 1) level c) := by
  rw [parseBinary]
  split
  · exact below.unary c
  · apply (below.binary (level + 1) c).bind
    rintro ⟨first, c⟩
    exact below.operators level first c

theorem Advances.operators_step (level : Nat) (first : Expr) :
    Onward c Prod.snd (parseOperators (depth + 1) level first c) := by
  rw [parseOperators]
  split
  · exact .ok (.refl c)
  · apply ((below.binary (level + 1) c.advance).behind c.reaches_advance).bind
    rintro ⟨second, c⟩
    exact below.operators level _ c

theorem Advances.unary_step : Onward c Prod.snd (parseUnary (depth + 1) c) := by
  rw [parseUnary]
  split
  · apply ((below.unary c.advance).behind c.reaches_advance).bind
    rintro ⟨operand, c⟩
    exact .ok (.refl c)
  · apply ((below.unary c.advance).behind c.reaches_advance).bind
    rintro ⟨operand, c⟩
    exact .ok (.refl c)
  · apply (below.primary c).bind
    rintro ⟨target, c⟩
    exact below.accesses target c

theorem Advances.accesses_step (target : Expr) :
    Onward c Prod.snd (parseAccesses (depth + 1) target c) := by
  rw [parseAccesses]
  split
  · apply ((onward_identifier c.advance).behind c.reaches_advance).bind
    rintro ⟨name, c⟩
    exact below.accesses _ c
  · apply ((below.expr c.advance).behind c.reaches_advance).bind
    rintro ⟨index, c⟩
    apply (onward_expect c .closeBracket).bind
    intro c
    exact below.accesses _ c
  · exact .error _
  · exact .ok (.refl c)

theorem Advances.primary_step : Onward c Prod.snd (parsePrimary (depth + 1) c) := by
  rw [parsePrimary]
  dsimp only
  split
  · intro result parsed
    obtain ⟨value, -, same⟩ := bind_eq_ok.mp parsed
    cases same
    exact c.reaches_advance
  · exact .ok c.reaches_advance
  · exact .ok c.reaches_advance
  · exact .ok c.reaches_advance
  · exact .ok c.reaches_advance
  · split
    · split
      · exact .error _
      · apply ((below.items .closeParen c.advance.advance).behind
          (c.reaches_advance.trans c.advance.reaches_advance)).bind
        rintro ⟨arguments, c⟩
        exact .ok (.refl c)
    · exact .ok c.reaches_advance
  · apply ((below.expr c.advance).behind c.reaches_advance).bind
    rintro ⟨inner, c⟩
    apply (onward_expect c .closeParen).bind
    intro c
    exact .ok (.refl c)
  · apply ((below.items .closeBracket c.advance).behind c.reaches_advance).bind
    rintro ⟨items, c⟩
    exact .ok (.refl c)
  · apply ((below.entries c.position c.advance).behind c.reaches_advance).bind
    rintro ⟨entries, c⟩
    exact .ok (.refl c)
  · exact .error _

theorem Advances.items_step (close : Symbol) : Onward c Prod.snd (parseItems (depth + 1) close c) := by
  rw [parseItems]
  split
  · exact .ok c.reaches_advance
  · apply (below.expr c).bind
    rintro ⟨item, c⟩
    dsimp only
    split
    · apply ((below.items close c.advance).behind c.reaches_advance).bind
      rintro ⟨items, c⟩
      exact .ok (.refl c)
    · apply (onward_expect c close).bind
      intro c
      exact .ok (.refl c)

theorem Advances.entries_step (position : Nat) :
    Onward c Prod.snd (parseEntries (depth + 1) position c) := by
  rw [parseEntries]
  split
  · exact .ok c.reaches_advance
  · apply (onward_objectKey c position).bind
    rintro ⟨key, c⟩
    apply (onward_expect c .colon).bind
    intro c
    apply (below.expr c).bind
    rintro ⟨value, c⟩
    dsimp only
    split
    · apply ((below.entries position c.advance).behind c.reaches_advance).bind
      rintro ⟨entries, c⟩
      exact .ok (.refl c)
    · apply (onward_expect c .closeBrace).bind
      intro c
      exact .ok (.refl c)

end Step

theorem advances (depth : Nat) : Advances depth := by
  -- on the depth that the parser may still go down to: every branch calls the others with one less
  induction depth with
  | zero =>
      constructor <;> intros
      · rw [parseExpr]; exact .error _
      · rw [parseBinary]; exact .error _
      · rw [parseOperators]; exact .error _
      · rw [parseUnary]; exact .error _
      · rw [parseAccesses]; exact .error _
      · rw [parsePrimary]; exact .error _
      · rw [parseItems]; exact .error _
      · rw [parseEntries]; exact .error _
  | succ depth below =>
      exact {
        expr := below.expr_step
        binary := fun level c => below.binary_step c level
        operators := fun level first c => below.operators_step c level first
        unary := below.unary_step
        accesses := fun target c => below.accesses_step c target
        primary := below.primary_step
        items := fun close c => below.items_step c close
        entries := fun position c => below.entries_step c position }

section Head

variable (depth : Nat) (c : Cursor)

theorem onward_loopEntries {parenthesized : Bool} {first : String} {second : Option String} :
    Onward c Prod.snd (do
      let c ←
        if c.atKeyword .inWord then pure c.advance
        else .error (c.unexpected (backquoted Keyword.inWord.text))
      let (entries, c) ← parseExpr depth c
      let c ← if parenthesized then c.expect .closeParen else pure c
      .ok ((first, second, entries), c)) := by
  dsimp only
  split
  · apply (((advances depth).expr c.advance).behind c.reaches_advance).bind
    rintro ⟨entries, c⟩
    dsimp only
    split
    · apply (onward_expect c .closeParen).bind
      intro c
      exact .ok (.refl c)
    · exact .ok (.refl c)
  · exact .error _

theorem onward_eachHead : Onward c Prod.snd (parseEachHead depth c) := by
  have start : c.Reaches
      (if (c.advance.skip .openParen).atKeyword .letWord then (c.advance.skip .openParen).advance
        else c.advance.skip .openParen) := by
    have opened := c.reaches_advance.trans (c.advance.reaches_skip .openParen)
    split
    · exact opened.trans (c.advance.skip .openParen).reaches_advance
    · exact opened
  apply ((onward_identifier _).behind start).bind
  rintro ⟨first, c⟩
  dsimp only
  split
  · apply ((onward_identifier c.advance).behind c.reaches_advance).bind
    rintro ⟨second, c⟩
    exact onward_loopEntries depth c
  · exact onward_loopEntries depth c

end Head

/-- What a call takes off the kinds of the tokens that are left, it takes off the tokens. -/
theorem Takes.exists_passes {c left : Cursor} {taken : List Token → Prop} (takes : Takes c left taken)
    (reaches : c.Reaches left) : ∃ ts, c.Passes ts left ∧ taken (ts.map Placed.token) := by
  obtain ⟨kinds, ahead, taken⟩ := takes
  obtain ⟨ts, passes⟩ := reaches
  obtain rfl : ts.map Placed.token = kinds :=
    List.append_cancel_right (passes.ahead.symm.trans ahead)
  exact ⟨ts, passes, taken⟩

end StaticSite.Template
