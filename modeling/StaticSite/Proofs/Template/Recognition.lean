import StaticSite.Proofs.Outcome
import StaticSite.Proofs.Template.Phrase

/-!
The expression parser accepts nothing but phrases of the grammar. What each of its functions takes off the
tokens that are left is a phrase of the expression that it gives back. No expression is left before an
opening parenthesis.
-/

namespace StaticSite.Template

open Json (Value)

namespace Cursor

variable {c left : Cursor} {token : Token}

theorem ahead_of_peek (peek : c.peek = token) (more : token ≠ .finish) :
    c.ahead = token :: c.advance.ahead := by
  rw [peek_eq_headD] at peek
  rw [ahead_advance]
  cases ahead : c.ahead with
  | nil =>
      rw [ahead] at peek
      exact absurd peek.symm more
  | cons found rest =>
      rw [ahead] at peek
      rw [← peek]
      rfl

theorem peek_of_atSymbol {s : Symbol} (found : c.atSymbol s = true) : c.peek = .symbol s := by
  unfold atSymbol at found
  split at found
  · rename_i kind peek
    rw [peek, eq_of_beq found]
  · cases found

theorem ahead_of_atSymbol {s : Symbol} (found : c.atSymbol s = true) :
    c.ahead = .symbol s :: c.advance.ahead :=
  ahead_of_peek (peek_of_atSymbol found) (by simp)

theorem ahead_of_expect {s : Symbol} (expected : c.expect s = .ok left) :
    c.ahead = .symbol s :: left.ahead := by
  unfold expect at expected
  split at expected
  · cases expected
    exact ahead_of_atSymbol ‹_›
  · cases expected

theorem ahead_of_identifier {name : String} (named : c.identifier = .ok (name, left)) :
    c.ahead = .identifier name :: left.ahead := by
  unfold identifier at named
  split at named
  · cases named
    exact ahead_of_peek ‹_› (by simp)
  · cases named

end Cursor

theorem ofFloat_of_numberLiteral {position : Nat} {f : Float} {value : Value}
    (read : numberLiteral position f = .ok value) : ofFloat f = .ok value := by
  unfold numberLiteral at read
  split at read <;> cases read
  assumption

theorem exists_key_of_objectKey {position : Nat} {c left : Cursor} {key : String}
    (read : objectKey position c = .ok (key, left)) :
    ∃ token, c.ahead = token :: left.ahead ∧ token.key? = some key := by
  unfold objectKey at read
  split at read
  · rename_i name peek
    cases read
    exact ⟨_, Cursor.ahead_of_peek peek (by simp), rfl⟩
  · rename_i name peek
    cases read
    exact ⟨_, Cursor.ahead_of_peek peek (by simp), rfl⟩
  · rename_i f peek
    obtain ⟨value, number, same⟩ := bind_eq_ok.mp read
    cases same
    exact ⟨_, Cursor.ahead_of_peek peek (by simp), by
      simp only [Token.key?, ofFloat_of_numberLiteral number]⟩
  · cases read

theorem eq_token_of_operatorAt? {level : Nat} {token : Token} {operator : BinaryOperator}
    (found : operatorAt? level token = some operator) :
    token = operator.token ∧ operator.level = level := by
  unfold operatorAt? at found
  simp only [Option.filter_eq_some_iff, beq_iff_eq] at found
  obtain ⟨found, sameLevel⟩ := found
  refine ⟨?_, sameLevel⟩
  split at found <;> cases found <;> rfl

/-- What a function of the parser takes off the tokens up to those that it leaves. -/
def Takes (c left : Cursor) (taken : List Token → Prop) : Prop :=
  ∃ ts, c.ahead = ts ++ left.ahead ∧ taken ts

/-- A call or a grouping does not begin at what is left. -/
def Uncalled (left : Cursor) : Prop := left.peek ≠ .symbol .openParen

/-- What each function of the expression parser accepts when its calls nest no deeper than a bound. -/
structure Recognizes (depth : Nat) : Prop where
  expr : ∀ {c left e}, parseExpr depth c = .ok (e, left) →
    Takes c left (Phrase 0 e.unplaced) ∧ Uncalled left
  binary : ∀ {level c left e}, level ≤ 6 → parseBinary depth level c = .ok (e, left) →
    Takes c left (Phrase (level + 1) e.unplaced) ∧ Uncalled left
  operators : ∀ {level c left first e fs}, level ≤ 5 → Phrase (level + 1) (Expr.unplaced first) fs →
    Uncalled c → parseOperators depth level first c = .ok (e, left) →
    Takes c left (fun ts => Phrase (level + 1) e.unplaced (fs ++ ts)) ∧ Uncalled left
  unary : ∀ {c left e}, parseUnary depth c = .ok (e, left) →
    Takes c left (Phrase 7 e.unplaced) ∧ Uncalled left
  accesses : ∀ {c left target e fs}, Phrase 8 (Expr.unplaced target) fs →
    parseAccesses depth target c = .ok (e, left) →
    Takes c left (fun ts => Phrase 8 e.unplaced (fs ++ ts)) ∧ Uncalled left
  primary : ∀ {c left e}, parsePrimary depth c = .ok (e, left) → Takes c left (Phrase 8 e.unplaced)
  items : ∀ {close c left es}, parseItems depth close c = .ok (es, left) →
    Takes c left (Items close (Expr.unplacedItems es))
  entries : ∀ {position c left es}, parseEntries depth position c = .ok (es, left) →
    Takes c left (Entries (Expr.unplacedEntries es))

section Step

variable {depth : Nat} {c left : Cursor}

theorem Recognizes.expr_step (below : Recognizes depth) {e : Expr}
    (parsed : parseExpr (depth + 1) c = .ok (e, left)) :
    Takes c left (Phrase 0 e.unplaced) ∧ Uncalled left := by
  rw [parseExpr] at parsed
  obtain ⟨⟨condition, behind⟩, first, parsed⟩ := bind_eq_ok.mp parsed
  obtain ⟨⟨cs, taken, phrase⟩, uncalled⟩ := below.binary (by omega) first
  dsimp only at parsed
  split at parsed
  · rename_i question
    obtain ⟨⟨yes, atColon⟩, second, parsed⟩ := bind_eq_ok.mp parsed
    obtain ⟨afterColon, colon, parsed⟩ := bind_eq_ok.mp parsed
    obtain ⟨⟨no, last⟩, third, parsed⟩ := bind_eq_ok.mp parsed
    cases parsed
    obtain ⟨⟨ys, takenYes, yesPhrase⟩, -⟩ := below.expr second
    obtain ⟨⟨ns, takenNo, noPhrase⟩, uncalled⟩ := below.expr third
    refine ⟨⟨cs ++ .symbol .question :: (ys ++ .symbol .colon :: ns), ?_, ?_⟩, uncalled⟩
    · rw [taken, Cursor.ahead_of_atSymbol question, takenYes, Cursor.ahead_of_expect colon, takenNo]
      simp
    · rw [Expr.unplaced]
      exact .conditional phrase yesPhrase noPhrase
  · cases parsed
    exact ⟨⟨cs, taken, .loosen phrase⟩, uncalled⟩

theorem Recognizes.binary_step (below : Recognizes depth) {level : Nat} {e : Expr} (bound : level ≤ 6)
    (parsed : parseBinary (depth + 1) level c = .ok (e, left)) :
    Takes c left (Phrase (level + 1) e.unplaced) ∧ Uncalled left := by
  rw [parseBinary] at parsed
  split at parsed
  · rename_i tighter
    obtain rfl : level = 6 := by simp only [tightestLevel] at tighter; omega
    exact below.unary parsed
  · rename_i loose
    simp only [tightestLevel] at loose
    obtain ⟨⟨first, behind⟩, operand, parsed⟩ := bind_eq_ok.mp parsed
    obtain ⟨⟨fs, taken, phrase⟩, uncalled⟩ := below.binary (by omega) operand
    obtain ⟨⟨ts, takenOthers, whole⟩, uncalled⟩ :=
      below.operators (by omega) (.loosen phrase) uncalled parsed
    exact ⟨⟨fs ++ ts, by rw [taken, takenOthers, List.append_assoc], whole⟩, uncalled⟩

theorem Recognizes.operators_step (below : Recognizes depth) {level : Nat} {first e : Expr}
    {fs : List Token} (bound : level ≤ 5) (phrase : Phrase (level + 1) first.unplaced fs)
    (uncalled : Uncalled c) (parsed : parseOperators (depth + 1) level first c = .ok (e, left)) :
    Takes c left (fun ts => Phrase (level + 1) e.unplaced (fs ++ ts)) ∧ Uncalled left := by
  rw [parseOperators] at parsed
  split at parsed
  · cases parsed
    exact ⟨⟨[], rfl, by simpa using phrase⟩, uncalled⟩
  · rename_i operator found
    obtain ⟨isOperator, rfl⟩ := eq_token_of_operatorAt? found
    obtain ⟨⟨second, behind⟩, operand, parsed⟩ := bind_eq_ok.mp parsed
    obtain ⟨⟨ss, taken, right⟩, uncalled⟩ := below.binary (by omega) operand
    have both : Phrase (operator.level + 1) (Expr.binary first.position operator first second).unplaced
        (fs ++ operator.token :: ss) := by
      rw [Expr.unplaced]
      exact .binary operator phrase right
    obtain ⟨⟨ts, takenOthers, whole⟩, uncalled⟩ := below.operators bound both uncalled parsed
    refine ⟨⟨operator.token :: (ss ++ ts), ?_, ?_⟩, uncalled⟩
    · rw [Cursor.ahead_of_peek isOperator (by cases operator <;> simp [BinaryOperator.token]), taken,
        takenOthers]
      simp
    · simpa using whole

theorem Recognizes.unary_step (below : Recognizes depth) {e : Expr}
    (parsed : parseUnary (depth + 1) c = .ok (e, left)) :
    Takes c left (Phrase 7 e.unplaced) ∧ Uncalled left := by
  rw [parseUnary] at parsed
  split at parsed
  · rename_i bang
    obtain ⟨⟨operand, behind⟩, inner, parsed⟩ := bind_eq_ok.mp parsed
    cases parsed
    obtain ⟨⟨ts, taken, phrase⟩, uncalled⟩ := below.unary inner
    refine ⟨⟨_, ?_, .unary .not phrase⟩, uncalled⟩
    rw [Cursor.ahead_of_peek bang (by simp), taken]
    rfl
  · rename_i minus
    obtain ⟨⟨operand, behind⟩, inner, parsed⟩ := bind_eq_ok.mp parsed
    cases parsed
    obtain ⟨⟨ts, taken, phrase⟩, uncalled⟩ := below.unary inner
    refine ⟨⟨_, ?_, .unary .negate phrase⟩, uncalled⟩
    rw [Cursor.ahead_of_peek minus (by simp), taken]
    rfl
  · obtain ⟨⟨target, behind⟩, inner, parsed⟩ := bind_eq_ok.mp parsed
    obtain ⟨fs, taken, phrase⟩ := below.primary inner
    obtain ⟨⟨ts, takenOthers, whole⟩, uncalled⟩ := below.accesses phrase parsed
    exact ⟨⟨fs ++ ts, by rw [taken, takenOthers, List.append_assoc], .loosen whole⟩, uncalled⟩

theorem Recognizes.accesses_step (below : Recognizes depth) {target e : Expr} {fs : List Token}
    (phrase : Phrase 8 target.unplaced fs)
    (parsed : parseAccesses (depth + 1) target c = .ok (e, left)) :
    Takes c left (fun ts => Phrase 8 e.unplaced (fs ++ ts)) ∧ Uncalled left := by
  rw [parseAccesses] at parsed
  split at parsed
  · rename_i dot
    obtain ⟨⟨name, behind⟩, named, parsed⟩ := bind_eq_ok.mp parsed
    have member : Phrase 8 (Expr.member target.position target name).unplaced
        (fs ++ [.symbol .dot, .identifier name]) := by
      rw [Expr.unplaced]
      exact .member phrase name
    obtain ⟨⟨ts, taken, whole⟩, uncalled⟩ := below.accesses member parsed
    refine ⟨⟨.symbol .dot :: .identifier name :: ts, ?_, by simpa using whole⟩, uncalled⟩
    rw [Cursor.ahead_of_peek dot (by simp), Cursor.ahead_of_identifier named, taken]
    rfl
  · rename_i bracket
    obtain ⟨⟨key, atClose⟩, inner, parsed⟩ := bind_eq_ok.mp parsed
    obtain ⟨behind, close, parsed⟩ := bind_eq_ok.mp parsed
    obtain ⟨⟨ks, takenKey, keyPhrase⟩, -⟩ := below.expr inner
    have index : Phrase 8 (Expr.index target.position target key).unplaced
        (fs ++ .symbol .openBracket :: (ks ++ [.symbol .closeBracket])) := by
      rw [Expr.unplaced]
      exact .index phrase keyPhrase
    obtain ⟨⟨ts, taken, whole⟩, uncalled⟩ := below.accesses index parsed
    refine ⟨⟨.symbol .openBracket :: (ks ++ .symbol .closeBracket :: ts), ?_, by simpa using whole⟩,
      uncalled⟩
    rw [Cursor.ahead_of_peek bracket (by simp), takenKey, Cursor.ahead_of_expect close, taken]
    simp
  · cases parsed
  · rename_i uncalled
    cases parsed
    exact ⟨⟨[], rfl, by simpa using phrase⟩, uncalled⟩

theorem takes_literal {token : Token} {position : Nat} {value : Value} (peek : c.peek = token)
    (denotes : token.value? = some value) :
    Takes c c.advance (Phrase 8 (Expr.literal position value).unplaced) := by
  refine ⟨[token], Cursor.ahead_of_peek peek ?_, ?_⟩
  · rintro rfl
    cases denotes
  · rw [Expr.unplaced]
    exact .literal denotes

theorem Recognizes.primary_step (below : Recognizes depth) {e : Expr}
    (parsed : parsePrimary (depth + 1) c = .ok (e, left)) : Takes c left (Phrase 8 e.unplaced) := by
  rw [parsePrimary] at parsed
  dsimp only at parsed
  split at parsed
  · rename_i f peek
    obtain ⟨value, number, parsed⟩ := bind_eq_ok.mp parsed
    cases parsed
    exact takes_literal peek (by simp only [Token.value?, ofFloat_of_numberLiteral number])
  · cases parsed
    exact takes_literal ‹_› rfl
  · cases parsed
    exact takes_literal ‹_› rfl
  · cases parsed
    exact takes_literal ‹_› rfl
  · cases parsed
    exact takes_literal ‹_› rfl
  · rename_i name peek
    have taken := Cursor.ahead_of_peek peek (by simp)
    split at parsed
    · rename_i called
      split at parsed
      · cases parsed
      · rename_i callable
        obtain ⟨⟨arguments, behind⟩, inner, parsed⟩ := bind_eq_ok.mp parsed
        cases parsed
        obtain ⟨ts, takenItems, items⟩ := below.items inner
        refine ⟨_, ?_, .call (by simpa using callable) items⟩
        rw [taken, Cursor.ahead_of_atSymbol called, takenItems]
        rfl
    · cases parsed
      exact ⟨_, taken, .variable name⟩
  · rename_i paren
    obtain ⟨⟨inner, atClose⟩, expr, parsed⟩ := bind_eq_ok.mp parsed
    obtain ⟨behind, close, parsed⟩ := bind_eq_ok.mp parsed
    cases parsed
    obtain ⟨⟨ts, taken, phrase⟩, -⟩ := below.expr expr
    refine ⟨_, ?_, .group phrase⟩
    rw [Cursor.ahead_of_peek paren (by simp), taken, Cursor.ahead_of_expect close]
    simp
  · rename_i bracket
    obtain ⟨⟨found, behind⟩, inner, parsed⟩ := bind_eq_ok.mp parsed
    cases parsed
    obtain ⟨ts, taken, items⟩ := below.items inner
    refine ⟨_, ?_, .array items⟩
    rw [Cursor.ahead_of_peek bracket (by simp), taken]
    rfl
  · rename_i brace
    obtain ⟨⟨found, behind⟩, inner, parsed⟩ := bind_eq_ok.mp parsed
    cases parsed
    obtain ⟨ts, taken, entries⟩ := below.entries inner
    refine ⟨_, ?_, .object entries⟩
    rw [Cursor.ahead_of_peek brace (by simp), taken]
    rfl
  · cases parsed

theorem Recognizes.items_step (below : Recognizes depth) {close : Symbol} {es : List Expr}
    (parsed : parseItems (depth + 1) close c = .ok (es, left)) :
    Takes c left (Items close (Expr.unplacedItems es)) := by
  rw [parseItems] at parsed
  split at parsed
  · cases parsed
    exact ⟨_, Cursor.ahead_of_atSymbol ‹_›, .none⟩
  · obtain ⟨⟨item, behind⟩, first, parsed⟩ := bind_eq_ok.mp parsed
    obtain ⟨⟨ts, taken, phrase⟩, -⟩ := below.expr first
    dsimp only at parsed
    split at parsed
    · rename_i comma
      obtain ⟨⟨items, last⟩, others, parsed⟩ := bind_eq_ok.mp parsed
      cases parsed
      obtain ⟨us, takenOthers, more⟩ := below.items others
      refine ⟨_, ?_, .cons phrase more⟩
      rw [taken, Cursor.ahead_of_atSymbol comma, takenOthers]
      simp
    · obtain ⟨last, closed, parsed⟩ := bind_eq_ok.mp parsed
      cases parsed
      refine ⟨_, ?_, .last phrase⟩
      rw [taken, Cursor.ahead_of_expect closed]
      simp

theorem Recognizes.entries_step (below : Recognizes depth) {position : Nat}
    {es : List (String × Expr)} (parsed : parseEntries (depth + 1) position c = .ok (es, left)) :
    Takes c left (Entries (Expr.unplacedEntries es)) := by
  rw [parseEntries] at parsed
  split at parsed
  · cases parsed
    exact ⟨_, Cursor.ahead_of_atSymbol ‹_›, .none⟩
  · obtain ⟨⟨key, atColon⟩, keyed, parsed⟩ := bind_eq_ok.mp parsed
    obtain ⟨afterColon, colon, parsed⟩ := bind_eq_ok.mp parsed
    obtain ⟨⟨value, behind⟩, first, parsed⟩ := bind_eq_ok.mp parsed
    obtain ⟨token, takenKey, names⟩ := exists_key_of_objectKey keyed
    obtain ⟨⟨ts, taken, phrase⟩, -⟩ := below.expr first
    dsimp only at parsed
    split at parsed
    · rename_i comma
      obtain ⟨⟨entries, last⟩, others, parsed⟩ := bind_eq_ok.mp parsed
      cases parsed
      obtain ⟨us, takenOthers, more⟩ := below.entries others
      refine ⟨_, ?_, .cons names phrase more⟩
      rw [takenKey, Cursor.ahead_of_expect colon, taken, Cursor.ahead_of_atSymbol comma, takenOthers]
      simp
    · obtain ⟨last, closed, parsed⟩ := bind_eq_ok.mp parsed
      cases parsed
      refine ⟨_, ?_, .last names phrase⟩
      rw [takenKey, Cursor.ahead_of_expect colon, taken, Cursor.ahead_of_expect closed]
      simp

end Step

/-- Whatever bound the calls of the parser have, it accepts nothing but phrases. -/
theorem recognizes (depth : Nat) : Recognizes depth := by
  -- on the depth that the parser may still go down to: every branch calls the others with one less
  induction depth with
  | zero =>
      constructor <;> intros <;> rename_i parsed
      · rw [parseExpr] at parsed; cases parsed
      · rw [parseBinary] at parsed; cases parsed
      · rw [parseOperators] at parsed; cases parsed
      · rw [parseUnary] at parsed; cases parsed
      · rw [parseAccesses] at parsed; cases parsed
      · rw [parsePrimary] at parsed; cases parsed
      · rw [parseItems] at parsed; cases parsed
      · rw [parseEntries] at parsed; cases parsed
  | succ depth below =>
      exact ⟨below.expr_step, below.binary_step, below.operators_step, below.unary_step,
        below.accesses_step, below.primary_step, below.items_step, below.entries_step⟩

end StaticSite.Template
