import StaticSite.Proofs.Decimal.Sign
import StaticSite.Proofs.Json.Fields
import StaticSite.Proofs.Template.Literal
import StaticSite.Proofs.Template.Spans

/-!
The grammar of literals, with the value that each denotes. The parser of literals reads any expression and
sorts out afterwards; what it accepts is this grammar, and nothing that computes anything, however deep it
stands.
-/

namespace StaticSite.Template

open Json (Value Number Fields)

mutual

/-- The tokens of a literal, and the value that it denotes. -/
inductive Denotes : Value → List Token → Prop
  | literal (denotes : Token.value? token = some value) : Denotes value [token]
  | minus (number : Denotes (.number n) ts) : Denotes (.number (opposite n)) (.symbol .minus :: ts)
  | group (inner : Denotes value ts) :
      Denotes value (.symbol .openParen :: (ts ++ [.symbol .closeParen]))
  | array (items : DenotesItems values ts) : Denotes (.array values) (.symbol .openBracket :: ts)
  | object (entries : DenotesEntries members ts) :
      Denotes (.object (Fields.ofList members)) (.symbol .openBrace :: ts)

/-- The tokens of literals with commas between them and the bracket that closes them; a comma may stand
before it. -/
inductive DenotesItems : List Value → List Token → Prop
  | none : DenotesItems [] [.symbol .closeBracket]
  | last (item : Denotes value ts) : DenotesItems [value] (ts ++ [.symbol .closeBracket])
  | cons (item : Denotes value ts) (others : DenotesItems values us) :
      DenotesItems (value :: values) (ts ++ .symbol .comma :: us)

/-- The tokens of keys with their literals, with commas between them and the brace that closes them; a
comma may stand before it. -/
inductive DenotesEntries : List (String × Value) → List Token → Prop
  | none : DenotesEntries [] [.symbol .closeBrace]
  | last (names : Token.key? token = some key) (item : Denotes value ts) :
      DenotesEntries [(key, value)] (token :: .symbol .colon :: (ts ++ [.symbol .closeBrace]))
  | cons (names : Token.key? token = some key) (item : Denotes value ts)
      (others : DenotesEntries members us) :
      DenotesEntries ((key, value) :: members) (token :: .symbol .colon :: (ts ++ .symbol .comma :: us))

end

/-- Of the numbers, those that are finite are literals. -/
theorem isSome_value?_number (f : Float) : (Token.number f).value?.isSome = f.isFinite := by
  cases number : ofFloat f with
  | ok value => simp [Token.value?, number, isFinite_of_ofFloat number]
  | error error =>
      cases finite : f.isFinite with
      | false => simp [Token.value?, number]
      | true =>
          obtain ⟨n, found⟩ := exists_ofFloat finite
          rw [found] at number
          cases number

theorem exists_float_of_value? {token : Token} (denotes : token.value? = some (.number n)) :
    ∃ f, ofFloat f = .ok (.number n) := by
  cases token with
  | number f =>
      simp only [Token.value?] at denotes
      split at denotes
      · cases denotes
        exact ⟨f, ‹_›⟩
      · cases denotes
  | keyword word => cases word <;> cases denotes
  | string s => cases denotes
  | _ => cases denotes

/-- The numbers that literals denote are floats that were converted. -/
theorem Denotes.exists_float : ∀ {value ts}, Denotes value ts → ∀ {n}, value = .number n →
    ∃ f, ofFloat f = .ok (.number n)
  | _, _, .literal denotes, _, rfl => exists_float_of_value? denotes
  | _, _, .minus number, _, rfl => by
      obtain ⟨f, converted⟩ := number.exists_float rfl
      exact ⟨_, ofFloat_neg_toFloat converted⟩
  | _, _, .group inner, _, same => inner.exists_float same

/-! ## Literals are expressions -/

theorem constant_negate {operand : Expr} (number : constant operand = .ok (.number n))
    (converted : ofFloat f = .ok (.number n)) :
    constant (.unary 0 .negate operand) = .ok (.number (opposite n)) := by
  simp only [constant, number, bind, Except.bind, ofFloat_neg_toFloat converted]

mutual

/-- Literals are phrases of expressions that have their values. -/
theorem Denotes.exists_phrase : ∀ {value ts}, Denotes value ts →
    ∃ e, Phrase 7 e ts ∧ constant e = .ok value
  | _, _, .literal denotes => ⟨_, .loosen (.literal denotes), by rw [constant]⟩
  | _, _, .minus number => by
      obtain ⟨f, converted⟩ := number.exists_float rfl
      obtain ⟨e, phrase, denotes⟩ := number.exists_phrase
      exact ⟨_, .unary .negate phrase, constant_negate denotes converted⟩
  | _, _, .group inner => by
      obtain ⟨e, phrase, denotes⟩ := inner.exists_phrase
      exact ⟨e, .loosen (.group (phrase.weaken (Nat.zero_le _))), denotes⟩
  | _, _, .array items => by
      obtain ⟨es, phrases, denote⟩ := items.exists_items
      exact ⟨_, .loosen (.array phrases), by simp only [constant, denote, bind, Except.bind]⟩
  | _, _, .object entries => by
      obtain ⟨es, phrases, denote⟩ := entries.exists_entries
      exact ⟨_, .loosen (.object phrases), by simp only [constant, denote, bind, Except.bind]⟩

theorem DenotesItems.exists_items : ∀ {values ts}, DenotesItems values ts →
    ∃ es, Items .closeBracket es ts ∧ constants es = .ok values
  | _, _, .none => ⟨[], .none, by rw [constants]⟩
  | _, _, .last item => by
      obtain ⟨e, phrase, denotes⟩ := item.exists_phrase
      exact ⟨[e], .last (phrase.weaken (Nat.zero_le _)), by
        simp only [constants, denotes, bind, Except.bind]⟩
  | _, _, .cons item others => by
      obtain ⟨e, phrase, denotes⟩ := item.exists_phrase
      obtain ⟨es, phrases, denote⟩ := others.exists_items
      exact ⟨e :: es, .cons (phrase.weaken (Nat.zero_le _)) phrases, by
        simp only [constants, denotes, denote, bind, Except.bind]⟩

theorem DenotesEntries.exists_entries : ∀ {members ts}, DenotesEntries members ts →
    ∃ es, Entries es ts ∧ constantMembers es = .ok members
  | _, _, .none => ⟨[], .none, by rw [constantMembers]⟩
  | _, _, .last names item => by
      obtain ⟨e, phrase, denotes⟩ := item.exists_phrase
      exact ⟨_, .last names (phrase.weaken (Nat.zero_le _)), by
        simp only [constantMembers, denotes, bind, Except.bind]⟩
  | _, _, .cons names item others => by
      obtain ⟨e, phrase, denotes⟩ := item.exists_phrase
      obtain ⟨es, phrases, denote⟩ := others.exists_entries
      exact ⟨_, .cons names (phrase.weaken (Nat.zero_le _)) phrases, by
        simp only [constantMembers, denotes, denote, bind, Except.bind]⟩

end

/-! ## Expressions that have a value are literals -/

/-- Whether an expression computes something from its parts or from the variables: it is a variable, a
call, an access, a conditional or an operator other than the minus sign. -/
def Expr.computes : Expr → Bool
  | .literal _ _ | .array _ _ | .object _ _ | .unary _ .negate _ => false
  | .variable _ _ | .call _ _ _ | .member _ _ _ | .index _ _ _ | .conditional _ _ _ _ | .binary _ _ _ _
  | .unary _ .not _ => true

/-- The expressions that an expression is immediately put together from. -/
def Expr.operands : Expr → List Expr
  | .literal _ _ | .variable _ _ => []
  | .array _ items => items
  | .object _ entries => entries.map Prod.snd
  | .member _ target _ => [target]
  | .index _ target key => [target, key]
  | .call _ _ arguments => arguments
  | .unary _ _ operand => [operand]
  | .binary _ _ left right => [left, right]
  | .conditional _ condition yes no => [condition, yes, no]

/-- An expression stands in another one, at whatever depth. -/
inductive Expr.Within (inner : Expr) : Expr → Prop
  | here : Within inner inner
  | deeper (isOperand : operand ∈ Expr.operands e) (within : Within inner operand) : Within inner e

theorem computes_eq_false_of_constant {e : Expr} (denotes : constant e = .ok value) : e.computes = false := by
  cases e with
  | literal | array | object => rfl
  | unary _ operator _ =>
      cases operator with
      | negate => rfl
      | not => simp [constant] at denotes
  | _ => simp [constant] at denotes

theorem exists_of_constant_negate {position : Nat} {operand : Expr}
    (denotes : constant (.unary position .negate operand) = .ok value) :
    ∃ n, constant operand = .ok (.number n) ∧ ofFloat (-n.toFloat) = .ok value := by
  rw [constant] at denotes
  obtain ⟨found, inner, denotes⟩ := bind_eq_ok.mp denotes
  split at denotes
  · rename_i n
    split at denotes
    · cases denotes
      exact ⟨n, inner, ‹_›⟩
    · cases denotes
  · cases denotes

theorem exists_constant_of_mem {items : List Expr} (denote : constants items = .ok values) :
    ∀ item ∈ items, ∃ value, constant item = .ok value := by
  induction items generalizing values with
  | nil => simp
  | cons item rest ih =>
      rw [constants] at denote
      obtain ⟨value, first, denote⟩ := bind_eq_ok.mp denote
      obtain ⟨others, behind, -⟩ := bind_eq_ok.mp denote
      rintro _ (_ | ⟨_, member⟩)
      · exact ⟨value, first⟩
      · exact ih behind _ member

theorem exists_constant_of_mem_entries {entries : List (String × Expr)}
    (denote : constantMembers entries = .ok members) :
    ∀ item ∈ entries.map Prod.snd, ∃ value, constant item = .ok value := by
  induction entries generalizing members with
  | nil => simp
  | cons entry rest ih =>
      obtain ⟨key, item⟩ := entry
      rw [constantMembers] at denote
      obtain ⟨value, first, denote⟩ := bind_eq_ok.mp denote
      obtain ⟨others, behind, -⟩ := bind_eq_ok.mp denote
      rintro _ (_ | ⟨_, member⟩)
      · exact ⟨value, first⟩
      · exact ih behind _ member

/-- What a literal is put together from are literals. -/
theorem exists_constant_of_mem_operands {e : Expr} (denotes : constant e = .ok value) :
    ∀ operand ∈ e.operands, ∃ inner, constant operand = .ok inner := by
  have literal := computes_eq_false_of_constant denotes
  cases e with
  | literal => simp [Expr.operands]
  | array =>
      rw [constant] at denotes
      obtain ⟨values, items, -⟩ := bind_eq_ok.mp denotes
      exact exists_constant_of_mem items
  | object =>
      rw [constant] at denotes
      obtain ⟨members, entries, -⟩ := bind_eq_ok.mp denotes
      exact exists_constant_of_mem_entries entries
  | unary position operator operand =>
      cases operator with
      | negate =>
          obtain ⟨n, inner, -⟩ := exists_of_constant_negate denotes
          simpa [Expr.operands] using ⟨_, inner⟩
      | not => cases literal
  | _ => cases literal

/-- Nothing computes anything within a literal. -/
theorem computes_eq_false_of_within {e inner : Expr} (within : inner.Within e) :
    ∀ {value}, constant e = .ok value → inner.computes = false := by
  induction within with
  | here => exact computes_eq_false_of_constant
  | deeper isOperand _ ih =>
      intro value denotes
      obtain ⟨value, operand⟩ := exists_constant_of_mem_operands denotes _ isOperand
      exact ih operand

mutual

/-- A phrase of an expression that has a value is a literal. -/
theorem Phrase.denotes : ∀ {level e ts}, Phrase level e ts → ∀ {value}, constant e = .ok value →
    Denotes value ts
  | _, _, _, .loosen tighter, _, denotes => tighter.denotes denotes
  | _, _, _, .literal token, _, denotes => by
      rw [constant] at denotes
      cases denotes
      exact .literal token
  | _, _, _, .unary .negate operand, value, denotes => by
      obtain ⟨n, inner, negated⟩ := exists_of_constant_negate denotes
      have number := operand.denotes inner
      obtain ⟨f, converted⟩ := number.exists_float rfl
      rw [ofFloat_neg_toFloat converted] at negated
      cases negated
      exact .minus number
  | _, _, _, .group inner, _, denotes => .group (inner.denotes denotes)
  | _, _, _, .array items, _, denotes => by
      rw [constant] at denotes
      obtain ⟨values, inner, same⟩ := bind_eq_ok.mp denotes
      cases same
      exact .array (items.denotes rfl inner)
  | _, _, _, .object entries, _, denotes => by
      rw [constant] at denotes
      obtain ⟨members, inner, same⟩ := bind_eq_ok.mp denotes
      cases same
      exact .object (entries.denotes inner)
  | _, _, _, .conditional _ _ _, _, denotes | _, _, _, .binary _ _ _, _, denotes
  | _, _, _, .unary .not _, _, denotes | _, _, _, .member _ _, _, denotes
  | _, _, _, .index _ _, _, denotes | _, _, _, .variable _, _, denotes | _, _, _, .call _ _, _, denotes => by
      cases computes_eq_false_of_constant denotes

theorem Items.denotes : ∀ {close es ts}, Items close es ts → close = .closeBracket →
    ∀ {values}, constants es = .ok values → DenotesItems values ts
  | _, _, _, .none, rfl, _, denote => by
      cases denote
      exact .none
  | _, _, _, .last item, rfl, _, denote => by
      obtain ⟨value, first, denote⟩ := bind_eq_ok.mp denote
      cases denote
      exact .last (item.denotes first)
  | _, _, _, .cons item others, rfl, _, denote => by
      obtain ⟨value, first, denote⟩ := bind_eq_ok.mp denote
      obtain ⟨values, behind, same⟩ := bind_eq_ok.mp denote
      cases same
      exact .cons (item.denotes first) (others.denotes rfl behind)

theorem Entries.denotes : ∀ {es ts}, Entries es ts → ∀ {members}, constantMembers es = .ok members →
    DenotesEntries members ts
  | _, _, .none, _, denote => by
      cases denote
      exact .none
  | _, _, .last names item, _, denote => by
      obtain ⟨value, first, denote⟩ := bind_eq_ok.mp denote
      cases denote
      exact .last names (item.denotes first)
  | _, _, .cons names item others, _, denote => by
      obtain ⟨value, first, denote⟩ := bind_eq_ok.mp denote
      obtain ⟨members, behind, same⟩ := bind_eq_ok.mp denote
      cases same
      exact .cons names (item.denotes first) (others.denotes behind)

end

/-- The tokens of a source that is accepted are a phrase of the expression that is read. -/
theorem exists_phrase_of_parseLiteral {source : List Char} {placed : List Placed}
    (read : lexFrom 0 source = .ok placed) (parsed : parseLiteral source = .ok value) :
    ∃ e, Phrase 0 e (placed.map Placed.token) ∧ constant e = .ok value := by
  obtain ⟨tokens, lexed, parsed⟩ := bind_eq_ok.mp parsed
  rw [read] at lexed
  cases lexed
  obtain ⟨⟨e, left⟩, expr, parsed⟩ := bind_eq_ok.mp parsed
  dsimp only at parsed
  split at parsed
  · rename_i finished
    obtain ⟨⟨ts, taken, phrase⟩, -⟩ := (recognizes _).expr expr
    rw [Cursor.peek_eq_headD] at finished
    have same : placed.map Placed.token ++ [.finish] = ts ++ left.ahead := by
      simpa [Cursor.ahead, Cursor.start] using taken
    have ended := eq_nil_or_finish same (finish_not_mem_lexFrom read) finished
    have noFinish : Token.finish ∉ ts := fun member => by cases phrase.isCode _ member
    have whole : placed.map Placed.token = ts := by
      obtain nothing | last := ended
      · rw [nothing, List.append_nil] at same
        exact absurd (same ▸ List.mem_append_right _ (List.mem_singleton_self _)) noFinish
      · rw [last] at same
        exact List.append_cancel_right same
    refine ⟨e.unplaced, whole ▸ phrase, eq_ok_of_toOption ?_⟩
    rw [constant_unplaced, parsed]
    rfl
  · cases parsed

/-- A source is accepted as a literal if its tokens are one, and its value is the one that they denote.
Where an expression of the source computes anything, at whatever depth, it is not accepted. -/
theorem parseLiteral_accepts_literals {source : List Char} {placed : List Placed}
    (read : lexFrom 0 source = .ok placed) :
    (∀ value, parseLiteral source = .ok value ↔ Denotes value (placed.map Placed.token)) ∧
      ∀ e inner : Expr, Phrase 0 e (placed.map Placed.token) → inner.Within e → inner.computes = true →
        ∃ error, parseLiteral source = .error error := by
  refine ⟨fun value => ⟨fun parsed => ?_, fun denotes => ?_⟩, fun e inner phrase within computes => ?_⟩
  · obtain ⟨e, phrase, denotes⟩ := exists_phrase_of_parseLiteral read parsed
    exact phrase.denotes denotes
  · obtain ⟨e, phrase, denotes⟩ := denotes.exists_phrase
    refine eq_ok_of_toOption ?_
    rw [toOption_parseLiteral read (phrase.weaken (Nat.zero_le _)), denotes]
    rfl
  · cases parsed : parseLiteral source with
    | error error => exact ⟨error, rfl⟩
    | ok value =>
        have same := toOption_parseLiteral read phrase
        rw [parsed] at same
        rw [computes_eq_false_of_within within (eq_ok_of_toOption same.symm)] at computes
        cases computes

/-- A source with a minus sign, parentheses, commas at ends, a name twice and a number as a name. -/
def literalSource : String := "\x7ba: 0x10, 'b': [true, undefined,], 1: (-(-2)), a: -3,\x7d"

theorem parseLiteral_accepts_literals_sample :
    (∃ placed value, lexFrom 0 literalSource.toList = .ok placed ∧
      value.print = "\x7b\"1\":2,\"a\":-3,\"b\":[true,null]\x7d" ∧
      Denotes value (placed.map Placed.token)) ∧
    ∃ error, parseLiteral ['[', 'x', ']'] = .error error := by
  constructor
  · have printed : (parseLiteral literalSource.toList).toOption.map Value.print =
        some "\x7b\"1\":2,\"a\":-3,\"b\":[true,null]\x7d" := by
      decide +kernel
    obtain ⟨value, parsed, same⟩ := Option.map_eq_some_iff.mp printed
    obtain ⟨placed, read, -⟩ := bind_eq_ok.mp (eq_ok_of_toOption parsed)
    exact ⟨placed, value, read, same,
      ((parseLiteral_accepts_literals read).1 value).mp (eq_ok_of_toOption parsed)⟩
  · have word : Lexes ['x'] [.identifier "x"] [']'] := .token (by rfl)
    have last : Lexes [']'] [.symbol .closeBracket] [] := .token rfl
    have lexes : Lexes ['[', 'x', ']'] _ [] := .symbol rfl (word.append last)
    obtain ⟨placed, read, same⟩ := lexes.lexFrom 0
    have phrase : Phrase 8 (.array 0 [.variable 0 "x"]) (placed.map Placed.token) := by
      rw [same]
      exact .array (.last ((Phrase.variable "x").weaken (Nat.zero_le _)))
    exact (parseLiteral_accepts_literals read).2 _ (.variable 0 "x") (phrase.weaken (Nat.zero_le _))
      (.deeper (List.mem_singleton_self _) .here) rfl

end StaticSite.Template
