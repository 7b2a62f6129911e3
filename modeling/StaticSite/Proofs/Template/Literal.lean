import StaticSite.Proofs.Outcome
import StaticSite.Proofs.Template.Printing
import StaticSite.Template.Literal

/-!
The compact text of a value is a literal that denotes the value. A negative integer is a minus sign and
digits there, so reading it goes through floats, which hold integers of 53 bits.
-/

namespace StaticSite.Template

open Json (Value Fields)

mutual

/-- The expression that the text of a value is. -/
def Expr.ofValue : Value → Expr
  | .number (.int n) =>
      if n < 0 then .unary 0 .negate (.literal 0 (.number (.int n.natAbs)))
      else .literal 0 (.number (.int n.natAbs))
  | .array items => .array 0 (Expr.ofItems items)
  | .object members => .object 0 (Expr.ofMembers members)
  | value => .literal 0 value

def Expr.ofItems : List Value → List Expr
  | [] => []
  | item :: rest => Expr.ofValue item :: Expr.ofItems rest

def Expr.ofMembers : List (String × Value) → List (String × Expr)
  | [] => []
  | (key, value) :: rest => (key, Expr.ofValue value) :: Expr.ofMembers rest

end

theorem spells_printInt {n : Int} (bound : n.natAbs < 2 ^ 53) :
    Spells 0 (Expr.ofValue (.number (.int n))) (Json.printInt n) := by
  have digits := Spells.whole bound
  rw [Expr.ofValue]
  unfold Json.printInt
  split
  · refine (Spells.unary .negate (digits.weaken (by decide)) fun rest => ?_).weaken (by decide)
    exact (opens_natDigits _).head_append rest
  · exact digits.weaken (by decide)

mutual

/-- The text of a value is cut into tokens of its expression. -/
theorem spells_printChars : ∀ value : Value, value.isLiteral = true →
    Spells 0 (Expr.ofValue value) value.printChars
  | .null, _ => (Spells.keyword .nullWord rfl).weaken (by decide)
  | .bool true, _ => (Spells.keyword .trueWord rfl).weaken (by decide)
  | .bool false, _ => (Spells.keyword .falseWord rfl).weaken (by decide)
  | .string s, _ => (Spells.quoted escapes_printChar s).weaken (by decide)
  | .number (.int n), literal => by
      simp only [Value.isLiteral, decide_eq_true_eq] at literal
      rw [Value.printChars, Json.Number.print]
      exact spells_printInt literal
  | .array items, literal => by
      rw [Value.isLiteral] at literal
      rw [Expr.ofValue, Value.printChars]
      exact (Spells.array (spells_printItems items literal)).weaken (by decide)
  | .object members, literal => by
      rw [Value.isLiteral, Bool.and_eq_true] at literal
      rw [Expr.ofValue, Value.printChars]
      exact (Spells.object (spells_printMembers members literal.2)).weaken (by decide)

theorem spells_printItems : ∀ items : List Value, Value.areLiterals items = true →
    SpellsItems .closeBracket (Expr.ofItems items) (Value.printItems items ++ [']'])
  | [], _ => by
      rw [Value.printItems, Expr.ofItems]
      exact .none spellsClose_closeBracket
  | [item], literals => by
      simp only [Value.areLiterals, Bool.and_true] at literals
      simp only [Value.printItems, Expr.ofItems]
      exact .last (spells_printChars item literals) spellsClose_closeBracket
  | item :: next :: rest, literals => by
      rw [Value.areLiterals, Bool.and_eq_true] at literals
      have first := spells_printChars item literals.1
      have others := spells_printItems (next :: rest) literals.2
      have whole := SpellsItems.cons separates_nil first others
      rw [Value.printItems, Expr.ofItems, List.append_assoc]
      · exact whole
      · simp

theorem spells_printMembers : ∀ members : List (String × Value), Value.holdLiterals members = true →
    SpellsEntries (Expr.ofMembers members) (Value.printMembers members ++ ['\x7d'])
  | [], _ => by
      rw [Value.printMembers, Expr.ofMembers]
      exact .none
  | [(key, value)], literals => by
      simp only [Value.holdLiterals, Bool.and_true] at literals
      have only := SpellsEntries.last escapes_printChar key separates_nil
        (spells_printChars value literals)
      simp only [Value.printMembers, Expr.ofMembers]
      rw [List.append_assoc]
      exact only
  | (key, value) :: next :: rest, literals => by
      rw [Value.holdLiterals, Bool.and_eq_true] at literals
      have first := spells_printChars value literals.1
      have others := spells_printMembers (next :: rest) literals.2
      have whole := SpellsEntries.cons escapes_printChar key separates_nil first others
      rw [Value.printMembers, Expr.ofMembers]
      · simp only [List.append_assoc, List.cons_append]
        exact whole
      · simp

end

mutual

/-- Whether an expression denotes a value, and which, has nothing to do with positions. -/
theorem constant_unplaced : ∀ e : Expr, (constant e.unplaced).toOption = (constant e).toOption
  | .literal _ value => by simp only [Expr.unplaced, constant]
  | .array _ items => by
      have same := constants_unplaced items
      simp only [Expr.unplaced, constant, toOption_bind, same]
  | .object _ entries => by
      have same := constantMembers_unplaced entries
      simp only [Expr.unplaced, constant, toOption_bind, same]
  | .unary _ .negate operand => by
      have same := constant_unplaced operand
      simp only [Expr.unplaced, constant, toOption_bind, same]
      congr
      funext value
      split
      · split <;> rfl
      · rfl
  | .unary _ .not _ | .variable _ _ | .member _ _ _ | .index _ _ _ | .call _ _ _ | .binary _ _ _ _
  | .conditional _ _ _ _ => by simp only [Expr.unplaced, constant]; rfl

theorem constants_unplaced : ∀ items : List Expr,
    (constants (Expr.unplacedItems items)).toOption = (constants items).toOption
  | [] => by rw [Expr.unplacedItems]
  | item :: rest => by
      have first := constant_unplaced item
      have others := constants_unplaced rest
      simp only [Expr.unplacedItems, constants, toOption_bind, first, others]

theorem constantMembers_unplaced : ∀ entries : List (String × Expr),
    (constantMembers (Expr.unplacedEntries entries)).toOption = (constantMembers entries).toOption
  | [] => by rw [Expr.unplacedEntries]
  | (key, value) :: rest => by
      have first := constant_unplaced value
      have others := constantMembers_unplaced rest
      simp only [Expr.unplacedEntries, constantMembers, toOption_bind, first, others]

end

theorem toFloat_natCast (n : Nat) : Json.Number.toFloat (.int n) = Decimal.nearest n 0 := by
  simp only [Json.Number.toFloat, Int.natAbs_natCast]
  exact if_neg (by omega)

mutual

theorem constant_ofValue : ∀ value : Value, value.isLiteral = true →
    constant (Expr.ofValue value) = .ok value
  | .null, _ | .bool _, _ | .string _, _ => by simp only [Expr.ofValue, constant]
  | .number (.int n), literal => by
      simp only [Value.isLiteral, decide_eq_true_eq] at literal
      rw [Expr.ofValue]
      split
      · rename_i negative
        have whole : -(n.natAbs : Int) = n := by omega
        simp only [constant, bind, Except.bind, toFloat_natCast, ofFloat_neg_nearest literal, whole]
      · rw [constant, Int.natAbs_of_nonneg (by omega)]
  | .array items, literal => by
      rw [Value.isLiteral] at literal
      simp only [Expr.ofValue, constant, constants_ofItems items literal, bind, Except.bind]
  | .object members, literal => by
      simp only [Value.isLiteral, Bool.and_eq_true, decide_eq_true_eq] at literal
      simp only [Expr.ofValue, constant, constantMembers_ofMembers members literal.2, bind, Except.bind,
        literal.1.ofList_eq]

theorem constants_ofItems : ∀ items : List Value, Value.areLiterals items = true →
    constants (Expr.ofItems items) = .ok items
  | [], _ => by rw [Expr.ofItems, constants]
  | item :: rest, literals => by
      rw [Value.areLiterals, Bool.and_eq_true] at literals
      simp only [Expr.ofItems, constants, constant_ofValue item literals.1,
        constants_ofItems rest literals.2, bind, Except.bind]

theorem constantMembers_ofMembers : ∀ members : List (String × Value),
    Value.holdLiterals members = true → constantMembers (Expr.ofMembers members) = .ok members
  | [], _ => by rw [Expr.ofMembers, constantMembers]
  | (key, value) :: rest, literals => by
      rw [Value.holdLiterals, Bool.and_eq_true] at literals
      simp only [Expr.ofMembers, constantMembers, constant_ofValue value literals.1,
        constantMembers_ofMembers rest literals.2, bind, Except.bind]

end

/-- What the tokens of a source are a phrase of decides what its value is. -/
theorem toOption_parseLiteral {source : List Char} {placed : List Placed}
    (read : lexFrom 0 source = .ok placed) (phrase : Phrase 0 e (placed.map Placed.token)) :
    (parseLiteral source).toOption = (constant e).toOption := by
  have ahead : (Cursor.start source (placed ++ [⟨.finish, Text.byteLength source⟩])).ahead =
      placed.map Placed.token ++ [.finish] := by
    simp [Cursor.ahead, Cursor.start]
  obtain ⟨found, left, parsed, rfl, behind⟩ :=
    phrase.readsExpr (enoughDepth (placed ++ [⟨.finish, Text.byteLength source⟩]))
      (by rw [enoughDepth, List.length_append, List.length_map]; omega) ahead (.cons (by decide))
  simp only [parseLiteral, read, parsed, bind, Except.bind, Cursor.peek_of_ahead behind]
  exact (constant_unplaced found).symm

theorem parseLiteral_of_phrase {source : List Char} (phrase : Phrase 0 e ts) (lexes : Lexes source ts [])
    (denotes : constant e = .ok value) : parseLiteral source = .ok value := by
  obtain ⟨placed, read, rfl⟩ := lexes.lexFrom 0
  refine eq_ok_of_toOption ?_
  rw [toOption_parseLiteral read phrase, denotes]
  rfl

/-- Reading the text of a value gives the value. -/
theorem parseLiteral_printChars {value : Value} (literal : value.isLiteral = true) :
    parseLiteral value.printChars = .ok value := by
  obtain ⟨ts, phrase, lexes⟩ := spells_printChars value literal
  exact parseLiteral_of_phrase phrase (lexes [] trivial) (constant_ofValue value literal)

end StaticSite.Template
