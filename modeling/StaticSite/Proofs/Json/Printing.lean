import Mathlib.Algebra.Group.Nat.Defs
import StaticSite.Json.Printer
import StaticSite.Proofs.Json.Fields

/-!
The text of values: digits that are read as the number they show, and no line feeds.
-/

namespace StaticSite.Decimal

theorem isDigit_eq (c : Char) : isDigit c = c.isDigit := by
  rw [Bool.eq_iff_iff]
  simp [Decimal.isDigit, Char.isDigit, Char.le_def]

theorem isDigit_of_mem_natDigits {n : Nat} : ∀ c ∈ natDigits n, isDigit c = true := by
  intro c member
  rw [isDigit_eq]
  exact Nat.isDigit_of_mem_toDigits (by decide) (by decide) member

theorem digitsValue_natDigits (n : Nat) : digitsValue (natDigits n) = n := by
  have read := Nat.ofDigitChars_ten_toDigits (n := n)
  simp only [Nat.ofDigitChars, Nat.mul_comm 10] at read
  exact read

theorem readInt?_printInt (n : Int) : readInt? (Json.printInt n) = some n := by
  have all := isDigit_of_mem_natDigits (n := n.natAbs)
  have value := digitsValue_natDigits n.natAbs
  unfold Json.printInt
  cases digits : natDigits n.natAbs with
  | nil => exact absurd digits Nat.toDigits_ne_nil
  | cons c more =>
      rw [digits] at all value
      have allDigits : (c :: more).all isDigit = true := List.all_eq_true.mpr all
      split
      · have negative : -(n.natAbs : Int) = n := by omega
        simp only [readInt?, allDigits, List.isEmpty_cons, Bool.not_true, Bool.or_self, Bool.false_eq_true,
          if_false, if_true, value, negative]
      · have positive : (n.natAbs : Int) = n := by omega
        have first := all c (by simp)
        have unsigned : c ≠ '+' ∧ c ≠ '-' := by
          refine ⟨?_, ?_⟩ <;> rintro rfl <;> cases first
        simp [readInt?, unsigned, allDigits, value, positive]

end StaticSite.Decimal

namespace StaticSite.Json

mutual

/-- Whether a value can be told from its text: floats hold its integers, and its objects are in order. -/
def Value.isLiteral : Value → Bool
  | .null | .bool _ | .string _ => true
  | .number (.int n) => n.natAbs < 2 ^ 53
  | .number (.float _) => false
  | .array items => Value.areLiterals items
  | .object members => decide (Fields.Ordered members) && Value.holdLiterals members

def Value.areLiterals : List Value → Bool
  | [] => true
  | item :: rest => item.isLiteral && Value.areLiterals rest

def Value.holdLiterals : List (String × Value) → Bool
  | [] => true
  | (_, value) :: rest => value.isLiteral && Value.holdLiterals rest

end

theorem printInt_ne_nil (n : Int) : printInt n ≠ [] := by
  unfold printInt
  split
  · exact List.cons_ne_nil _ _
  · exact Nat.toDigits_ne_nil

theorem lineFeed_not_mem_printChar (c : Char) : '\n' ∉ printChar c := by
  unfold printChar
  split
  iterate 7 decide
  split
  · have high : ∀ n < 16, '\n' ≠ hexDigit n := by decide
    simp [high (c.toNat / 16) (by omega), high (c.toNat % 16) (by omega)]
  · rw [List.mem_singleton]
    exact fun same => absurd same.symm (by assumption)

theorem lineFeed_not_mem_printString (s : String) : '\n' ∉ printString s := by
  simp [printString, lineFeed_not_mem_printChar]

theorem mem_printInt {c : Char} {n : Int} (member : c ∈ printInt n) :
    c = '-' ∨ Decimal.isDigit c = true := by
  unfold printInt at member
  split at member
  · rcases List.mem_cons.mp member with rfl | inDigits
    · exact .inl rfl
    · exact .inr (Decimal.isDigit_of_mem_natDigits c inDigits)
  · exact .inr (Decimal.isDigit_of_mem_natDigits c member)

mutual

/-- The text of a value is a single line. -/
theorem lineFeed_not_mem_printChars : ∀ value : Value, value.isLiteral = true → '\n' ∉ value.printChars
  | .null, _ => by decide
  | .bool true, _ => by decide
  | .bool false, _ => by decide
  | .string s, _ => lineFeed_not_mem_printString s
  | .number (.int n), _ => fun member => by
      rw [Value.printChars, Number.print] at member
      rcases mem_printInt member with same | digit
      · cases same
      · cases digit
  | .array items, literal => by
      rw [Value.isLiteral] at literal
      rw [Value.printChars]
      simp [lineFeed_not_mem_printItems items literal]
  | .object members, literal => by
      rw [Value.isLiteral, Bool.and_eq_true] at literal
      rw [Value.printChars]
      simp [lineFeed_not_mem_printMembers members literal.2]

theorem lineFeed_not_mem_printItems : ∀ items : List Value, Value.areLiterals items = true →
    '\n' ∉ Value.printItems items
  | [], _ => by rw [Value.printItems]; exact List.not_mem_nil
  | [item], literals => by
      simp only [Value.areLiterals, Bool.and_true] at literals
      rw [Value.printItems]
      exact lineFeed_not_mem_printChars item literals
  | item :: next :: rest, literals => by
      rw [Value.areLiterals, Bool.and_eq_true] at literals
      have first := lineFeed_not_mem_printChars item literals.1
      have others := lineFeed_not_mem_printItems (next :: rest) literals.2
      rw [Value.printItems]
      · simp [first, others]
      · simp

theorem lineFeed_not_mem_printMembers : ∀ members : List (String × Value),
    Value.holdLiterals members = true → '\n' ∉ Value.printMembers members
  | [], _ => by rw [Value.printMembers]; exact List.not_mem_nil
  | [(key, value)], literals => by
      simp only [Value.holdLiterals, Bool.and_true] at literals
      have behind := lineFeed_not_mem_printChars value literals
      rw [Value.printMembers]
      simp [behind, lineFeed_not_mem_printString]
  | (key, value) :: next :: rest, literals => by
      rw [Value.holdLiterals, Bool.and_eq_true] at literals
      have first := lineFeed_not_mem_printChars value literals.1
      have others := lineFeed_not_mem_printMembers (next :: rest) literals.2
      rw [Value.printMembers]
      · simp [first, others, lineFeed_not_mem_printString]
      · simp

end

end StaticSite.Json
