import StaticSite.Proofs.Decimal.Sign
import StaticSite.Proofs.Template.Script

/-!
Numbers that select elements. Numbers compare as floats, so an integer and a float can be equal; they select as
they are stored, and a float selects nothing. Equal numbers are the same integer where they are short integers,
and they select the same element unless they are stored differently and there is an element at their place.
-/

namespace StaticSite.Decimal

open Float.Model Float.Model.UnpackedFloat

/-! ## Equal floats -/

/-- The integer that a float is, told from its parts. -/
def integerOf : UnpackedFloat → Option Int
  | .zero _ => some 0
  | .finite sign mantissa exponent _ => Binary.toInt? ⟨sign == .negative, mantissa, exponent⟩
  | .infinity _ | .notANumber => none

theorem integerOf_unpacked (sign : Sign) (exponent : BitVec 11) (mantissa : BitVec 52) :
    integerOf (unpacked exponent mantissa sign) =
      Binary.toInt? ⟨sign == .negative, if exponent = 0#11 then mantissa.toNat else 2 ^ 52 + mantissa.toNat,
        if exponent = 0#11 then leastExponent else exponent.toNat - 1075⟩ := by
  unfold unpacked
  split
  · split
    · rename_i empty
      subst empty
      cases sign <;> decide +kernel
    · rfl
  · rfl

theorem toInt?_eq_integerOf (f : Float) : toInt? f = integerOf f.toModel.unpack := by
  obtain ⟨sign, exponent, mantissa, composed⟩ := exists_composed f
  by_cases inRange : exponent = -1#11
  · have infinite : f.toModel.unpack.isFinite = false := by
      change f.isFinite = false
      rw [composed.isFinite]
      simpa using inRange
    rw [toInt?, composed.ofFloat?, if_pos inRange]
    cases parts : f.toModel.unpack with
    | infinity sign => rfl
    | notANumber => rfl
    | zero sign => simp [parts, UnpackedFloat.isFinite] at infinite
    | finite sign mantissa exponent positive => simp [parts, UnpackedFloat.isFinite] at infinite
  · rw [toInt?, composed.ofFloat?, if_neg inRange, composed.unpack inRange, integerOf_unpacked]
    rfl

/-- Finite floats of one sign compare by exponents, and mantissas after that. -/
theorem integerOf_eq_of_compare {a b : UnpackedFloat} (equal : a.compare b = some .eq) :
    integerOf a = integerOf b := by
  cases a with
  | infinity sign => cases b <;> cases sign <;> first | rfl | cases equal
  | notANumber => cases b <;> cases equal
  | zero sign =>
      cases b with
      | zero => rfl
      | notANumber => cases equal
      | infinity sign => cases sign <;> cases equal
      | finite sign => cases sign <;> cases equal
  | finite sign mantissa exponent positive =>
      cases b with
      | zero => cases sign <;> cases equal
      | notANumber => cases sign <;> cases equal
      | infinity sign' => cases sign' <;> cases sign <;> cases equal
      | finite sign' mantissa' exponent' positive' =>
          cases sign <;> cases sign' <;>
            simp [UnpackedFloat.compare, Ordering.then_eq_eq] at equal
          all_goals
            obtain ⟨rfl, rfl⟩ := equal
            rfl

/-- Floats that compare equal are the same integer, or neither is one. -/
theorem toInt?_eq_of_beq {f g : Float} (equal : (f == g) = true) : toInt? f = toInt? g := by
  rw [toInt?_eq_integerOf, toInt?_eq_integerOf]
  exact integerOf_eq_of_compare (eq_of_beq (equal : UnpackedFloat.beq f.toModel.unpack g.toModel.unpack = true))

end StaticSite.Decimal

namespace StaticSite.Template

open Decimal Float.Model Float.Model.UnpackedFloat
open Json (Value Number)

/-! ## Equal numbers -/

/-- The integer that a number is, if it is one, however it is stored. -/
def wholeOf : Number → Option Int
  | .int whole => some whole
  | .float f => toInt? f

/-- A number that is an integer of at most 53 bits. -/
def IsShort (n : Number) (whole : Int) : Prop := wholeOf n = some whole ∧ whole.natAbs < 2 ^ 53

instance (n : Number) (whole : Int) : Decidable (IsShort n whole) :=
  inferInstanceAs (Decidable (wholeOf n = some whole ∧ whole.natAbs < 2 ^ 53))

theorem toInt?_toFloat_int {whole : Int} (short : whole.natAbs < 2 ^ 53) :
    toInt? (Number.toFloat (.int whole)) = some whole := by
  simp only [Number.toFloat]
  rcases Nat.eq_zero_or_pos whole.natAbs with zero | positive
  · obtain rfl : whole = 0 := by omega
    decide +kernel
  · rw [nearest_whole positive short]
    split
    · rw [neg_wholeFloat .positive positive short, toInt?_wholeFloat _ positive short]
      have same : -(whole.natAbs : Int) = whole := by omega
      exact congrArg some same
    · rw [toInt?_wholeFloat _ positive short]
      have same : (whole.natAbs : Int) = whole := by omega
      exact congrArg some same

theorem IsShort.toInt? {n : Number} {whole : Int} (short : IsShort n whole) : toInt? n.toFloat = some whole := by
  obtain ⟨isWhole, bound⟩ := short
  cases n with
  | int i =>
      cases isWhole
      exact toInt?_toFloat_int bound
  | float f => exact isWhole

/-- Short integers that compare equal are equal. -/
theorem IsShort.eq {m n : Number} {i j : Int} (first : IsShort m i) (second : IsShort n j)
    (equal : looselyEqual (.number m) (.number n) = true) : i = j := by
  have same := toInt?_eq_of_beq equal
  rw [first.toInt?, second.toInt?] at same
  exact Option.some.inj same

/-! ## Elements -/

/-- The item or character at a place, or null outside. -/
def element : Value → Int → Value
  | .array items, .ofNat i => items.getD i .null
  | .string s, .ofNat i => (s.toList[i]?).elim .null fun c => .string (String.ofList [c])
  | _, _ => .null

/-- How a number is stored. -/
def isInteger : Number → Bool
  | .int _ => true
  | .float _ => false

/-- An array or a string. -/
def IsSequence (x : Value) : Prop := (∃ items, x = .array items) ∨ ∃ s, x = .string s

theorem indexOf_number {x : Value} (sequence : IsSequence x) {n : Number} {whole : Int}
    (isWhole : wholeOf n = some whole) :
    indexOf x (.number n) = .ok (if isInteger n then element x whole else .null) := by
  cases n with
  | float f => obtain ⟨items, rfl⟩ | ⟨s, rfl⟩ := sequence <;> rfl
  | int whole' =>
      obtain rfl : whole' = whole := Option.some.inj isWhole
      obtain ⟨items, rfl⟩ | ⟨s, rfl⟩ := sequence
      · cases whole' with
        | ofNat i => simp [indexOf, selected?, element, isInteger]
        | negSucc i => rfl
      · cases whole' with
        | ofNat i =>
            cases here : s.toList[i]? <;> simp [indexOf, selected?, element, isInteger, here]
        | negSucc i => rfl

/-! ## Expressions -/

/-- An expression has a value and changes nothing. -/
def Frame.Finds (frame : Frame) (run : Run) (e : Expr) (value : Value) : Prop := frame.eval e run = (.ok value, run)

namespace Frame.Finds

variable {frame : Frame} {run : Run} {e e' : Expr} {a b value : Value}

theorem value_eq (first : frame.Finds run e a) (second : frame.Finds run e b) : a = b :=
  Except.ok.inj (Prod.mk.inj (first.symm.trans second)).1

theorem equal (first : frame.Finds run e a) (second : frame.Finds run e' b) (position : Nat) :
    frame.Finds run (.binary position .equal e e') (.bool (looselyEqual a b)) := by
  simp only [Finds] at first second ⊢
  simp only [Frame.eval, bind_apply, first, second, applyBinary]
  rfl

theorem index (target : frame.Finds run e a) (selector : frame.Finds run e' b) (position : Nat)
    (selected : indexOf a b = .ok value) : frame.Finds run (.index position e e') value := by
  simp only [Finds] at target selector ⊢
  simp only [Frame.eval, bind_apply, target, selector, selected]
  rfl

theorem eval_eq_iff (first : frame.Finds run e a) (second : frame.Finds run e' b) :
    frame.eval e run = frame.eval e' run ↔ a = b := by
  constructor
  · intro same
    exact first.value_eq (same.trans second)
  · rintro rfl
    exact first.trans second.symm

end Frame.Finds

/-- What equal numbers select. They are the same integer, and each selects the element at that place if it is stored as
an integer and null if it is stored as a float. -/
theorem equal_numbers_select {frame : Frame} {run : Run} {target left right : Expr} {x : Value} {m n : Number}
    {i j : Int} {compared : Nat} (sequence : IsSequence x) (holds : frame.Finds run target x)
    (first : frame.Finds run left (.number m)) (second : frame.Finds run right (.number n))
    (short : IsShort m i) (short' : IsShort n j)
    (equal : frame.Finds run (.binary compared .equal left right) (.bool true)) (position : Nat) :
    i = j ∧
      frame.Finds run (.index position target left) (if isInteger m then element x i else .null) ∧
      frame.Finds run (.index position target right) (if isInteger n then element x i else .null) ∧
      (frame.eval (.index position target left) run = frame.eval (.index position target right) run ↔
        isInteger m = isInteger n ∨ element x i = .null) := by
  have compares := Value.bool.inj ((first.equal second compared).value_eq equal)
  obtain rfl : i = j := short.eq short' compares
  have onLeft := holds.index first position (indexOf_number sequence short.1)
  have onRight := holds.index second position (indexOf_number sequence short'.1)
  refine ⟨rfl, onLeft, onRight, ?_⟩
  rw [onLeft.eval_eq_iff onRight]
  cases isInteger m <;> cases isInteger n <;> simp [eq_comm]

/-- Two letters, and one number stored in two ways. -/
def letterFrame : Frame where
  template := { nodes := [], filename := "letters", path := ⟨"letters"⟩, lines := Text.LineIndex.ofText [], stamp := 0, serial := 0 }
  properties :=
    { bindings := [("m", .number (.int 1)), ("n", .number (.float 1.0)), ("xs", .array [.string "a", .string "b"])] }
  shared := .standard
  contextAlive := true

namespace letterFrame

theorem letters : letterFrame.Finds {} (.variable 0 "xs") (.array [.string "a", .string "b"]) := rfl

theorem whole : letterFrame.Finds {} (.variable 0 "m") (.number (.int 1)) := rfl

theorem point : letterFrame.Finds {} (.variable 0 "n") (.number (.float 1.0)) := rfl

theorem isShort_point : IsShort (.float 1.0) 1 := by decide +kernel

theorem equal : letterFrame.Finds {} (.binary 0 .equal (.variable 0 "m") (.variable 0 "n")) (.bool true) := by
  have same : looselyEqual (.number (.int 1)) (.number (.float 1.0)) = true := by decide +kernel
  have compared := whole.equal point 0
  rwa [same] at compared

end letterFrame

theorem equal_numbers_select_letter :
    letterFrame.Finds {} (.binary 0 .equal (.variable 0 "m") (.variable 0 "n")) (.bool true) ∧
      letterFrame.Finds {} (.index 0 (.variable 0 "xs") (.variable 0 "m")) (.string "b") ∧
      letterFrame.Finds {} (.index 0 (.variable 0 "xs") (.variable 0 "n")) .null := by
  obtain ⟨-, selected, nothing, -⟩ := equal_numbers_select (.inl ⟨_, rfl⟩) letterFrame.letters letterFrame.whole
    letterFrame.point ⟨rfl, by decide⟩ letterFrame.isShort_point letterFrame.equal 0
  exact ⟨letterFrame.equal, selected, nothing⟩

/-- The float 1.0 is equal to 1 and selects nothing. -/
theorem equal_number_selects_nothing :
    ¬ ∀ {frame : Frame} {run : Run} {target left right : Expr} {x : Value} {m n : Number} {i j : Int},
      IsSequence x → frame.Finds run target x → frame.Finds run left (.number m) →
        frame.Finds run right (.number n) → IsShort m i → IsShort n j →
          frame.Finds run (.binary 0 .equal left right) (.bool true) →
            frame.eval (.index 0 target left) run = frame.eval (.index 0 target right) run := by
  intro agree
  have same := agree (.inl ⟨_, rfl⟩) letterFrame.letters letterFrame.whole letterFrame.point ⟨rfl, by decide⟩
    letterFrame.isShort_point letterFrame.equal
  have selected : letterFrame.Finds {} (.index 0 (.variable 0 "xs") (.variable 0 "m")) (.string "b") :=
    letterFrame.letters.index letterFrame.whole 0 rfl
  have nothing : letterFrame.Finds {} (.index 0 (.variable 0 "xs") (.variable 0 "n")) .null :=
    letterFrame.letters.index letterFrame.point 0 rfl
  cases (selected.eval_eq_iff nothing).mp same

end StaticSite.Template
