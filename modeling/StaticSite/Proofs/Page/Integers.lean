import StaticSite.Proofs.Decimal.Rounding
import StaticSite.Proofs.Page.Lines

/-!
Integers in front matter. One of 64 bits with its sign is stored as it is, and one beyond the range of
floats as its text. Between the two lies the nearest float, so that the integers of more than 53 significant
bits there come back as other numbers.
-/

namespace StaticSite.FrontMatter

open Decimal (isDigit digitsValue nearest rounded binaryUnit toInt?)
open Json (Value Fields)

/-- A text of a sign, if any, and one or more decimal digits, and the integer that is written so. -/
inductive Writes : List Char → Int → Prop
  | unsigned {digits : List Char} (nonempty : digits ≠ []) (all : ∀ c ∈ digits, isDigit c = true) :
      Writes digits (digitsValue digits)
  | plus {digits : List Char} (nonempty : digits ≠ []) (all : ∀ c ∈ digits, isDigit c = true) :
      Writes ('+' :: digits) (digitsValue digits)
  | minus {digits : List Char} (nonempty : digits ≠ []) (all : ∀ c ∈ digits, isDigit c = true) :
      Writes ('-' :: digits) (-digitsValue digits)

/-- A value keeps an integer: as a number of exactly this value, or as the text that was written. -/
def Keeps (value : Value) (raw : List Char) (whole : Int) : Prop :=
  value = .number (.int whole) ∨ (∃ f, value = .number (.float f) ∧ toInt? f = some whole) ∨
    value = .string (String.ofList raw)

/-- An integer of 64 bits with its sign. -/
def Fits (whole : Int) : Prop := -2 ^ 63 ≤ whole ∧ whole < 2 ^ 63

instance (whole : Int) : Decidable (Fits whole) := inferInstanceAs (Decidable (_ ∧ _))

section Reading

variable {digits raw : List Char} {whole : Int}

/-- A text of digits does not begin with anything else. -/
theorem ne_of_isDigit {c d : Char} (digit : isDigit c = true) (other : isDigit d = false) : c ≠ d := by
  intro same
  rw [same, other] at digit
  cases digit

theorem beginsLiteral_of_writes (writes : Writes raw whole) : beginsLiteral raw = false := by
  cases writes with
  | plus => rfl
  | minus => rfl
  | unsigned nonempty all =>
      obtain ⟨c, rest, rfl⟩ := List.exists_cons_of_ne_nil nonempty
      have apart (d : Char) (other : isDigit d = false) : (c == d) = false :=
        beq_eq_false_iff_ne.mpr (ne_of_isDigit (all c (by simp)) other)
      simp only [beginsLiteral, apart '"' rfl, apart '\'' rfl, apart '[' rfl, apart '\x7b' rfl, Bool.or_self]

theorem readInt?_of_writes (writes : Writes raw whole) : Decimal.readInt? raw = some whole := by
  cases writes with
  | plus nonempty all => simpa [Decimal.readInt?, nonempty] using all
  | minus nonempty all => simpa [Decimal.readInt?, nonempty] using all
  | unsigned nonempty all =>
      obtain ⟨c, rest, rfl⟩ := List.exists_cons_of_ne_nil nonempty
      have plus := ne_of_isDigit (all c (by simp)) (rfl : isDigit '+' = false)
      have minus := ne_of_isDigit (all c (by simp)) (rfl : isDigit '-' = false)
      simpa [Decimal.readInt?, plus, minus] using all

theorem takeWhile_digits (all : ∀ c ∈ digits, isDigit c = true) : digits.takeWhile isDigit = digits :=
  List.takeWhile_eq_self_iff.mpr all

theorem dropWhile_digits (all : ∀ c ∈ digits, isDigit c = true) : digits.dropWhile isDigit = [] :=
  List.dropWhile_eq_nil_iff.mpr all

/-- An integer is read as the nearest float of its magnitude, with its sign. -/
theorem readFloat?_of_writes (writes : Writes raw whole) :
    (Decimal.readFloat? raw = some (nearest whole.natAbs 0) ∧ 0 ≤ whole) ∨
      (Decimal.readFloat? raw = some (-nearest whole.natAbs 0) ∧ whole ≤ 0) := by
  cases writes with
  | plus nonempty all =>
      refine .inl ⟨?_, by omega⟩
      simp [Decimal.readFloat?, takeWhile_digits all, dropWhile_digits all, nonempty, Decimal.Written.toFloat]
  | minus nonempty all =>
      refine .inr ⟨?_, by omega⟩
      simp [Decimal.readFloat?, takeWhile_digits all, dropWhile_digits all, nonempty, Decimal.Written.toFloat]
  | unsigned nonempty all =>
      obtain ⟨c, rest, rfl⟩ := List.exists_cons_of_ne_nil nonempty
      have plus := ne_of_isDigit (all c (by simp)) (rfl : isDigit '+' = false)
      have minus := ne_of_isDigit (all c (by simp)) (rfl : isDigit '-' = false)
      refine .inl ⟨?_, by omega⟩
      simp [Decimal.readFloat?, plus, minus, takeWhile_digits all, dropWhile_digits all, Decimal.Written.toFloat]

theorem integer?_of_writes (writes : Writes raw whole) :
    integer? raw = if Fits whole then some whole else none := by
  rw [integer?, readInt?_of_writes writes]
  split
  · exact Option.filter_some_pos (by simpa [Fits] using ‹Fits whole›)
  · exact Option.filter_some_neg (by simpa [Fits] using ‹¬ Fits whole›)

end Reading

/-! ## Rounding with a sign -/

section Rounding

variable {whole : Int}

theorem sign_mul_rounded_of_nonneg (nonneg : 0 ≤ whole) :
    whole.sign * rounded whole.natAbs = rounded whole.natAbs := by
  rcases nonneg.eq_or_lt with rfl | positive
  · rfl
  · rw [Int.sign_eq_one_of_pos positive, Int.one_mul]

theorem sign_mul_rounded_of_nonpos (nonpos : whole ≤ 0) :
    whole.sign * rounded whole.natAbs = -rounded whole.natAbs := by
  rcases nonpos.eq_or_lt with rfl | negative
  · rfl
  · rw [Int.sign_eq_neg_one_of_neg negative, Int.neg_one_mul]

theorem sign_mul_rounded_eq_iff :
    whole.sign * rounded whole.natAbs = whole ↔ binaryUnit whole.natAbs ∣ whole.natAbs := by
  rw [← Decimal.rounded_eq_iff]
  rcases Int.le_total 0 whole with nonneg | nonpos
  · rw [sign_mul_rounded_of_nonneg nonneg]
    omega
  · rw [sign_mul_rounded_of_nonpos nonpos]
    omega

end Rounding

variable {raw : List Char} {whole : Int}

theorem exists_readFloat?_of_writes (writes : Writes raw whole) (below : rounded whole.natAbs < 2 ^ 1024) :
    ∃ f, Decimal.readFloat? raw = some f ∧ f.isFinite = true ∧
      toInt? f = some (whole.sign * rounded whole.natAbs) := by
  have nearest := Decimal.toInt?_nearest below
  have finite := Decimal.isFinite_of_toInt? nearest
  rcases readFloat?_of_writes writes with ⟨read, nonneg⟩ | ⟨read, nonpos⟩
  · refine ⟨_, read, finite, ?_⟩
    rw [sign_mul_rounded_of_nonneg nonneg, nearest]
  · refine ⟨_, read, Decimal.isFinite_neg finite, ?_⟩
    rw [sign_mul_rounded_of_nonpos nonpos, Decimal.toInt?_neg finite, nearest, Option.map_some]

theorem filter_readFloat?_of_writes (writes : Writes raw whole) (beyond : 2 ^ 1024 ≤ rounded whole.natAbs) :
    (Decimal.readFloat? raw).filter Float.isFinite = none := by
  have infinite := Decimal.nearest_eq_infinity beyond
  rcases readFloat?_of_writes writes with ⟨read, -⟩ | ⟨read, -⟩
  · rw [read, infinite]
    exact Option.filter_some_neg (by simp [Decimal.isFinite_infinity.1])
  · rw [read, infinite]
    exact Option.filter_some_neg (by simp [Decimal.isFinite_infinity.2])

/-- What an integer is stored as. -/
structure Stored (value : Value) (raw : List Char) (whole : Int) : Prop where
  fits : Fits whole → value = .number (.int whole)
  long : ¬ Fits whole → rounded whole.natAbs < 2 ^ 1024 →
    ∃ f, value = .number (.float f) ∧ toInt? f = some (whole.sign * rounded whole.natAbs)
  beyond : ¬ Fits whole → 2 ^ 1024 ≤ rounded whole.natAbs → value = .string (String.ofList raw)

theorem exists_interpret_integer (writes : Writes raw whole) (key : String) :
    ∃ value, interpret key raw = .ok value ∧ Stored value raw whole := by
  unfold interpret
  rw [if_neg (by simp [beginsLiteral_of_writes writes]), number?, integer?_of_writes writes]
  by_cases fits : Fits whole
  · rw [if_pos fits]
    exact ⟨_, rfl, fun _ => rfl, fun not => absurd fits not, fun not => absurd fits not⟩
  rw [if_neg fits]
  rcases Nat.lt_or_ge (rounded whole.natAbs) (2 ^ 1024) with below | beyond
  · obtain ⟨f, read, finite, same⟩ := exists_readFloat?_of_writes writes below
    rw [read, Option.filter_some_pos finite]
    exact ⟨_, rfl, fun within => absurd within fits, fun _ _ => ⟨f, rfl, same⟩,
      fun _ above => absurd below (Nat.not_lt_of_le above)⟩
  · rw [filter_readFloat?_of_writes writes beyond]
    exact ⟨_, rfl, fun within => absurd within fits, fun _ below => absurd below (Nat.not_lt_of_le beyond),
      fun _ _ => rfl⟩

/-- A stored integer is lost if and only if it lies between 64 bits and the range of floats, with more than
53 significant bits. -/
theorem Stored.keeps_iff {value : Value} (stored : Stored value raw whole) :
    Keeps value raw whole ↔
      Fits whole ∨ 2 ^ 1024 ≤ rounded whole.natAbs ∨ binaryUnit whole.natAbs ∣ whole.natAbs := by
  by_cases fits : Fits whole
  · exact iff_of_true (.inl (stored.fits fits)) (.inl fits)
  rcases Nat.lt_or_ge (rounded whole.natAbs) (2 ^ 1024) with below | beyond
  · obtain ⟨f, rfl, same⟩ := stored.long fits below
    have inside : ¬ 2 ^ 1024 ≤ rounded whole.natAbs := Nat.not_le_of_lt below
    rw [or_iff_right fits, or_iff_right inside, ← sign_mul_rounded_eq_iff]
    simp [Keeps, same]
  · exact iff_of_true (.inr (.inr (stored.beyond fits beyond))) (.inr (.inl beyond))

/-! ## Front matter -/

/-- Where no value is refused, every key has what its last value means. -/
theorem exists_parse {source : String}
    (accepted : ∀ entry ∈ entriesOfLines (lines source.toList), ∀ problem, ¬ Refused entry.2 problem) :
    ∃ fields, parse source = .ok fields ∧ ∀ key raw value,
      LastOf (entriesOfLines (lines source.toList)) key raw → interpret key raw = .ok value →
        fields.get? key = some value := by
  rw [← entries_lines] at *
  cases collected : parse source with
  | error error =>
      obtain ⟨front, key, raw, rest, problem, same, refused, -⟩ := collect_eq_error.mp collected
      exact absurd refused (accepted (key, raw) (by simp [same]) problem)
  | ok fields =>
      refine ⟨fields, rfl, fun key raw value last read => ?_⟩
      exact (get?_collect collected key value).mpr (.inl ⟨raw, last, read⟩)

/-- What becomes of the integers of front matter. One of 64 bits is stored as it is, one beyond the range of
floats as its text, and any other as the float that its leading 53 bits round to. -/
theorem parse_integer {source key : String}
    (accepted : ∀ entry ∈ entriesOfLines (lines source.toList), ∀ problem, ¬ Refused entry.2 problem)
    (last : LastOf (entriesOfLines (lines source.toList)) key raw) (writes : Writes raw whole) :
    ∃ fields value, parse source = .ok fields ∧ fields.get? key = some value ∧ Stored value raw whole ∧
      (Keeps value raw whole ↔
        Fits whole ∨ 2 ^ 1024 ≤ rounded whole.natAbs ∨ binaryUnit whole.natAbs ∣ whole.natAbs) := by
  obtain ⟨fields, parsed, values⟩ := exists_parse accepted
  obtain ⟨value, read, stored⟩ := exists_interpret_integer writes key
  exact ⟨fields, value, parsed, values key raw value last read, stored, stored.keeps_iff⟩

/-- A number of more than 64 bits with a one at either end. -/
def longId : String := "id: 18446744073709551617"

theorem entries_longId :
    entriesOfLines (lines longId.toList) = [("id", "18446744073709551617".toList)] := by
  decide +kernel

theorem writes_longId : Writes "18446744073709551617".toList 18446744073709551617 := by
  have value : (digitsValue "18446744073709551617".toList : Int) = 18446744073709551617 := by decide +kernel
  rw [← value]
  exact .unsigned (by decide) (List.all_eq_true.mp (by decide))

theorem accepted_longId : ∀ entry ∈ entriesOfLines (lines longId.toList), ∀ problem, ¬ Refused entry.2 problem := by
  rw [entries_longId]
  simp [Refused, beginsLiteral]

theorem lastOf_longId :
    LastOf (entriesOfLines (lines longId.toList)) "id" "18446744073709551617".toList := by
  rw [entries_longId]
  exact ⟨[], [], rfl, by simp⟩

theorem parse_integer_longId : ∃ fields value, parse longId = .ok fields ∧ fields.get? "id" = some value ∧
    ¬ Keeps value "18446744073709551617".toList 18446744073709551617 := by
  obtain ⟨fields, value, parsed, found, -, keeps⟩ := parse_integer accepted_longId lastOf_longId writes_longId
  refine ⟨fields, value, parsed, found, ?_⟩
  rw [keeps]
  decide +kernel

/-- An integer that comes back as another number. -/
theorem integer_changed : ¬ ∀ (source key : String) (raw : List Char) (whole : Int) (fields : Fields),
    parse source = .ok fields → LastOf (entriesOfLines (lines source.toList)) key raw → Writes raw whole →
      ∃ value, fields.get? key = some value ∧ Keeps value raw whole := by
  intro kept
  obtain ⟨fields, parsed, values⟩ := exists_parse accepted_longId
  obtain ⟨value, read, stored⟩ := exists_interpret_integer writes_longId "id"
  have found := values "id" _ value lastOf_longId read
  obtain ⟨value', found', keeps⟩ := kept _ _ _ _ fields parsed lastOf_longId writes_longId
  cases found.symm.trans found'
  rw [stored.keeps_iff] at keeps
  revert keeps
  decide +kernel

end StaticSite.FrontMatter
