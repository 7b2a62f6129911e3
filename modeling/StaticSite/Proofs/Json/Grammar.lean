import Mathlib.Data.List.DropRight
import StaticSite.Json.Parser
import StaticSite.Proofs.Json.Printing
import StaticSite.Proofs.Text.Trimming

/-!
The grammar of JSON. A tree holds all that its text shows, the blanks between the tokens too, so that the
text is a function of the tree. The reader of JSON reads the text of a tree as the value of the tree, where
numbers are plain integers and escapes name characters.
-/

namespace StaticSite.Json.Grammar

/-- Blanks between tokens. -/
abbrev Blanks := { blanks : List Char // ∀ c ∈ blanks, isSpace c = true }

/-- One or more decimal digits. -/
abbrev Digits := { digits : List Char // digits ≠ [] ∧ ∀ c ∈ digits, Decimal.isDigit c = true }

/-- A hexadecimal digit, of either case. -/
abbrev HexDigit := { c : Char // Text.isDigitIn 16 c = true }

inductive Sign
  | none
  | plus
  | minus

def Sign.text : Sign → List Char
  | .none => []
  | .plus => ['+']
  | .minus => ['-']

/-- A power of ten, with an `e` of either case. -/
structure Exponent where
  capital : Bool
  sign : Sign
  digits : Digits

def Exponent.text (e : Exponent) : List Char :=
  (if e.capital then 'E' else 'e') :: (e.sign.text ++ e.digits.val)

def Exponent.value (e : Exponent) : Int :=
  match e.sign with
  | .minus => -Decimal.digitsValue e.digits.val
  | _ => Decimal.digitsValue e.digits.val

/-- A number. Zero is the only one whose whole part begins with a zero. -/
structure Numeral where
  negative : Bool
  whole : Digits
  fraction : Option Digits
  exponent : Option Exponent
  leading : whole.val.head? = some '0' → whole.val = ['0']

namespace Numeral

def fractionText (n : Numeral) : List Char :=
  match n.fraction with
  | none => []
  | some digits => '.' :: digits.val

def exponentText (n : Numeral) : List Char :=
  match n.exponent with
  | none => []
  | some exponent => exponent.text

/-- The text without a minus sign. -/
def unsigned (n : Numeral) : List Char := n.whole.val ++ (n.fractionText ++ n.exponentText)

def text (n : Numeral) : List Char := if n.negative then '-' :: n.unsigned else n.unsigned

/-- The parts of the number without its sign. -/
def written (n : Numeral) : Decimal.Written :=
  ⟨n.whole.val, (n.fraction.map Subtype.val).getD [], (n.exponent.map Exponent.value).getD 0⟩

/-- Whether the number is within the range of floats. -/
def Finite (n : Numeral) : Prop := n.written.toFloat.isFinite = true

/-- The whole part with the sign. -/
def integer (n : Numeral) : Int :=
  if n.negative then -Decimal.digitsValue n.whole.val else Decimal.digitsValue n.whole.val

/-- Integers of at most 53 bits, written without fraction and exponent, other than `-0`. -/
structure Plain (n : Numeral) : Prop where
  fraction : n.fraction = none
  exponent : n.exponent = none
  bound : Decimal.digitsValue n.whole.val < 2 ^ 53
  nonzero : n.negative = true → Decimal.digitsValue n.whole.val ≠ 0

end Numeral

/-- The escapes of a single letter. -/
inductive Escape
  | quote
  | backslash
  | slash
  | backspace
  | formFeed
  | lineFeed
  | carriageReturn
  | tab

def Escape.letter : Escape → Char
  | .quote => '"'
  | .backslash => '\\'
  | .slash => '/'
  | .backspace => 'b'
  | .formFeed => 'f'
  | .lineFeed => 'n'
  | .carriageReturn => 'r'
  | .tab => 't'

def Escape.char : Escape → Char
  | .quote => '"'
  | .backslash => '\\'
  | .slash => '/'
  | .backspace => '\x08'
  | .formFeed => '\x0c'
  | .lineFeed => '\n'
  | .carriageReturn => '\r'
  | .tab => '\t'

/-- What stands for a character, or for half of one, in a string. -/
inductive Mark
  | plain (c : Char) (visible : 0x20 ≤ c.toNat) (notQuote : c ≠ '"') (notBackslash : c ≠ '\\')
  | escape (e : Escape)
  | unit (a b c d : HexDigit)

def HexDigit.value (c : HexDigit) : Nat := (Text.digitValue? 16 c.val).getD 0

/-- The number that four hexadecimal digits write. -/
def unitValue (a b c d : HexDigit) : Nat :=
  ((HexDigit.value a * 16 + HexDigit.value b) * 16 + HexDigit.value c) * 16 + HexDigit.value d

namespace Mark

def text : Mark → List Char
  | .plain c _ _ _ => [c]
  | .escape e => ['\\', e.letter]
  | .unit a b c d => ['\\', 'u', a.val, b.val, c.val, d.val]

/-- Whether a mark is half of a character that lies beyond 16 bits. -/
def IsSurrogate : Mark → Prop
  | .unit a b c d => 0xD800 ≤ unitValue a b c d ∧ unitValue a b c d ≤ 0xDFFF
  | _ => False

instance (m : Mark) : Decidable m.IsSurrogate :=
  match m with
  | .plain _ _ _ _ | .escape _ => inferInstanceAs (Decidable False)
  | .unit _ _ _ _ => inferInstanceAs (Decidable (_ ∧ _))

def char : Mark → Char
  | .plain c _ _ _ => c
  | .escape e => e.char
  | .unit a b c d => Char.ofNat (unitValue a b c d)

end Mark

/-- The text of a string with its quotes. -/
def quoted (marks : List Mark) : List Char := '"' :: (marks.flatMap Mark.text ++ ['"'])

/-- The string that marks stand for. -/
def content (marks : List Mark) : String := String.ofList (marks.map Mark.char)

mutual

inductive Tree
  | null
  | bool (value : Bool)
  | number (numeral : Numeral)
  | string (marks : List Mark)
  | emptyArray (inside : Blanks)
  | array (items : Elements)
  | emptyObject (inside : Blanks)
  | object (members : Members)

/-- One or more items with commas between them, each between blanks. -/
inductive Elements
  | last (before : Blanks) (item : Tree) (after : Blanks)
  | cons (before : Blanks) (item : Tree) (after : Blanks) (others : Elements)

/-- One or more members with commas between them, each of a key, a colon and a value, between blanks. -/
inductive Members
  | last (before : Blanks) (key : List Mark) (behind ahead : Blanks) (item : Tree) (after : Blanks)
  | cons (before : Blanks) (key : List Mark) (behind ahead : Blanks) (item : Tree) (after : Blanks)
      (others : Members)

end

mutual

def Tree.text : Tree → List Char
  | .null => "null".toList
  | .bool true => "true".toList
  | .bool false => "false".toList
  | .number numeral => numeral.text
  | .string marks => quoted marks
  | .emptyArray inside => '[' :: (inside.val ++ [']'])
  | .array items => '[' :: (items.text ++ [']'])
  | .emptyObject inside => '\x7b' :: (inside.val ++ ['\x7d'])
  | .object members => '\x7b' :: (members.text ++ ['\x7d'])

def Elements.text : Elements → List Char
  | .last before item after => before.val ++ (item.text ++ after.val)
  | .cons before item after others => before.val ++ (item.text ++ (after.val ++ ',' :: others.text))

def Members.text : Members → List Char
  | .last before key behind ahead item after =>
      before.val ++ (quoted key ++ (behind.val ++ ':' :: (ahead.val ++ (item.text ++ after.val))))
  | .cons before key behind ahead item after others =>
      before.val ++ (quoted key ++ (behind.val ++ ':' :: (ahead.val ++ (item.text ++
        (after.val ++ ',' :: others.text)))))

end

mutual

/-- The value of a tree whose numbers are plain. -/
def Tree.value : Tree → Value
  | .null => .null
  | .bool value => .bool value
  | .number numeral => .number (.int numeral.integer)
  | .string marks => .string (content marks)
  | .emptyArray _ => .array []
  | .array items => .array items.values
  | .emptyObject _ => .object []
  | .object members => .object (Fields.ofList members.values)

def Elements.values : Elements → List Value
  | .last _ item _ => [item.value]
  | .cons _ item _ others => item.value :: others.values

def Members.values : Members → List (String × Value)
  | .last _ key _ _ item _ => [(content key, item.value)]
  | .cons _ key _ _ item _ others => (content key, item.value) :: others.values

end

mutual

def Tree.numerals : Tree → List Numeral
  | .number numeral => [numeral]
  | .array items => items.numerals
  | .object members => members.numerals
  | _ => []

def Elements.numerals : Elements → List Numeral
  | .last _ item _ => item.numerals
  | .cons _ item _ others => item.numerals ++ others.numerals

def Members.numerals : Members → List Numeral
  | .last _ _ _ _ item _ => item.numerals
  | .cons _ _ _ _ item _ others => item.numerals ++ others.numerals

end

mutual

def Tree.marks : Tree → List Mark
  | .string marks => marks
  | .array items => items.marks
  | .object members => members.marks
  | _ => []

def Elements.marks : Elements → List Mark
  | .last _ item _ => item.marks
  | .cons _ item _ others => item.marks ++ others.marks

def Members.marks : Members → List Mark
  | .last _ key _ _ item _ => key ++ item.marks
  | .cons _ key _ _ item _ others => key ++ (item.marks ++ others.marks)

end

/-! ## Strings -/

theorem skipSpace_append (blanks : Blanks) {rest : List Char} (begins : ∀ c ∈ rest.head?, isSpace c = false) :
    skipSpace (blanks.val ++ rest) = rest :=
  Text.dropWhile_append_of_head blanks.property begins

theorem digitValue?_hexDigit (c : HexDigit) : Text.digitValue? 16 c.val = some (HexDigit.value c) := by
  obtain ⟨value, found⟩ := Option.isSome_iff_exists.mp c.property
  rw [HexDigit.value, found, Option.getD_some]

theorem numeral?_unit (a b c d : HexDigit) :
    Text.numeral? 16 [a.val, b.val, c.val, d.val] = some (unitValue a b c d) := by
  simp [Text.numeral?, digitValue?_hexDigit, unitValue]

/-- A mark is read as its character. -/
theorem Mark.stringStep? (m : Mark) (whole : ¬ m.IsSurrogate) (rest : List Char) :
    ∃ c more, m.text ++ rest = c :: more ∧ Json.stringStep? c more = some (some m.char, rest) := by
  cases m with
  | plain c visible notQuote notBackslash =>
      refine ⟨c, rest, rfl, ?_⟩
      simp [Json.stringStep?, notQuote, notBackslash, Nat.not_lt_of_le visible, Mark.char]
  | escape e =>
      refine ⟨'\\', e.letter :: rest, rfl, ?_⟩
      cases e <;> rfl
  | unit a b c d =>
      refine ⟨'\\', 'u' :: a.val :: b.val :: c.val :: d.val :: rest, rfl, ?_⟩
      have quad : hexQuad? (a.val :: b.val :: c.val :: d.val :: rest) = some (unitValue a b c d, rest) := by
        rw [hexQuad?, numeral?_unit, Option.map_some]
      simp only [IsSurrogate, not_and, Nat.not_le] at whole
      have notLow : (decide (0xDC00 ≤ unitValue a b c d) && decide (unitValue a b c d ≤ 0xDFFF)) = false := by
        simp
        omega
      have notHigh : (decide (0xD800 ≤ unitValue a b c d) && decide (unitValue a b c d ≤ 0xDBFF)) = false := by
        simp
        omega
      rw [Json.stringStep?, if_neg (by decide), if_neg (by decide), if_neg (by decide)]
      simp only [quad, notLow, notHigh, Bool.false_eq_true, if_false]
      rfl

theorem readString?_marks {marks : List Mark} (whole : ∀ m ∈ marks, ¬ m.IsSurrogate) (rest : List Char)
    {fuel : Nat} (enough : marks.length < fuel) :
    readString? fuel (marks.flatMap Mark.text ++ '"' :: rest) = some (marks.map Mark.char, rest) := by
  induction marks generalizing fuel with
  | nil =>
      obtain ⟨fuel, rfl⟩ := Nat.exists_eq_succ_of_ne_zero (Nat.ne_of_gt enough)
      rfl
  | cons m marks ih =>
      obtain ⟨fuel, rfl⟩ := Nat.exists_eq_succ_of_ne_zero (by omega : fuel ≠ 0)
      rw [List.forall_mem_cons] at whole
      obtain ⟨c, more, same, step⟩ := m.stringStep? whole.1 (marks.flatMap Mark.text ++ '"' :: rest)
      have others := ih whole.2 (Nat.lt_of_succ_lt_succ enough)
      rw [List.flatMap_cons, List.append_assoc, same, readString?, step]
      simp only [others, Option.map_some, List.map_cons]

/-! ## Numbers -/

theorem exists_cons_digits (digits : Digits) :
    ∃ c more, digits.val = c :: more ∧ Decimal.isDigit c = true := by
  obtain ⟨c, more, same⟩ := List.exists_cons_of_ne_nil digits.property.1
  exact ⟨c, more, same, digits.property.2 c (by simp [same])⟩

/-- A text that a value of JSON may stand before. -/
def Ends (rest : List Char) : Prop := ∀ c ∈ rest.head?, isSpace c = true ∨ c = ',' ∨ c = ']' ∨ c = '\x7d'

theorem Ends.ne {rest : List Char} (ends : Ends rest) {c d : Char} (head : c ∈ rest.head?)
    (other : (isSpace d || d == ',' || d == ']' || d == '\x7d') = false) : c ≠ d := by
  intro same
  subst same
  simp only [Bool.or_eq_false_iff, beq_eq_false_iff_ne] at other
  rcases ends c head with space | comma | bracket | brace
  · rw [other.1.1.1] at space
    cases space
  · exact other.1.1.2 comma
  · exact other.1.2 bracket
  · exact other.2 brace

theorem Ends.isDigit {rest : List Char} (ends : Ends rest) : ∀ c ∈ rest.head?, Decimal.isDigit c = false := by
  intro c head
  rcases ends c head with space | rfl | rfl | rfl
  · simp only [isSpace, Bool.or_eq_true, beq_iff_eq] at space
    rcases space with ((rfl | rfl) | rfl) | rfl <;> rfl
  all_goals rfl

/-- Digits alone are read as an integer. -/
theorem readNumber?_digits {c : Char} {more rest : List Char} (all : ∀ d ∈ c :: more, Decimal.isDigit d = true)
    (leading : (decide (1 < (c :: more).length) && (c :: more).head? == some '0') = false) (ends : Ends rest)
    (bound : Decimal.digitsValue (c :: more) < 2 ^ 53) :
    Json.readNumber? (c :: more ++ rest) = some (.int (Decimal.digitsValue (c :: more)), rest) ∧
      (Decimal.digitsValue (c :: more) ≠ 0 → Json.readNumber? ('-' :: (c :: more ++ rest)) =
        some (.int (-Decimal.digitsValue (c :: more)), rest)) := by
  have whole := Text.takeWhile_append_of_head all ends.isDigit
  have behind := Text.dropWhile_append_of_head all ends.isDigit
  have notMinus : c ≠ '-' := by
    intro same
    have digit := all c (by simp)
    rw [same] at digit
    cases digit
  rw [List.cons_append] at whole behind ⊢
  generalize value : Decimal.digitsValue (c :: more) = magnitude at bound
  have least : leastInteger ≤ (magnitude : Int) ∧ leastInteger ≤ -(magnitude : Int) := by
    unfold leastInteger
    omega
  have greatest : (magnitude : Int) ≤ greatestInteger ∧ -(magnitude : Int) ≤ greatestInteger := by
    unfold greatestInteger
    omega
  have apart : ∀ {e : Char} {behind : List Char}, rest = e :: behind → e ≠ '.' ∧ e ≠ 'e' ∧ e ≠ 'E' := by
    intro e behind same
    subst same
    exact ⟨ends.ne rfl rfl, ends.ne rfl rfl, ends.ne rfl rfl⟩
  refine ⟨?_, fun nonzero => ?_⟩
  · unfold Json.readNumber?
    split
    rename_i signed
    split at signed
    · rename_i minus
      cases minus
      exact absurd rfl notMinus
    · cases signed
      simp only [whole, behind, leading, value, List.isEmpty_cons, Bool.or_self, Bool.false_eq_true, if_false]
      cases rest with
      | nil => simp [least, greatest]
      | cons e rest =>
          obtain ⟨point, lower, upper⟩ := apart rfl
          simp [point, lower, upper, least, greatest]
  · unfold Json.readNumber?
    simp only [whole, behind, leading, value, List.isEmpty_cons, Bool.or_self, Bool.false_eq_true, if_false]
    cases rest with
    | nil => simp [nonzero, least, greatest]
    | cons e rest =>
        obtain ⟨point, lower, upper⟩ := apart rfl
        simp [point, lower, upper, nonzero, least, greatest]

theorem Numeral.readNumber? {n : Numeral} (plain : n.Plain) {rest : List Char} (ends : Ends rest) :
    Json.readNumber? (n.text ++ rest) = some (.int n.integer, rest) := by
  have text : n.unsigned = n.whole.val := by
    simp [unsigned, fractionText, exponentText, plain.fraction, plain.exponent]
  have leading : (decide (1 < n.whole.val.length) && n.whole.val.head? == some '0') = false := by
    cases zero : n.whole.val.head? == some '0' with
    | false => simp
    | true => simp [n.leading (beq_iff_eq.mp zero)]
  have bound := plain.bound
  have nonzero := plain.nonzero
  have all := n.whole.property.2
  rw [Numeral.text, text, integer]
  obtain ⟨c, more, digits, -⟩ := exists_cons_digits n.whole
  rw [digits] at all leading bound nonzero ⊢
  have read := readNumber?_digits all leading ends bound
  cases negative : n.negative with
  | true => exact read.2 (nonzero negative)
  | false => exact read.1

/-! ## Values -/

theorem Numeral.exists_cons_text (n : Numeral) :
    ∃ c more, n.text = c :: more ∧ (c = '-' ∨ Decimal.isDigit c = true) := by
  obtain ⟨c, more, digits, first⟩ := exists_cons_digits n.whole
  rw [text]
  split
  · exact ⟨_, _, rfl, .inl rfl⟩
  · refine ⟨c, more ++ (n.fractionText ++ n.exponentText), ?_, .inr first⟩
    rw [unsigned, digits, List.cons_append]

/-- What a value begins with is no blank and closes nothing. -/
theorem Tree.exists_cons_text (tree : Tree) :
    ∃ c more, tree.text = c :: more ∧ isSpace c = false ∧ c ≠ ']' := by
  cases tree with
  | bool value => cases value <;> exact ⟨_, _, rfl, rfl, by decide⟩
  | number numeral =>
      obtain ⟨c, more, same, begins⟩ := numeral.exists_cons_text
      refine ⟨c, more, same, ?_⟩
      have apart (d : Char) (other : Decimal.isDigit d = false) (notMinus : d ≠ '-') : c ≠ d := by
        intro same
        subst same
        rcases begins with minus | digit
        · exact notMinus minus
        · rw [other] at digit
          cases digit
      simp [isSpace, apart ' ' rfl, apart '\t' rfl, apart '\n' rfl, apart '\r' rfl, apart ']' rfl]
  | _ => exact ⟨_, _, rfl, rfl, by decide⟩

theorem Tree.head_append (tree : Tree) (rest : List Char) :
    ∀ c ∈ (tree.text ++ rest).head?, isSpace c = false := by
  obtain ⟨c, more, same, begins, -⟩ := tree.exists_cons_text
  rw [same]
  simpa using begins

theorem Tree.length_pos (tree : Tree) : 0 < tree.text.length := by
  obtain ⟨c, more, same, -⟩ := tree.exists_cons_text
  simp [same]

theorem length_le_flatMap (marks : List Mark) : marks.length ≤ (marks.flatMap Mark.text).length := by
  induction marks with
  | nil => simp
  | cons m marks ih =>
      have nonempty : 0 < m.text.length := by cases m <;> simp [Mark.text]
      simp only [List.flatMap_cons, List.length_append, List.length_cons]
      omega

theorem readString?_quoted {marks : List Mark} (whole : ∀ m ∈ marks, ¬ m.IsSurrogate) (rest : List Char) :
    readString? ((marks.flatMap Mark.text ++ '"' :: rest).length + 1)
      (marks.flatMap Mark.text ++ '"' :: rest) = some (marks.map Mark.char, rest) := by
  have enough := length_le_flatMap marks
  apply readString?_marks whole
  simp only [List.length_append]
  omega

theorem ends_blanks (after : Blanks) {c : Char} (closes : c = ',' ∨ c = ']' ∨ c = '\x7d') (rest : List Char) :
    Ends (after.val ++ c :: rest) := by
  intro d head
  cases blanks : after.val with
  | nil =>
      rw [blanks] at head
      cases head
      exact .inr closes
  | cons e more =>
      rw [blanks] at head
      cases head
      exact .inl (after.property d (by simp [blanks]))

theorem skipSpace_blanks (after : Blanks) (c : Char) (visible : isSpace c = false) (rest : List Char) :
    skipSpace (after.val ++ c :: rest) = c :: rest :=
  skipSpace_append after (by simpa using visible)

theorem skipSpace_skipSpace (cs : List Char) : skipSpace (skipSpace cs) = skipSpace cs :=
  List.dropWhile_idempotent _ _

theorem readValue?_skipSpace (fuel : Nat) (cs : List Char) :
    Json.readValue? fuel (skipSpace cs) = Json.readValue? fuel cs := by
  cases fuel with
  | zero => simp only [Json.readValue?]
  | succ fuel => simp only [Json.readValue?, skipSpace_skipSpace]

theorem readItems?_skipSpace (fuel : Nat) (cs : List Char) :
    Json.readItems? fuel (skipSpace cs) = Json.readItems? fuel cs := by
  cases fuel with
  | zero => simp only [Json.readItems?]
  | succ fuel => simp only [Json.readItems?, readValue?_skipSpace]

theorem readMembers?_skipSpace (fuel : Nat) (cs : List Char) :
    Json.readMembers? fuel (skipSpace cs) = Json.readMembers? fuel cs := by
  cases fuel with
  | zero => simp only [Json.readMembers?]
  | succ fuel => simp only [Json.readMembers?, skipSpace_skipSpace]

theorem Elements.skipSpace_text (items : Elements) (rest : List Char) :
    ∃ c more, skipSpace (items.text ++ rest) = c :: more ∧ c ≠ ']' := by
  cases items with
  | last before item after | cons before item after others =>
      obtain ⟨c, more, same, begins, apart⟩ := item.exists_cons_text
      simp only [Elements.text, same, List.append_assoc, List.cons_append]
      exact ⟨_, _, skipSpace_blanks before _ begins _, apart⟩

theorem Members.skipSpace_text (members : Members) (rest : List Char) :
    ∃ c more, skipSpace (members.text ++ rest) = c :: more ∧ c ≠ '\x7d' := by
  cases members with
  | last before key behind ahead item after | cons before key behind ahead item after others =>
      simp only [Members.text, quoted, List.append_assoc, List.cons_append]
      exact ⟨_, _, skipSpace_blanks before _ rfl _, by decide⟩

mutual

/-- The text of a value is read as the value. -/
theorem Tree.readValue? : ∀ (tree : Tree), (∀ m ∈ tree.marks, ¬ m.IsSurrogate) →
    (∀ n ∈ tree.numerals, n.Plain) → ∀ (before : Blanks) {rest : List Char}, Ends rest →
      ∀ {fuel : Nat}, 2 * tree.text.length ≤ fuel →
        Json.readValue? fuel (before.val ++ (tree.text ++ rest)) = some (tree.value, rest) := by
  intro tree whole plain before rest ends fuel enough
  have positive := tree.length_pos
  obtain ⟨fuel, rfl⟩ := Nat.exists_eq_succ_of_ne_zero (by omega : fuel ≠ 0)
  rw [Json.readValue?, skipSpace_append before (tree.head_append rest)]
  match tree with
  | .null | .bool true | .bool false => rfl
  | .number numeral =>
      rw [Tree.numerals, List.forall_mem_singleton] at plain
      obtain ⟨c, more, same, begins⟩ := numeral.exists_cons_text
      have first : ∀ d more, numeral.text ++ rest = d :: more → d = '-' ∨ Decimal.isDigit d = true := by
        intro d more' same'
        rw [same] at same'
        cases same'
        exact begins
      rw [Tree.text]
      split
      case h_7 => rw [numeral.readNumber? plain ends]; rfl
      all_goals exact absurd (first _ _ ‹_›) (by decide)
  | .string marks =>
      rw [Tree.marks] at whole
      simp only [Tree.text, quoted, List.cons_append, List.append_assoc, List.nil_append]
      rw [readString?_quoted whole]
      rfl
  | .emptyArray inside | .emptyObject inside =>
      simp only [Tree.text, List.cons_append, List.append_assoc, List.nil_append]
      rw [skipSpace_blanks inside _ rfl]
      rfl
  | .array items =>
      rw [Tree.text, List.length_cons, List.length_append, List.length_singleton] at enough
      have inside := items.readItems? whole plain (by omega : 2 * items.text.length + 1 ≤ fuel) rest
      obtain ⟨c, more, begins, apart⟩ := items.skipSpace_text (']' :: rest)
      rw [← readItems?_skipSpace, begins] at inside
      simp only [Tree.text, List.cons_append, List.append_assoc, List.nil_append]
      rw [begins]
      split
      · rename_i closes
        cases closes
        exact absurd rfl apart
      · rw [inside]
        rfl
  | .object members =>
      rw [Tree.text, List.length_cons, List.length_append, List.length_singleton] at enough
      have inside := members.readMembers? whole plain (by omega : 2 * members.text.length + 1 ≤ fuel) rest
      obtain ⟨c, more, begins, apart⟩ := members.skipSpace_text ('\x7d' :: rest)
      rw [← readMembers?_skipSpace, begins] at inside
      simp only [Tree.text, List.cons_append, List.append_assoc, List.nil_append]
      rw [begins]
      split
      · rename_i closes
        cases closes
        exact absurd rfl apart
      · rw [inside]
        rfl

theorem Elements.readItems? : ∀ (items : Elements), (∀ m ∈ items.marks, ¬ m.IsSurrogate) →
    (∀ n ∈ items.numerals, n.Plain) → ∀ {fuel : Nat}, 2 * items.text.length + 1 ≤ fuel →
      ∀ rest, Json.readItems? fuel (items.text ++ ']' :: rest) = some (items.values, rest)
  | .last before item after, whole, plain, fuel + 1, enough, rest => by
      simp only [Elements.text, List.length_append] at enough
      have only := item.readValue? whole plain before (ends_blanks after (.inr (.inl rfl)) rest)
        (by omega : 2 * item.text.length ≤ fuel)
      simp only [Elements.text, List.append_assoc, Json.readItems?, only, skipSpace_blanks after ']' rfl]
      rfl
  | .cons before item after others, whole, plain, fuel + 1, enough, rest => by
      simp only [Elements.text, List.length_append, List.length_cons] at enough
      rw [Elements.marks, List.forall_mem_append] at whole
      rw [Elements.numerals, List.forall_mem_append] at plain
      have first := item.readValue? whole.1 plain.1 before
        (ends_blanks after (.inl rfl) (others.text ++ ']' :: rest)) (by omega : 2 * item.text.length ≤ fuel)
      have behind := others.readItems? whole.2 plain.2 (by omega : 2 * others.text.length + 1 ≤ fuel) rest
      simp only [Elements.text, List.append_assoc, List.cons_append, Json.readItems?, first,
        skipSpace_blanks after ',' rfl, behind]
      rfl

theorem Members.readMembers? : ∀ (members : Members), (∀ m ∈ members.marks, ¬ m.IsSurrogate) →
    (∀ n ∈ members.numerals, n.Plain) → ∀ {fuel : Nat}, 2 * members.text.length + 1 ≤ fuel →
      ∀ rest, Json.readMembers? fuel (members.text ++ '\x7d' :: rest) = some (members.values, rest)
  | .last before key behind ahead item after, whole, plain, fuel + 1, enough, rest => by
      simp only [Members.text, List.length_append, List.length_cons] at enough
      rw [Members.marks, List.forall_mem_append] at whole
      have only := item.readValue? whole.2 plain ahead (ends_blanks after (.inr (.inr rfl)) rest)
        (by omega : 2 * item.text.length ≤ fuel)
      simp only [Members.text, quoted, List.append_assoc, List.cons_append, List.nil_append,
        Json.readMembers?, skipSpace_blanks before '"' rfl, readString?_quoted whole.1,
        skipSpace_blanks behind ':' rfl, only, skipSpace_blanks after '\x7d' rfl]
      rfl
  | .cons before key behind ahead item after others, whole, plain, fuel + 1, enough, rest => by
      simp only [Members.text, List.length_append, List.length_cons] at enough
      simp only [Members.marks, List.forall_mem_append] at whole
      rw [Members.numerals, List.forall_mem_append] at plain
      have first := item.readValue? whole.2.1 plain.1 ahead
        (ends_blanks after (.inl rfl) (others.text ++ '\x7d' :: rest)) (by omega : 2 * item.text.length ≤ fuel)
      have more := others.readMembers? whole.2.2 plain.2 (by omega : 2 * others.text.length + 1 ≤ fuel) rest
      simp only [Members.text, quoted, List.append_assoc, List.cons_append, List.nil_append,
        Json.readMembers?, skipSpace_blanks before '"' rfl, readString?_quoted whole.1,
        skipSpace_blanks behind ':' rfl, first, skipSpace_blanks after ',' rfl, more]
      rfl

end

/-- The text of a value with blanks around it is read as the value. -/
theorem Tree.parse? (tree : Tree) (whole : ∀ m ∈ tree.marks, ¬ m.IsSurrogate)
    (plain : ∀ n ∈ tree.numerals, n.Plain) (before after : Blanks) :
    Value.parse? (String.ofList (before.val ++ (tree.text ++ after.val))) = some tree.value := by
  have ends : Ends after.val := fun c head => .inl (after.property c (List.mem_of_mem_head? head))
  have nothing : skipSpace after.val = [] := List.dropWhile_eq_nil_iff.mpr after.property
  have enough : 2 * tree.text.length ≤ 2 * (before.val ++ (tree.text ++ after.val)).length + 2 := by
    simp only [List.length_append]
    omega
  have read := tree.readValue? whole plain before ends enough
  rw [Value.parse?, String.toList_ofList]
  simp only [read, nothing]
  rfl

end StaticSite.Json.Grammar
