import StaticSite.Proofs.Json.Grammar
import StaticSite.Proofs.Template.Denotation

/-!
JSON texts are literals. Every text of the grammar of JSON is read as one, as far as its numbers are finite
and none of its escapes is half of a character; where the numbers are plain integers, the reader of JSON and
the reader of literals find the same value.
-/

namespace StaticSite.Template

open Json (Value Number Fields)
open Json.Grammar (Blanks Digits HexDigit Exponent Numeral Mark Tree Elements Members unitValue quoted content
  exists_cons_digits)

/-! ## Blanks and strings -/

theorem lexeme_space {c : Char} (space : Json.isSpace c = true) (rest : List Char) :
    lexeme c rest = .ok ⟨none, 0⟩ := by
  simp only [Json.isSpace, Bool.or_eq_true, beq_iff_eq] at space
  rcases space with ((rfl | rfl) | rfl) | rfl <;> rfl

theorem separates_blanks (blanks : Blanks) : Separates blanks.val := by
  obtain ⟨blanks, all⟩ := blanks
  induction blanks with
  | nil => exact separates_nil
  | cons c blanks ih =>
      intro rest
      rw [List.forall_mem_cons] at all
      have first : Lexes [c] [] (blanks ++ rest) := .separator (lexeme_space all.1 _)
      exact first.append (ih all.2 rest)

theorem hexDigit_value_lt (c : HexDigit) : HexDigit.value c < 16 := by
  have found := Json.Grammar.digitValue?_hexDigit c
  unfold Text.digitValue? at found
  simpa using (Option.filter_eq_some_iff.mp found).2

theorem hexDigit_ne_plus (c : HexDigit) : c.val ≠ '+' := by
  intro plus
  have digit := c.property
  rw [plus] at digit
  revert digit
  decide

theorem unicodeEscape?_unicode {a b c d : HexDigit} (valid : (unitValue a b c d).isValidChar) :
    unicodeEscape? a.val b.val c.val d.val = some (Char.ofNat (unitValue a b c d)) := by
  simp [unicodeEscape?, hexDigit_ne_plus, Json.Grammar.numeral?_unit, valid]

theorem unicodeEscape?_unit {a b c d : HexDigit} (whole : ¬ (Mark.unit a b c d).IsSurrogate) :
    unicodeEscape? a.val b.val c.val d.val = some (Char.ofNat (unitValue a b c d)) := by
  have bounds := And.intro (hexDigit_value_lt a) (And.intro (hexDigit_value_lt b)
    (And.intro (hexDigit_value_lt c) (hexDigit_value_lt d)))
  simp only [Mark.IsSurrogate, unitValue] at whole
  refine unicodeEscape?_unicode ?_
  simp only [Nat.isValidChar, unitValue]
  omega

/-- A mark is read as its character. -/
theorem stringBody_mark (m : Mark) (whole : ¬ m.IsSurrogate) (offset : Nat) (rest : List Char) :
    ∃ next, stringBody '"' offset (m.text ++ rest) =
      (stringBody '"' next rest).map fun (chars, width) => (m.char :: chars, width + m.text.length) := by
  cases m with
  | plain c visible notQuote notBackslash =>
      have notLineFeed : c ≠ '\n' := by
        intro same
        rw [same] at visible
        revert visible
        decide
      exact ⟨_, stringBody_plain notBackslash notLineFeed notQuote offset rest⟩
  | escape e => cases e <;> exact ⟨_, stringBody_escaped (by decide) offset rest⟩
  | unit a b c d => exact ⟨_, stringBody_unicode (unicodeEscape?_unit whole) offset rest⟩

theorem stringBody_marks {marks : List Mark} (whole : ∀ m ∈ marks, ¬ m.IsSurrogate) (offset : Nat)
    (rest : List Char) : stringBody '"' offset (marks.flatMap Mark.text ++ '"' :: rest) =
      .ok (marks.map Mark.char, (marks.flatMap Mark.text).length + 1) := by
  induction marks generalizing offset with
  | nil => simp [stringBody]
  | cons m marks ih =>
      rw [List.forall_mem_cons] at whole
      obtain ⟨next, read⟩ := stringBody_mark m whole.1 offset (marks.flatMap Mark.text ++ '"' :: rest)
      rw [List.flatMap_cons, List.append_assoc, read, ih whole.2]
      simp only [Except.map, List.map_cons, List.length_append, Except.ok.injEq, Prod.mk.injEq, true_and]
      omega

theorem lexes_marks {marks : List Mark} (whole : ∀ m ∈ marks, ¬ m.IsSurrogate) (rest : List Char) :
    Lexes (quoted marks) [.string (content marks)] rest := by
  have read := stringBody_marks whole 1 rest
  apply Lexes.token
  rw [List.append_assoc, List.singleton_append]
  simp [Template.lexeme, read, bind, Except.bind, content]

/-! ## Numbers -/

section Digits

variable {rest : List Char} (digits : Digits) (ends : ∀ c ∈ rest.head?, Decimal.isDigit c = false)

include ends

theorem takeWhile_digits : (digits.val ++ rest).takeWhile Decimal.isDigit = digits.val :=
  Text.takeWhile_append_of_head digits.property.2 ends

theorem dropWhile_digits : (digits.val ++ rest).dropWhile Decimal.isDigit = rest :=
  Text.dropWhile_append_of_head digits.property.2 ends

end Digits

theorem exponentPart?_text (e : Exponent) {rest : List Char}
    (ends : ∀ c ∈ rest.head?, Decimal.isDigit c = false) :
    Decimal.exponentPart? (e.text ++ rest) = some (e.value, rest) := by
  obtain ⟨capital, sign, digits⟩ := e
  have whole := takeWhile_digits digits ends
  have behind := dropWhile_digits digits ends
  obtain ⟨c, more, same, digit⟩ := exists_cons_digits digits
  have plus : c ≠ '+' := by
    intro plus
    rw [plus] at digit
    cases digit
  have minus : c ≠ '-' := by
    intro minus
    rw [minus] at digit
    cases digit
  rw [same] at whole behind
  rw [List.cons_append] at whole behind
  cases capital <;> cases sign <;>
    simp [Exponent.text, Exponent.value, Json.Grammar.Sign.text, Decimal.exponentPart?, same, whole, behind,
      plus, minus]

section Numerals

variable (n : Numeral) {rest : List Char} (clear : Clear rest)

include clear

theorem Clear.noDigit : ∀ c ∈ rest.head?, Decimal.isDigit c = false := fun c head =>
  isDigit_eq_false_of_isWordPart (clear.head_isWordPart c head)

theorem noDigit_exponentText : ∀ c ∈ (n.exponentText ++ rest).head?, Decimal.isDigit c = false := by
  unfold Numeral.exponentText
  cases n.exponent with
  | none => exact clear.noDigit
  | some e =>
      obtain ⟨capital, sign, digits⟩ := e
      cases capital <;> simp [Exponent.text, Decimal.isDigit]

theorem noDigit_fractionText :
    ∀ c ∈ (n.fractionText ++ (n.exponentText ++ rest)).head?, Decimal.isDigit c = false := by
  unfold Numeral.fractionText
  cases n.fraction with
  | none => exact noDigit_exponentText n clear
  | some digits => simp [Decimal.isDigit]

theorem exponentPart?_exponentText :
    (Decimal.exponentPart? (n.exponentText ++ rest)).getD (0, n.exponentText ++ rest) =
      (n.written.exponent, rest) := by
  unfold Numeral.exponentText Numeral.written
  cases n.exponent with
  | none => simp [exponentPart?_of_clear clear]
  | some e => simp [exponentPart?_text e clear.noDigit]

/-- Behind a point that is followed by digits the lexer takes these as the fraction. -/
theorem takeWhile_of_point {more : List Char}
    (point : n.fractionText ++ (n.exponentText ++ rest) = '.' :: more) :
    more.takeWhile Decimal.isDigit = n.written.fraction := by
  have ends := noDigit_exponentText n clear
  unfold Numeral.fractionText at point
  unfold Numeral.written
  cases fraction : n.fraction with
  | some digits =>
      rw [fraction] at point
      cases point
      exact takeWhile_digits digits ends
  | none =>
      rw [fraction, List.nil_append] at point
      unfold Numeral.exponentText at point
      cases exponent : n.exponent with
      | some e => cases capital : e.capital <;> simp [exponent, Exponent.text, capital] at point
      | none =>
          rw [exponent, List.nil_append] at point
          subst point
          cases more with
          | nil => rfl
          | cons d more => exact List.takeWhile_cons_of_neg (by simp [clear d rfl])

omit clear in
theorem fraction_eq_nil (apart : ∀ more, n.fractionText ++ (n.exponentText ++ rest) = '.' :: more → False) :
    n.written.fraction = [] := by
  unfold Numeral.fractionText at apart
  unfold Numeral.written
  cases fraction : n.fraction with
  | some digits =>
      rw [fraction] at apart
      exact absurd rfl (apart _)
  | none => rfl

omit clear in
theorem drop_fraction (rest : List Char) :
    (if n.written.fraction.isEmpty then n.fractionText ++ (n.exponentText ++ rest)
      else (n.fractionText ++ (n.exponentText ++ rest)).drop (n.written.fraction.length + 1)) =
        n.exponentText ++ rest := by
  unfold Numeral.fractionText Numeral.written
  cases n.fraction with
  | some digits =>
      have nonempty := digits.property.1
      simp [nonempty]
  | none => rfl

/-- The text of a numeral without its sign is a decimal number. -/
theorem decimalNumber_unsigned : decimalNumber (n.unsigned ++ rest) =
    .ok ⟨some (.number n.written.toFloat), n.unsigned.length - 1⟩ := by
  have whole := takeWhile_digits n.whole (noDigit_fractionText n clear)
  have behind := dropWhile_digits n.whole (noDigit_fractionText n clear)
  have left := drop_fraction n rest
  have exponent := exponentPart?_exponentText n clear
  have noLetter : (rest.head?.any fun c => c == '_' || isLetter c) = false := by
    cases rest with
    | nil => rfl
    | cons c rest =>
        have part := clear.head_isWordPart c rfl
        simp only [isWordPart, isWordStart, Bool.or_eq_false_iff] at part
        simp [part]
  have text : n.unsigned ++ rest = n.whole.val ++ (n.fractionText ++ (n.exponentText ++ rest)) := by
    simp [Numeral.unsigned]
  have width : (n.unsigned ++ rest).length - rest.length = n.unsigned.length := by simp
  rw [← text] at whole behind
  unfold decimalNumber
  simp only [whole, behind]
  split
  · rename_i more point
    simp only [takeWhile_of_point n clear point, left, exponent, noLetter, width,
      Bool.false_eq_true, if_false]
    rfl
  · rename_i apart
    have nothing := fraction_eq_nil n apart
    have parts : (⟨n.whole.val, [], n.written.exponent⟩ : Decimal.Written) = n.written :=
      congrArg (fun fraction => Decimal.Written.mk n.whole.val fraction n.written.exponent) nothing.symm
    simp only [nothing, List.isEmpty_nil, if_true] at left
    simp only [List.isEmpty_nil, if_true, left, exponent, noLetter, width, parts, Bool.false_eq_true, if_false]

theorem ne_x_of_mem_head {d : Char} (head : d ∈ (n.fractionText ++ (n.exponentText ++ rest)).head?) :
    d ≠ 'x' ∧ d ≠ 'X' := by
  unfold Numeral.fractionText Numeral.exponentText at head
  cases fraction : n.fraction with
  | some digits =>
      rw [fraction] at head
      cases head
      decide
  | none =>
      rw [fraction, List.nil_append] at head
      cases exponent : n.exponent with
      | some e =>
          rw [exponent] at head
          cases capital : e.capital <;> simp [Exponent.text, capital] at head <;> simp [← head]
      | none =>
          rw [exponent, List.nil_append] at head
          have part := clear.head_isWordPart d head
          constructor
          all_goals
            intro same
            rw [same] at part
            cases part

theorem lexes_unsigned : Lexes n.unsigned [.number n.written.toFloat] rest := by
  obtain ⟨c, more, digits, digit⟩ := exists_cons_digits n.whole
  have text : n.unsigned = c :: (more ++ (n.fractionText ++ n.exponentText)) := by
    rw [Numeral.unsigned, digits, List.cons_append]
  have decimal : ∀ d ∈ (more ++ (n.fractionText ++ n.exponentText) ++ rest).head?, d ≠ 'x' ∧ d ≠ 'X' := by
    intro d head
    cases more with
    | nil =>
        rw [List.nil_append, List.append_assoc] at head
        exact ne_x_of_mem_head n clear head
    | cons e more =>
        cases head
        have digit := n.whole.property.2 d (by simp [digits])
        constructor
        all_goals
          intro same
          rw [same] at digit
          cases digit
  have number := decimalNumber_unsigned n clear
  rw [text] at number ⊢
  apply Lexes.token
  rw [lexeme_digit digit decimal]
  exact number

end Numerals

theorem written_toFloat_of_plain {n : Numeral} (plain : n.Plain) :
    n.written.toFloat = Decimal.nearest (Decimal.digitsValue n.whole.val) 0 := by
  simp [Numeral.written, Decimal.Written.toFloat, plain.fraction, plain.exponent]

/-- A finite numeral is a literal, and a plain one denotes its integer. -/
theorem exists_denotes_numeral {n : Numeral} (finite : n.Finite) : ∃ number ts,
    Denotes (.number number) ts ∧ (n.Plain → number = .int n.integer) ∧
      ∀ rest, Clear rest → Lexes n.text ts rest := by
  obtain ⟨number, found⟩ := exists_ofFloat finite
  have literal : Denotes (.number number) [.number n.written.toFloat] :=
    .literal (by simp only [Token.value?, found])
  have whole (plain : n.Plain) : number = .int (Decimal.digitsValue n.whole.val) := by
    rw [written_toFloat_of_plain plain, ofFloat_nearest plain.bound] at found
    cases found
    rfl
  cases negative : n.negative with
  | false =>
      refine ⟨number, _, literal, fun plain => ?_, fun rest clear => ?_⟩
      · simp [whole plain, Numeral.integer, negative]
      · simpa [Numeral.text, negative] using lexes_unsigned n clear
  | true =>
      refine ⟨opposite number, _, literal.minus, fun plain => ?_, fun rest clear => ?_⟩
      · simp [whole plain, Numeral.integer, negative, opposite]
      · have minus : Lexes ('-' :: n.unsigned) _ rest := .symbol rfl (lexes_unsigned n clear)
        simpa [Numeral.text, negative] using minus

/-! ## Values -/

theorem clear_blanks (after : Blanks) {rest : List Char} (clear : Clear rest) : Clear (after.val ++ rest) := by
  obtain ⟨blanks, all⟩ := after
  cases blanks with
  | nil => exact clear
  | cons c blanks =>
      have space := all c (by simp)
      simp only [Json.isSpace, Bool.or_eq_true, beq_iff_eq] at space
      rcases space with ((rfl | rfl) | rfl) | rfl <;> rfl

/-- A value between blanks, before what separates it from others or closes it in. -/
theorem lexes_between {text : List Char} {ts us : List Token}
    (lexes : ∀ rest, Clear rest → Lexes text ts rest) (before after : Blanks) {more rest : List Char}
    (clear : Clear (more ++ rest)) (behind : Lexes more us rest) :
    Lexes (before.val ++ (text ++ (after.val ++ more))) (ts ++ us) rest := by
  have value := lexes (after.val ++ more ++ rest) (by
    rw [List.append_assoc]
    exact clear_blanks after clear)
  exact (separates_blanks before).lexes (value.append ((separates_blanks after).lexes behind))

mutual

/-- The text of a JSON value is cut into the tokens of a literal. -/
theorem exists_denotes_tree : ∀ tree : Tree, (∀ m ∈ tree.marks, ¬ m.IsSurrogate) →
    (∀ n ∈ tree.numerals, n.Finite) → ∃ value ts, Denotes value ts ∧
      ((∀ n ∈ tree.numerals, n.Plain) → value = tree.value) ∧
        ∀ rest, Clear rest → Lexes tree.text ts rest
  | .null, _, _ => ⟨_, _, .literal rfl, fun _ => rfl, fun _ clear => .keyword .nullWord clear⟩
  | .bool true, _, _ => ⟨_, _, .literal rfl, fun _ => rfl, fun _ clear => .keyword .trueWord clear⟩
  | .bool false, _, _ => ⟨_, _, .literal rfl, fun _ => rfl, fun _ clear => .keyword .falseWord clear⟩
  | .number n, _, finite => by
      rw [Tree.numerals, List.forall_mem_singleton] at finite
      obtain ⟨number, ts, denotes, whole, lexes⟩ := exists_denotes_numeral finite
      refine ⟨_, ts, denotes, fun plain => ?_, lexes⟩
      rw [Tree.numerals, List.forall_mem_singleton] at plain
      rw [whole plain, Tree.value]
  | .string marks, whole, _ => by
      rw [Tree.marks] at whole
      exact ⟨_, _, .literal rfl, fun _ => rfl, fun rest _ => lexes_marks whole rest⟩
  | .emptyArray inside, _, _ => by
      have close (rest : List Char) : Lexes [']'] [.symbol .closeBracket] rest := .token rfl
      exact ⟨_, _, .array .none, fun _ => rfl, fun rest _ =>
        .symbol rfl ((separates_blanks inside).lexes (close rest))⟩
  | .array items, whole, finite => by
      obtain ⟨values, ts, denotes, same, lexes⟩ := exists_denotes_items items whole finite
      exact ⟨_, _, .array denotes, fun plain => by rw [same plain, Tree.value], fun rest _ =>
        .symbol rfl (lexes rest)⟩
  | .emptyObject inside, _, _ => by
      have close (rest : List Char) : Lexes ['\x7d'] [.symbol .closeBrace] rest := .token rfl
      exact ⟨_, _, .object .none, fun _ => rfl, fun rest _ =>
        .symbol rfl ((separates_blanks inside).lexes (close rest))⟩
  | .object members, whole, finite => by
      obtain ⟨values, ts, denotes, same, lexes⟩ := exists_denotes_members members whole finite
      exact ⟨_, _, .object denotes, fun plain => by rw [same plain, Tree.value], fun rest _ =>
        .symbol rfl (lexes rest)⟩

theorem exists_denotes_items : ∀ items : Elements, (∀ m ∈ items.marks, ¬ m.IsSurrogate) →
    (∀ n ∈ items.numerals, n.Finite) → ∃ values ts, DenotesItems values ts ∧
      ((∀ n ∈ items.numerals, n.Plain) → values = items.values) ∧
        ∀ rest, Lexes (items.text ++ [']']) ts rest
  | .last before item after, whole, finite => by
      obtain ⟨value, ts, denotes, same, lexes⟩ := exists_denotes_tree item whole finite
      refine ⟨[value], _, .last denotes, fun plain => by rw [same plain, Elements.values], fun rest => ?_⟩
      have close : Lexes [']'] [.symbol .closeBracket] rest := .token rfl
      rw [Elements.text, List.append_assoc, List.append_assoc]
      exact lexes_between lexes before after rfl close
  | .cons before item after others, whole, finite => by
      rw [Elements.marks, List.forall_mem_append] at whole
      rw [Elements.numerals, List.forall_mem_append] at finite
      obtain ⟨value, ts, denotes, same, lexes⟩ := exists_denotes_tree item whole.1 finite.1
      obtain ⟨values, us, denotes', same', lexes'⟩ := exists_denotes_items others whole.2 finite.2
      refine ⟨_, _, .cons denotes denotes', fun plain => ?_, fun rest => ?_⟩
      · rw [Elements.numerals, List.forall_mem_append] at plain
        rw [same plain.1, same' plain.2, Elements.values]
      · simp only [Elements.text, List.append_assoc, List.cons_append]
        exact lexes_between lexes before after rfl (.symbol rfl (lexes' rest))

theorem exists_denotes_members : ∀ members : Members, (∀ m ∈ members.marks, ¬ m.IsSurrogate) →
    (∀ n ∈ members.numerals, n.Finite) → ∃ values ts, DenotesEntries values ts ∧
      ((∀ n ∈ members.numerals, n.Plain) → values = members.values) ∧
        ∀ rest, Lexes (members.text ++ ['\x7d']) ts rest
  | .last before key behind ahead item after, whole, finite => by
      rw [Members.marks, List.forall_mem_append] at whole
      obtain ⟨value, ts, denotes, same, lexes⟩ := exists_denotes_tree item whole.2 finite
      have names : Token.key? (.string (content key)) = some (content key) := rfl
      refine ⟨[(content key, value)], _, .last names denotes, fun plain => by rw [same plain, Members.values],
        fun rest => ?_⟩
      have close : Lexes ['\x7d'] [.symbol .closeBrace] rest := .token rfl
      simp only [Members.text, List.append_assoc, List.cons_append]
      exact (separates_blanks before).lexes ((lexes_marks whole.1 _).append
        ((separates_blanks behind).lexes (.symbol rfl (lexes_between lexes ahead after rfl close))))
  | .cons before key behind ahead item after others, whole, finite => by
      simp only [Members.marks, List.forall_mem_append] at whole
      rw [Members.numerals, List.forall_mem_append] at finite
      obtain ⟨value, ts, denotes, same, lexes⟩ := exists_denotes_tree item whole.2.1 finite.1
      obtain ⟨values, us, denotes', same', lexes'⟩ := exists_denotes_members others whole.2.2 finite.2
      have names : Token.key? (.string (content key)) = some (content key) := rfl
      refine ⟨_, _, .cons names denotes denotes', fun plain => ?_, fun rest => ?_⟩
      · rw [Members.numerals, List.forall_mem_append] at plain
        rw [same plain.1, same' plain.2, Members.values]
      · simp only [Members.text, List.append_assoc, List.cons_append]
        exact (separates_blanks before).lexes ((lexes_marks whole.1 _).append
          ((separates_blanks behind).lexes (.symbol rfl
            (lexes_between lexes ahead after rfl (.symbol rfl (lexes' rest))))))

end

/-- JSON texts with finite numbers are literals, unless an escape in them is half of a character. Where the
numbers are plain integers, the value is the one of the text, which the reader of JSON finds as well. -/
theorem parseLiteral_json (tree : Tree) (before after : Blanks)
    (finite : ∀ n ∈ tree.numerals, n.Finite) (whole : ∀ m ∈ tree.marks, ¬ m.IsSurrogate) :
    ∃ value, parseLiteral (before.val ++ (tree.text ++ after.val)) = .ok value ∧
      ((∀ n ∈ tree.numerals, n.Plain) → value = tree.value ∧
        Value.parse? (String.ofList (before.val ++ (tree.text ++ after.val))) = some value) := by
  obtain ⟨value, ts, denotes, same, lexes⟩ := exists_denotes_tree tree whole finite
  obtain ⟨e, phrase, constant⟩ := denotes.exists_phrase
  have source : Lexes (before.val ++ (tree.text ++ (after.val ++ []))) (ts ++ []) [] :=
    lexes_between lexes before after trivial (.nil [])
  rw [List.append_nil, List.append_nil] at source
  refine ⟨value, parseLiteral_of_phrase (phrase.weaken (Nat.zero_le _)) source constant, fun plain => ?_⟩
  rw [same plain]
  exact ⟨rfl, tree.parse? whole plain before after⟩

/-- A number with a sign, an escape by number, and blanks. -/
def jsonSample : Tree :=
  .array (.cons ⟨[' '], List.all_eq_true.mp rfl⟩
    (.number ⟨true, ⟨['1', '2'], by simp, List.all_eq_true.mp rfl⟩, none, none, by simp⟩) ⟨[], by simp⟩
    (.last ⟨['\n'], List.all_eq_true.mp rfl⟩
      (.string [.unit ⟨'0', rfl⟩ ⟨'0', rfl⟩ ⟨'E', rfl⟩ ⟨'9', rfl⟩, .escape .slash]) ⟨[], by simp⟩))

theorem parseLiteral_json_sample :
    parseLiteral "[ -12,\n\"\\u00E9\\/\"] ".toList = .ok (.array [.number (.int (-12)), .string "é/"]) ∧
      Value.parse? "[ -12,\n\"\\u00E9\\/\"] " = some (.array [.number (.int (-12)), .string "é/"]) := by
  have finite : ∀ n ∈ jsonSample.numerals, n.Finite := by
    intro n member
    rw [List.mem_singleton.mp member]
    change (Decimal.Written.toFloat _).isFinite = true
    decide +kernel
  have plain : ∀ n ∈ jsonSample.numerals, n.Plain := by
    intro n member
    rw [List.mem_singleton.mp member]
    exact ⟨rfl, rfl, by decide +kernel, by decide +kernel⟩
  have whole : ∀ m ∈ jsonSample.marks, ¬ m.IsSurrogate := by decide +kernel
  obtain ⟨value, read, same⟩ :=
    parseLiteral_json jsonSample ⟨[], by simp⟩ ⟨[' '], List.all_eq_true.mp rfl⟩ finite whole
  obtain ⟨rfl, found⟩ := same plain
  exact ⟨read, found⟩

/-- A character beyond 16 bits, by the two halves that JSON writes for it. -/
def surrogatePair : Tree :=
  .string [.unit ⟨'d', rfl⟩ ⟨'8', rfl⟩ ⟨'3', rfl⟩ ⟨'d', rfl⟩, .unit ⟨'d', rfl⟩ ⟨'e', rfl⟩ ⟨'0', rfl⟩ ⟨'0', rfl⟩]

/-- Of JSON texts with finite numbers, not all are literals. -/
theorem surrogate_pair_refused : ¬ ∀ (tree : Tree) (before after : Blanks),
    (∀ n ∈ tree.numerals, n.Finite) →
      ∃ value, parseLiteral (before.val ++ (tree.text ++ after.val)) = .ok value ∧
        ((∀ n ∈ tree.numerals, n.Plain) → value = tree.value ∧
          Value.parse? (String.ofList (before.val ++ (tree.text ++ after.val))) = some value) := by
  intro all
  obtain ⟨value, read, -⟩ := all surrogatePair ⟨[], by simp⟩ ⟨[], by simp⟩
    (by simp [surrogatePair, Tree.numerals])
  have refused : (parseLiteral surrogatePair.text).toOption.isNone = true := by decide +kernel
  simp only [List.nil_append, List.append_nil] at read
  rw [read] at refused
  cases refused

end StaticSite.Template
