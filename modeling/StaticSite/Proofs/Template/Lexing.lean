import StaticSite.Proofs.Json.Printing
import StaticSite.Proofs.Text.Trimming
import StaticSite.Template.Lexer

/-!
Text that is cut into given tokens. What a lexeme is depends on the text behind it, so that text is part
of the statement; `Clear` text ends any word and any number before it.
-/

namespace StaticSite.Template

open Text

/-- Wherever it stands before `rest`, the text is cut into these tokens. -/
def Lexes (text : List Char) (tokens : List Token) (rest : List Char) : Prop :=
  ∀ position, ∃ placed : List Placed, placed.map Placed.token = tokens ∧
    lexFrom position (text ++ rest) =
      (lexFrom (position + byteLength text) rest).map (placed ++ ·)

theorem Lexes.nil (rest : List Char) : Lexes [] [] rest := by
  intro position
  refine ⟨[], rfl, ?_⟩
  rw [List.nil_append, byteLength_nil, Nat.add_zero]
  cases lexFrom position rest <;> rfl

theorem Lexes.append (first : Lexes a ts (b ++ rest)) (second : Lexes b us rest) :
    Lexes (a ++ b) (ts ++ us) rest := by
  intro position
  obtain ⟨front, rfl, readFirst⟩ := first position
  obtain ⟨behind, rfl, readSecond⟩ := second (position + byteLength a)
  refine ⟨front ++ behind, List.map_append, ?_⟩
  rw [List.append_assoc, readFirst, readSecond, byteLength_append, Nat.add_assoc]
  cases lexFrom (position + (byteLength a + byteLength b)) rest with
  | error error => rfl
  | ok tokens => simp [Except.map]

theorem Lexes.lexeme {token : Option Token}
    (read : lexeme c (more ++ rest) = .ok ⟨token, more.length⟩) :
    Lexes (c :: more) token.toList rest := by
  intro position
  refine ⟨token.toList.map (⟨·, position⟩), by cases token <;> rfl, ?_⟩
  rw [List.cons_append, lexFrom, read]
  simp only [List.take_left, List.drop_left, byteLength_cons, Nat.add_assoc]
  cases lexFrom (position + (c.utf8Size + byteLength more)) rest with
  | error error => rfl
  | ok tokens => cases token <;> rfl

theorem Lexes.token {token : Token}
    (read : Template.lexeme c (more ++ rest) = .ok ⟨some token, more.length⟩) : Lexes (c :: more) [token] rest := .lexeme read

theorem Lexes.symbol {s : Symbol} (read : Template.lexeme c (b ++ rest) = .ok ⟨some (.symbol s), 0⟩)
    (others : Lexes b us rest) : Lexes (c :: b) (.symbol s :: us) rest :=
  have first : Lexes [c] [.symbol s] (b ++ rest) := .token read
  first.append others

theorem Lexes.separator (read : Template.lexeme c (more ++ rest) = .ok ⟨none, more.length⟩) :
    Lexes (c :: more) [] rest := .lexeme read

theorem Lexes.blank (others : Lexes b us rest) : Lexes (' ' :: b) us rest :=
  have first : Lexes [' '] [] (b ++ rest) := .separator rfl
  first.append others

theorem Lexes.lexFrom (lexes : Lexes text ts []) (position : Nat) :
    ∃ placed, Template.lexFrom position text = .ok placed ∧ placed.map Placed.token = ts := by
  obtain ⟨placed, same, read⟩ := lexes position
  refine ⟨placed, ?_, same⟩
  rw [List.append_nil] at read
  rw [read, Template.lexFrom]
  simp [Except.map]

/-- Whether a word or a number ends before a text. -/
def Clear : List Char → Prop
  | [] => True
  | '.' :: rest => ∀ c ∈ rest.head?, Decimal.isDigit c = false
  | c :: _ => isWordPart c = false

theorem Clear.head_isWordPart (clear : Clear rest) : ∀ c ∈ rest.head?, isWordPart c = false := by
  intro c head
  cases rest with
  | nil => cases head
  | cons d rest =>
      cases head
      by_cases point : c = '.'
      · rw [point]
        rfl
      · simpa [Clear, point] using clear

theorem isDigit_eq_false_of_isWordPart {c : Char} (part : isWordPart c = false) :
    Decimal.isDigit c = false := by
  unfold isWordPart at part
  rw [Bool.or_eq_false_iff] at part
  exact part.2

theorem isDigit_eq_false_of_isWordStart {c : Char} (start : isWordStart c = true) :
    Decimal.isDigit c = false := by
  simp only [isWordStart, isLetter, Bool.or_eq_true, beq_iff_eq, Bool.and_eq_true, decide_eq_true_eq,
    Char.le_def, UInt32.le_iff_toNat_le, Char.reduceVal, UInt32.reduceToNat] at start
  simp only [Decimal.isDigit, Bool.and_eq_false_iff, decide_eq_false_iff_not,
    Char.le_def, UInt32.le_iff_toNat_le, Char.reduceVal, UInt32.reduceToNat]
  rcases start with (rfl | rfl) | letter
  · decide
  · decide
  · omega

theorem ne_of_isWordStart {c d : Char} (start : isWordStart c = true) (other : isWordStart d = false) :
    c ≠ d := by
  intro same
  subst same
  rw [start] at other
  cases other

theorem lexeme_word {c : Char} {rest : List Char} (start : isWordStart c = true) :
    lexeme c rest =
      .ok ⟨some (wordToken (String.ofList (c :: rest.takeWhile isWordPart))),
        (rest.takeWhile isWordPart).length⟩ := by
  have different (d : Char) (other : isWordStart d = false) : (c == d) = false :=
    beq_eq_false_iff_ne.mpr (ne_of_isWordStart start other)
  simp only [lexeme, different ' ' rfl, different '\t' rfl, different '\r' rfl, different '\n' rfl,
    different '/' rfl, different '"' rfl, different '\'' rfl, different '0' rfl, different '.' rfl,
    isDigit_eq_false_of_isWordStart start, start, Bool.or_self, Bool.false_and, Bool.false_eq_true,
    if_false, if_true]

theorem lexeme_digit {c : Char} {rest : List Char} (digit : Decimal.isDigit c = true)
    (decimal : ∀ d ∈ rest.head?, d ≠ 'x' ∧ d ≠ 'X') : lexeme c rest = decimalNumber (c :: rest) := by
  have different (d : Char) (other : Decimal.isDigit d = false) : (c == d) = false := by
    refine beq_eq_false_iff_ne.mpr ?_
    intro same
    subst same
    rw [digit] at other
    cases other
  have notHex : (c == '0' && (rest.head? == some 'x' || rest.head? == some 'X')) = false := by
    cases rest with
    | nil => simp
    | cons d rest => simp [decimal d rfl]
  simp only [lexeme, different ' ' rfl, different '\t' rfl, different '\r' rfl, different '\n' rfl,
    different '/' rfl, different '"' rfl, different '\'' rfl, notHex, digit, Bool.or_self, Bool.false_and,
    Bool.false_eq_true, Bool.true_or, if_false, if_true]

theorem Lexes.word {c : Char} {more : List Char} (start : isWordStart c = true)
    (parts : ∀ d ∈ more, isWordPart d = true) (clear : Clear rest) :
    Lexes (c :: more) [wordToken (String.ofList (c :: more))] rest := by
  refine Lexes.token ?_
  rw [lexeme_word start, takeWhile_append_of_head parts clear.head_isWordPart]

theorem lexeme_dot {c : Char} {rest : List Char} (start : isWordStart c = true) :
    lexeme '.' (c :: rest) = .ok ⟨some (.symbol .dot), 0⟩ := by
  have point : Decimal.isDigit '.' = false := rfl
  simp [lexeme, symbol?, isDigit_eq_false_of_isWordStart start, point, isWordStart, isLetter]

/-- Letters, digits, underscores and dollar signs, with no digit in front. -/
def IsWord (word : String) : Prop :=
  ∃ c more, word.toList = c :: more ∧ isWordStart c = true ∧ ∀ d ∈ more, isWordPart d = true

namespace IsWord

variable {word : String}

theorem isWordPart (shaped : IsWord word) : ∀ c ∈ word.toList, isWordPart c = true := by
  obtain ⟨c, more, chars, start, parts⟩ := shaped
  rw [chars]
  refine List.forall_mem_cons.mpr ⟨?_, parts⟩
  rw [Template.isWordPart, start, Bool.true_or]

theorem lexes (shaped : IsWord word) (clear : Clear rest) : Lexes word.toList [wordToken word] rest := by
  obtain ⟨c, more, chars, start, parts⟩ := shaped
  have read := Lexes.word start parts clear
  rwa [← chars, String.ofList_toList] at read

/-- A dot before a word is no decimal point. -/
theorem clear_dot (shaped : IsWord word) (rest : List Char) : Clear ('.' :: (word.toList ++ rest)) := by
  obtain ⟨c, more, chars, start, _⟩ := shaped
  rw [chars]
  intro d head
  cases head
  exact isDigit_eq_false_of_isWordStart start

theorem lexes_dot (shaped : IsWord word) (clear : Clear rest) :
    Lexes ('.' :: word.toList) [.symbol .dot, wordToken word] rest := by
  refine .symbol ?_ (shaped.lexes clear)
  obtain ⟨c, more, chars, start, _⟩ := shaped
  rw [chars]
  exact lexeme_dot start

end IsWord

theorem exponentPart?_of_clear (clear : Clear rest) : Decimal.exponentPart? rest = none := by
  cases rest with
  | nil => rfl
  | cons c rest =>
      have different (d : Char) (part : isWordPart d = true) : (c != d) = true := by
        rw [bne_iff_ne]
        intro same
        subst same
        rw [clear.head_isWordPart c rfl] at part
        cases part
      simp [Decimal.exponentPart?, different 'e' rfl, different 'E' rfl]

theorem decimalNumber_append {digits : List Char} (all : ∀ c ∈ digits, Decimal.isDigit c = true)
    (clear : Clear rest) :
    decimalNumber (digits ++ rest) =
      .ok ⟨some (.number (Decimal.nearest (Decimal.digitsValue digits) 0)), digits.length - 1⟩ := by
  have ends : ∀ c ∈ rest.head?, Decimal.isDigit c = false := fun c head =>
    isDigit_eq_false_of_isWordPart (clear.head_isWordPart c head)
  have whole := takeWhile_append_of_head all ends
  have behind := dropWhile_append_of_head all ends
  have noLetter : (rest.head?.any fun c => c == '_' || isLetter c) = false := by
    cases rest with
    | nil => rfl
    | cons c rest =>
        have part := clear.head_isWordPart c rfl
        simp only [isWordPart, isWordStart, Bool.or_eq_false_iff] at part
        simp [part]
  have exponent := exponentPart?_of_clear clear
  unfold decimalNumber
  simp only [whole, behind]
  split
  · rename_i more
    have noFraction : more.takeWhile Decimal.isDigit = [] := by
      cases more with
      | nil => rfl
      | cons d more => exact List.takeWhile_cons_of_neg (by simp [clear d rfl])
    simp [noFraction, exponent, show isLetter '.' = false by decide, Decimal.Written.toFloat]
  · simp [exponent, noLetter, Decimal.Written.toFloat]

theorem Lexes.whole (n : Nat) (clear : Clear rest) :
    Lexes (Decimal.natDigits n) [.number (Decimal.nearest n 0)] rest := by
  have all := Decimal.isDigit_of_mem_natDigits (n := n)
  have value := Decimal.digitsValue_natDigits n
  cases digits : Decimal.natDigits n with
  | nil => exact absurd digits Nat.toDigits_ne_nil
  | cons c more =>
      rw [digits] at all value
      have decimal : ∀ d ∈ (more ++ rest).head?, d ≠ 'x' ∧ d ≠ 'X' := by
        have behind : ∀ d ∈ (more ++ rest).head?, Decimal.isDigit d = true ∨ isWordPart d = false := by
          intro d head
          cases more with
          | nil => exact .inr (clear.head_isWordPart d head)
          | cons e more =>
              cases head
              exact .inl (all d (by simp))
        intro d head
        refine ⟨?_, ?_⟩ <;> rintro rfl <;> rcases behind _ head with digit | part
        all_goals first | cases digit | cases part
      refine Lexes.token ?_
      rw [lexeme_digit (all c (by simp)) decimal, ← List.cons_append, decimalNumber_append all clear,
        value]
      rfl

/-- Whether what stands for a character between double quotes is read as that character. -/
def Escapes (escape : Char → List Char) : Prop :=
  ∀ c offset rest, stringBody '"' offset (escape c ++ rest) =
    (stringBody '"' (offset + byteLength (escape c)) rest).map fun (chars, width) =>
      (c :: chars, width + (escape c).length)

theorem Escapes.stringBody {escape : Char → List Char} (escapes : Escapes escape) (chars rest : List Char)
    (offset : Nat) :
    Template.stringBody '"' offset (chars.flatMap escape ++ '"' :: rest) =
      .ok (chars, (chars.flatMap escape).length + 1) := by
  induction chars generalizing offset with
  | nil => simp [Template.stringBody]
  | cons c chars ih =>
      rw [List.flatMap_cons, List.append_assoc, escapes, ih]
      simp only [Except.map, List.length_append, Except.ok.injEq, Prod.mk.injEq, true_and]
      omega

theorem Lexes.quoted {escape : Char → List Char} (escapes : Escapes escape) (s : String)
    (rest : List Char) :
    Lexes ('"' :: (s.toList.flatMap escape ++ ['"'])) [.string s] rest := by
  refine Lexes.token ?_
  have read := escapes.stringBody s.toList rest 1
  simp only [List.append_assoc, List.cons_append, List.nil_append]
  simp [Template.lexeme, read, bind, Except.bind]

theorem stringBody_plain {quote c : Char} (notBackslash : c ≠ '\\') (notLineFeed : c ≠ '\n') (notQuote : c ≠ quote)
    (offset : Nat) (rest : List Char) :
    stringBody quote offset (c :: rest) =
      (stringBody quote (offset + c.utf8Size) rest).map fun (chars, width) => (c :: chars, width + 1) := by
  rw [stringBody]
  · simp only [notBackslash, notLineFeed, notQuote, decide_false, Bool.or_self, Bool.false_eq_true,
      if_false]
    rfl
  all_goals
    intros
    simp_all

theorem stringBody_escaped {quote e : Char} (notUnicode : e ≠ 'u') (offset : Nat) (rest : List Char) :
    stringBody quote offset ('\\' :: e :: rest) =
      (stringBody quote (offset + 1 + e.utf8Size) rest).map fun (chars, width) =>
        (escaped e ++ chars, width + 2) := by
  rw [stringBody]
  · rfl
  all_goals
    intros
    simp_all

theorem stringBody_unicode {quote a b c d char : Char} (names : unicodeEscape? a b c d = some char)
    (offset : Nat) (rest : List Char) :
    stringBody quote offset ('\\' :: 'u' :: a :: b :: c :: d :: rest) =
      (stringBody quote (offset + 6) rest).map fun (chars, width) => (char :: chars, width + 6) := by
  rw [stringBody, names]
  rfl

theorem unicodeEscape?_control : ∀ n < 0x20, unicodeEscape? '0' '0' (Json.hexDigit (n / 16))
    (Json.hexDigit (n % 16)) = some (Char.ofNat n) := by
  decide

theorem utf8Size_hexDigit : ∀ n < 16, (Json.hexDigit n).utf8Size = 1 := by
  decide

/-- The escapes of printed values are those of template strings. -/
theorem escapes_printChar : Escapes Json.printChar := by
  intro c offset rest
  unfold Json.printChar
  split
  · exact stringBody_escaped (by decide) offset rest
  · exact stringBody_escaped (by decide) offset rest
  · exact stringBody_escaped (by decide) offset rest
  · exact stringBody_escaped (by decide) offset rest
  · exact stringBody_escaped (by decide) offset rest
  · exact stringBody_escaped (by decide) offset rest
  · exact stringBody_escaped (by decide) offset rest
  · split
    · rename_i control
      have names := unicodeEscape?_control c.toNat control
      rw [Char.ofNat_toNat] at names
      have high := utf8Size_hexDigit (c.toNat / 16) (by omega)
      have low := utf8Size_hexDigit (c.toNat % 16) (by omega)
      have size : byteLength ['\\', 'u', '0', '0', Json.hexDigit (c.toNat / 16),
          Json.hexDigit (c.toNat % 16)] = 6 := by
        simp only [byteLength_cons, byteLength_nil, high, low]
        rfl
      rw [size]
      exact stringBody_unicode names offset rest
    · exact stringBody_plain (by assumption) (by assumption) (by assumption) offset rest

end StaticSite.Template
