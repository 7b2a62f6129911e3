import StaticSite.Proofs.Template.Inclusion
import StaticSite.Proofs.Template.Positions

/-!
What may stand between quotes. It is cut into parts, each a character or an escape, up to the closing quote; where it
cannot be cut further before that, the string is refused, for its end or for an escape. A plus sign is taken for the
first of the four digits of an escape.
-/

namespace StaticSite.Template

open Json.Grammar (HexDigit unitValue)
open Text (byteLength byteLength_cons byteLength_nil byteLength_append)

/-! ## Parts -/

/-- The letters that stand for control characters behind a backslash. -/
def controls : List (Char × Char) :=
  [('n', '\n'), ('t', '\t'), ('r', '\r'), ('b', '\x08'), ('f', '\x0c'), ('0', '\x00')]

/-- The number that three hexadecimal digits write. -/
def shortValue (b c d : HexDigit) : Nat := (HexDigit.value b * 16 + HexDigit.value c) * 16 + HexDigit.value d

/-- A part of what stands between two quotes, and the characters that it stands for. -/
inductive StringPart (quote : Char) : List Char → List Char → Prop
  | plain {c : Char} (notQuote : c ≠ quote) (notBackslash : c ≠ '\\') (notLineFeed : c ≠ '\n') : StringPart quote [c] [c]
  | control {letter char : Char} (listed : (letter, char) ∈ controls) : StringPart quote ['\\', letter] [char]
  /-- A line that goes on in the next one. -/
  | lineFeed : StringPart quote ['\\', '\n'] []
  | itself {c : Char} (unlisted : ∀ char, (c, char) ∉ controls) (notLineFeed : c ≠ '\n') (notUnicode : c ≠ 'u') :
      StringPart quote ['\\', c] [c]
  | unicode (a b c d : HexDigit) (valid : (unitValue a b c d).isValidChar) :
      StringPart quote ['\\', 'u', a.val, b.val, c.val, d.val] [Char.ofNat (unitValue a b c d)]
  /-- Only three digits, behind a plus sign. -/
  | signed (b c d : HexDigit) :
      StringPart quote ['\\', 'u', '+', b.val, c.val, d.val] [Char.ofNat (shortValue b c d)]

/-- Parts one after the other. -/
inductive StringParts (quote : Char) : List Char → List Char → Prop
  | nil : StringParts quote [] []
  | cons {text chars more others : List Char} (first : StringPart quote text chars)
      (behind : StringParts quote more others) :
      StringParts quote (text ++ more) (chars ++ others)

/-- Text that ends, or whose line ends, where a part or the closing quote should stand. -/
inductive Unclosed : List Char → Prop
  | nothing : Unclosed []
  | backslash : Unclosed ['\\']
  | lineFeed (rest : List Char) : Unclosed ('\n' :: rest)

/-- Text that begins like an escape of four digits and is none. -/
def Malformed (quote : Char) (rest : List Char) : Prop :=
  (∃ behind, rest = '\\' :: 'u' :: behind) ∧ ∀ text chars more, StringPart quote text chars → rest ≠ text ++ more

variable {quote : Char} {text chars rest : List Char}

/-! ## Escapes -/

/-- A letter that is no `u` stands for its control character, a line feed for nothing, and any other character for
itself. -/
theorem part_escaped {c : Char} (notUnicode : c ≠ 'u') : StringPart quote ['\\', c] (escaped c) := by
  unfold escaped
  split
  · exact .control (by decide)
  · exact .control (by decide)
  · exact .control (by decide)
  · exact .control (by decide)
  · exact .control (by decide)
  · exact .control (by decide)
  · exact .lineFeed
  · refine .itself ?_ (by assumption) notUnicode
    intro char listed
    simp_all [controls]

theorem escaped_of_control : ∀ entry ∈ controls, escaped entry.1 = [entry.2] := by decide

theorem ne_unicode_of_control : ∀ entry ∈ controls, entry.1 ≠ 'u' := by decide

theorem escaped_itself {c : Char} (unlisted : ∀ char, (c, char) ∉ controls) (notLineFeed : c ≠ '\n') :
    escaped c = [c] := by
  unfold escaped
  split
  · exact absurd (by decide) (unlisted '\n')
  · exact absurd (by decide) (unlisted '\t')
  · exact absurd (by decide) (unlisted '\r')
  · exact absurd (by decide) (unlisted '\x08')
  · exact absurd (by decide) (unlisted '\x0c')
  · exact absurd (by decide) (unlisted '\x00')
  · exact absurd rfl notLineFeed
  · rfl

/-- Characters that write a number are digits. -/
theorem exists_hexDigits {value : Nat} (read : Text.numeral? 16 text = some value) :
    ∃ digits : List HexDigit, text = digits.map Subtype.val := by
  obtain ⟨values, mapped, -⟩ := Option.map_eq_some_iff.mp read
  clear read
  induction text generalizing values with
  | nil => exact ⟨[], rfl⟩
  | cons c text ih =>
      simp only [List.mapM_cons, Option.bind_eq_bind, Option.bind_eq_some_iff] at mapped
      obtain ⟨digit, found, others, mapped, -⟩ := mapped
      obtain ⟨digits, rfl⟩ := ih others mapped
      exact ⟨⟨c, by rw [Text.isDigitIn, found]; rfl⟩ :: digits, rfl⟩

theorem numeral?_short (b c d : HexDigit) : Text.numeral? 16 [b.val, c.val, d.val] = some (shortValue b c d) := by
  simp [Text.numeral?, Json.Grammar.digitValue?_hexDigit, shortValue]

/-- Four characters that name one behind `\u` make a part with it. -/
theorem part_of_unicodeEscape? {a b c d char : Char} (names : unicodeEscape? a b c d = some char) :
    StringPart quote ['\\', 'u', a, b, c, d] [char] := by
  obtain ⟨value, read, named⟩ := Option.bind_eq_some_iff.mp names
  split at named
  next valid =>
    cases named
    obtain ⟨digits, written⟩ := exists_hexDigits read
    split at written
    next plus =>
      match digits with
      | [b', c', d'] =>
        cases written
        rw [if_pos plus, numeral?_short] at read
        cases read
        exact plus ▸ .signed b' c' d'
    next =>
      match digits with
      | [a', b', c', d'] =>
        cases written
        rw [if_neg (by assumption), Json.Grammar.numeral?_unit] at read
        cases read
        exact .unicode a' b' c' d' valid
  · cases named

theorem unicodeEscape?_signed (b c d : HexDigit) :
    unicodeEscape? '+' b.val c.val d.val = some (Char.ofNat (shortValue b c d)) := by
  have valid : (shortValue b c d).isValidChar := by
    have := hexDigit_value_lt b
    have := hexDigit_value_lt c
    have := hexDigit_value_lt d
    simp only [Nat.isValidChar, shortValue]
    omega
  simp [unicodeEscape?, numeral?_short, valid]

theorem unicodeEscape?_of_part {a b c d : Char} (part : StringPart quote ['\\', 'u', a, b, c, d] chars) :
    ∃ char, unicodeEscape? a b c d = some char := by
  cases part with
  | unicode a b c d valid => exact ⟨_, unicodeEscape?_unicode valid⟩
  | signed b c d => exact ⟨_, unicodeEscape?_signed b c d⟩

/-! ## Reading parts -/

theorem stringBody_escape {c : Char} (notUnicode : c ≠ 'u') (offset : Nat) (rest : List Char) :
    stringBody quote offset (['\\', c] ++ rest) =
      (stringBody quote (offset + byteLength ['\\', c]) rest).map fun (read, width) =>
        (escaped c ++ read, width + 2) := by
  have size : offset + 1 + c.utf8Size = offset + byteLength ['\\', c] := by
    rw [byteLength_cons, byteLength_cons, byteLength_nil, Nat.add_zero, ← Nat.add_assoc]
    rfl
  rw [← size]
  exact stringBody_escaped notUnicode offset rest

theorem StringPart.stringBody (part : StringPart quote text chars) (offset : Nat) (rest : List Char) :
    Template.stringBody quote offset (text ++ rest) =
      (Template.stringBody quote (offset + byteLength text) rest).map fun (read, width) =>
        (chars ++ read, width + text.length) := by
  cases part with
  | plain notQuote notBackslash notLineFeed =>
      exact stringBody_plain notBackslash notLineFeed notQuote offset rest
  | control listed =>
      have stands := escaped_of_control _ listed
      rw [stringBody_escape (ne_unicode_of_control _ listed), stands]
      rfl
  | lineFeed => exact stringBody_escape (by decide) offset rest
  | itself unlisted notLineFeed notUnicode =>
      rw [stringBody_escape notUnicode, escaped_itself unlisted notLineFeed]
      rfl
  | unicode a b c d valid =>
      have names := unicodeEscape?_unicode valid
      have size : byteLength ['\\', 'u', a.val, b.val, c.val, d.val] = 6 := byteLength_unicodeEscape names
      rw [size]
      exact stringBody_unicode names offset rest
  | signed b c d =>
      have names := unicodeEscape?_signed b c d
      have size : byteLength ['\\', 'u', '+', b.val, c.val, d.val] = 6 := byteLength_unicodeEscape names
      rw [size]
      exact stringBody_unicode names offset rest

theorem StringParts.stringBody (parts : StringParts quote text chars) (offset : Nat) (rest : List Char) :
    Template.stringBody quote offset (text ++ rest) =
      (Template.stringBody quote (offset + byteLength text) rest).map fun (read, width) =>
        (chars ++ read, width + text.length) := by
  induction parts generalizing offset with
  | nil =>
      rw [List.nil_append, byteLength_nil, Nat.add_zero]
      cases Template.stringBody quote offset rest <;> rfl
  | cons first behind ih =>
      rw [List.append_assoc, first.stringBody, ih, byteLength_append, Nat.add_assoc]
      cases Template.stringBody quote _ rest with
      | error error => rfl
      | ok read =>
          simp only [Except.map, List.append_assoc, List.length_append, Except.ok.injEq, Prod.mk.injEq, true_and]
          omega

theorem Unclosed.stringBody (unclosed : Unclosed rest) (offset : Nat) :
    Template.stringBody quote offset rest = .error ⟨0, .unterminatedString⟩ := by
  cases unclosed <;> simp [Template.stringBody]

theorem Malformed.stringBody (malformed : Malformed quote rest) (offset : Nat) :
    Template.stringBody quote offset rest = .error ⟨offset, .invalidUnicodeEscape⟩ := by
  obtain ⟨⟨behind, rfl⟩, unreadable⟩ := malformed
  match behind with
  | a :: b :: c :: d :: behind =>
    rw [Template.stringBody]
    cases names : unicodeEscape? a b c d with
    | none => rfl
    | some char => exact absurd rfl (unreadable _ _ behind (part_of_unicodeEscape? names))
  | [] | [_] | [_, _] | [_, _, _] => simp [Template.stringBody]

/-- A part that begins like an escape of four digits is one. -/
theorem StringPart.exists_digits {behind more : List Char} (part : StringPart quote text chars)
    (same : '\\' :: 'u' :: behind = text ++ more) :
    ∃ a b c d, behind = a :: b :: c :: d :: more ∧ text = ['\\', 'u', a, b, c, d] := by
  cases part with
  | plain notQuote notBackslash notLineFeed =>
      cases same
      exact absurd rfl notBackslash
  | control listed =>
      cases same
      exact absurd rfl (ne_unicode_of_control _ listed)
  | lineFeed => cases same
  | itself unlisted notLineFeed notUnicode =>
      cases same
      exact absurd rfl notUnicode
  | unicode a b c d valid =>
      cases same
      exact ⟨_, _, _, _, rfl, rfl⟩
  | signed b c d =>
      cases same
      exact ⟨_, _, _, _, rfl, rfl⟩

theorem malformed_of_unnamed {behind : List Char}
    (unnamed : ∀ a b c d rest, behind = a :: b :: c :: d :: rest → unicodeEscape? a b c d = none) :
    Malformed quote ('\\' :: 'u' :: behind) := by
  refine ⟨⟨behind, rfl⟩, fun text chars more part same => ?_⟩
  obtain ⟨a, b, c, d, here, rfl⟩ := part.exists_digits same
  obtain ⟨char, names⟩ := unicodeEscape?_of_part part
  rw [unnamed a b c d more here] at names
  cases names

/-- Any text can be cut into parts up to a quote or up to where it is refused. -/
theorem exists_parts (quote : Char) (tail : List Char) :
    ∃ text chars rest, StringParts quote text chars ∧ tail = text ++ rest ∧
      ((∃ behind, rest = quote :: behind) ∨ Unclosed rest ∨ Malformed quote rest) := by
  have extend {part named behind : List Char} (first : StringPart quote part named)
      (others : ∃ text chars rest, StringParts quote text chars ∧ behind = text ++ rest ∧
        ((∃ behind, rest = quote :: behind) ∨ Unclosed rest ∨ Malformed quote rest)) :
      ∃ text chars rest, StringParts quote text chars ∧ part ++ behind = text ++ rest ∧
        ((∃ behind, rest = quote :: behind) ∨ Unclosed rest ∨ Malformed quote rest) := by
    obtain ⟨text, chars, rest, parts, rfl, stop⟩ := others
    exact ⟨_, _, rest, .cons first parts, (List.append_assoc ..).symm, stop⟩
  fun_induction stringBody quote 0 tail with
  | case1 => exact ⟨[], [], [], .nil, rfl, .inr (.inl .nothing)⟩
  | case2 offset a b c d rest unnamed =>
      refine ⟨[], [], _, .nil, rfl, .inr (.inr (malformed_of_unnamed ?_))⟩
      rintro _ _ _ _ _ ⟨⟩
      exact unnamed
  | case3 offset a b c d rest char names ih => exact extend (part_of_unicodeEscape? names) ih
  | case4 offset behind short =>
      refine ⟨[], [], _, .nil, rfl, .inr (.inr (malformed_of_unnamed ?_))⟩
      exact fun a b c d rest same => (short a b c d rest same).elim
  | case5 offset e rest _ notUnicode ih => exact extend (part_escaped notUnicode) ih
  | case6 offset c rest _ _ alone stops =>
      refine ⟨[], [], _, .nil, rfl, .inr (.inl ?_)⟩
      rw [Bool.or_eq_true, decide_eq_true_eq, decide_eq_true_eq] at stops
      rcases stops with rfl | rfl
      · cases rest with
        | nil => exact .backslash
        | cons e rest => exact (alone e rest rfl rfl).elim
      · exact .lineFeed rest
  | case7 offset rest => exact ⟨[], [], _, .nil, rfl, .inl ⟨_, rfl⟩⟩
  | case8 offset c rest _ _ _ goesOn notQuote ih =>
      rw [Bool.or_eq_true, decide_eq_true_eq, decide_eq_true_eq, not_or] at goesOn
      exact extend (.plain notQuote goesOn.1 goesOn.2) ih

/-! ## Strings -/

section Strings

variable {text chars rest tail : List Char} (isQuote : quote = '"' ∨ quote = '\'')

include isQuote

theorem lexeme_quote (tail : List Char) :
    lexeme quote tail = (stringBody quote 1 tail).map fun (chars, width) =>
      ⟨some (.string (String.ofList chars)), width⟩ := by
  rcases isQuote with rfl | rfl
  · cases read : stringBody '"' 1 tail <;> simp [lexeme, read, bind, Except.bind, Except.map]
  · cases read : stringBody '\'' 1 tail <;> simp [lexeme, read, bind, Except.bind, Except.map]

theorem stringBody_quote (offset : Nat) (rest : List Char) : stringBody quote offset (quote :: rest) = .ok ([], 1) := by
  rcases isQuote with rfl | rfl <;> simp [stringBody]

/-- Parts up to the closing quote are a string. -/
theorem lexeme_closed (parts : StringParts quote text chars) (rest : List Char) :
    lexeme quote (text ++ quote :: rest) = .ok ⟨some (.string (String.ofList chars)), text.length + 1⟩ := by
  rw [lexeme_quote isQuote, parts.stringBody, stringBody_quote isQuote]
  simp [Except.map, Nat.add_comm]

theorem lexeme_unclosed (parts : StringParts quote text chars) (unclosed : Unclosed rest) :
    lexeme quote (text ++ rest) = .error ⟨0, .unterminatedString⟩ := by
  rw [lexeme_quote isQuote, parts.stringBody, unclosed.stringBody]
  rfl

theorem lexeme_malformed (parts : StringParts quote text chars) (malformed : Malformed quote rest) :
    lexeme quote (text ++ rest) = .error ⟨1 + byteLength text, .invalidUnicodeEscape⟩ := by
  rw [lexeme_quote isQuote, parts.stringBody, malformed.stringBody]
  rfl

theorem lexeme_quote_ok_iff {lexed : Lexeme} :
    lexeme quote tail = .ok lexed ↔ ∃ text chars rest, StringParts quote text chars ∧ tail = text ++ quote :: rest ∧
      lexed = ⟨some (.string (String.ofList chars)), text.length + 1⟩ := by
  constructor
  · intro read
    obtain ⟨text, chars, rest, parts, rfl, ⟨behind, rfl⟩ | unclosed | malformed⟩ := exists_parts quote tail
    · rw [lexeme_closed isQuote parts] at read
      exact ⟨text, chars, behind, parts, rfl, (Except.ok.inj read).symm⟩
    · rw [lexeme_unclosed isQuote parts unclosed] at read
      cases read
    · rw [lexeme_malformed isQuote parts malformed] at read
      cases read
  · rintro ⟨text, chars, rest, parts, rfl, rfl⟩
    exact lexeme_closed isQuote parts rest

theorem lexeme_quote_error_iff {error : LexemeError} :
    lexeme quote tail = .error error ↔ ∃ text chars rest, StringParts quote text chars ∧ tail = text ++ rest ∧
      (Unclosed rest ∧ error = ⟨0, .unterminatedString⟩ ∨
        Malformed quote rest ∧ error = ⟨1 + byteLength text, .invalidUnicodeEscape⟩) := by
  constructor
  · intro failed
    obtain ⟨text, chars, rest, parts, rfl, ⟨behind, rfl⟩ | unclosed | malformed⟩ := exists_parts quote tail
    · rw [lexeme_closed isQuote parts] at failed
      cases failed
    · rw [lexeme_unclosed isQuote parts unclosed] at failed
      exact ⟨text, chars, rest, parts, rfl, .inl ⟨unclosed, (Except.error.inj failed).symm⟩⟩
    · rw [lexeme_malformed isQuote parts malformed] at failed
      exact ⟨text, chars, rest, parts, rfl, .inr ⟨malformed, (Except.error.inj failed).symm⟩⟩
  · rintro ⟨text, chars, rest, parts, rfl, ⟨unclosed, rfl⟩ | ⟨malformed, rfl⟩⟩
    · exact lexeme_unclosed isQuote parts unclosed
    · exact lexeme_malformed isQuote parts malformed

/-- Cutting goes on right behind the closing quote. -/
theorem lexFrom_closed (parts : StringParts quote text chars) (rest : List Char) (position : Nat) :
    lexFrom position (quote :: (text ++ quote :: rest)) =
      (lexFrom (position + byteLength (quote :: (text ++ [quote]))) rest).map
        (⟨.string (String.ofList chars), position⟩ :: ·) := by
  have read : lexeme quote ((text ++ [quote]) ++ rest) =
      .ok ⟨some (.string (String.ofList chars)), (text ++ [quote]).length⟩ := by
    rw [List.append_assoc, List.length_append]
    exact lexeme_closed isQuote parts rest
  rw [← List.singleton_append (l := rest), ← List.append_assoc, lexFrom, read]
  simp only [List.take_left, List.drop_left, byteLength_cons, Nat.add_assoc]
  cases lexFrom (position + (quote.utf8Size + byteLength (text ++ [quote]))) rest <;> rfl

end Strings

theorem lexFrom_of_lexeme_error {c : Char} {tail : List Char} {error : LexemeError}
    (failed : lexeme c tail = .error error) (position : Nat) :
    lexFrom position (c :: tail) = .error ⟨position + error.offset, error.problem⟩ := by
  rw [lexFrom, failed]

/-- Behind an opening quote stands a string exactly if the text consists of parts up to a closing quote, and its value
is what the parts stand for. Otherwise the error is at the opening quote, where the text or the line ends first, or at
the backslash of an escape that is none. -/
theorem strings_are_decoded {quote : Char} (isQuote : quote = '"' ∨ quote = '\'') (tail : List Char) :
    (∀ lexed, lexeme quote tail = .ok lexed ↔
      ∃ text chars rest, StringParts quote text chars ∧ tail = text ++ quote :: rest ∧
        lexed = ⟨some (.string (String.ofList chars)), text.length + 1⟩) ∧
    (∀ error, lexeme quote tail = .error error ↔
      ∃ text chars rest, StringParts quote text chars ∧ tail = text ++ rest ∧
        (Unclosed rest ∧ error = ⟨0, .unterminatedString⟩ ∨
          Malformed quote rest ∧ error = ⟨1 + byteLength text, .invalidUnicodeEscape⟩)) ∧
    ∀ position,
      (∀ text chars rest, StringParts quote text chars → tail = text ++ quote :: rest →
        lexFrom position (quote :: tail) =
          (lexFrom (position + byteLength (quote :: (text ++ [quote]))) rest).map
            (⟨.string (String.ofList chars), position⟩ :: ·)) ∧
      ∀ error, lexeme quote tail = .error error →
        lexFrom position (quote :: tail) = .error ⟨position + error.offset, error.problem⟩ := by
  refine ⟨fun lexed => lexeme_quote_ok_iff isQuote, fun error => lexeme_quote_error_iff isQuote, fun position => ⟨?_, ?_⟩⟩
  · rintro text chars rest parts rfl
    exact lexFrom_closed isQuote parts rest position
  · exact fun error failed => lexFrom_of_lexeme_error failed position

/-- An escaped apostrophe between apostrophes. -/
theorem strings_are_decoded_apostrophe :
    lexeme '\'' ['i', 't', '\\', '\'', 's', '\''] = .ok ⟨some (.string "it's"), 6⟩ := by
  have letter {c : Char} (plain : c ≠ '\'' ∧ c ≠ '\\' ∧ c ≠ '\n') : StringPart '\'' [c] [c] :=
    .plain plain.1 plain.2.1 plain.2.2
  have parts : StringParts '\'' ['i', 't', '\\', '\'', 's'] ['i', 't', '\'', 's'] :=
    .cons (letter (by decide)) (.cons (letter (by decide))
      (.cons (part_escaped (by decide)) (.cons (letter (by decide)) .nil)))
  exact ((strings_are_decoded (.inr rfl) _).1 _).mpr ⟨_, _, [], parts, rfl, rfl⟩

/-- A plus sign and three digits are an escape, although a plus sign is no digit. -/
theorem plus_sign_in_escape :
    lexFrom 0 ['"', '\\', 'u', '+', '0', '4', '1', '"'] = .ok [⟨.string "A", 0⟩] ∧
      Text.isDigitIn 16 '+' = false := by
  have parts : StringParts '"' ['\\', 'u', '+', '0', '4', '1'] ['A'] :=
    .cons (.signed ⟨'0', rfl⟩ ⟨'4', rfl⟩ ⟨'1', rfl⟩) .nil
  have read := lexFrom_closed (.inl rfl) parts [] 0
  rw [lexFrom] at read
  exact ⟨read, rfl⟩

end StaticSite.Template
