import StaticSite.Proofs.Decimal.Whole
import StaticSite.Proofs.Template.Lexing
import StaticSite.Proofs.Template.Phrase

/-!
Expressions as text, with no more parentheses than their operators need. The text is cut into the tokens
of the expression, wherever a word could end.
-/

namespace StaticSite.Template

open Json (Value)

/-- Whether an identifier or the name of a member can be written as a word. -/
def isName (name : String) : Bool :=
  match name.toList with
  | c :: more => isWordStart c && more.all isWordPart && (Keyword.ofWord? name).isNone
  | [] => false

/-- Whether a value can be written as a single token. -/
def isPrintableLiteral : Value → Bool
  | .null | .bool _ | .string _ => true
  | .number (.int n) => 0 ≤ n && n < 2 ^ 53
  | _ => false

mutual

/-- Whether an expression can be written in a template. -/
def Expr.printable : Expr → Bool
  | .literal _ value => isPrintableLiteral value
  | .variable _ name => isName name
  | .array _ items => Expr.printableItems items
  | .object _ entries => Expr.printableEntries entries
  | .member _ target name => target.printable && isName name
  | .index _ target key => target.printable && key.printable
  | .call _ name arguments => isName name && name != "include" && Expr.printableItems arguments
  | .unary _ _ operand => operand.printable
  | .binary _ _ left right => left.printable && right.printable
  | .conditional _ condition yes no => condition.printable && yes.printable && no.printable

def Expr.printableItems : List Expr → Bool
  | [] => true
  | item :: rest => item.printable && Expr.printableItems rest

def Expr.printableEntries : List (String × Expr) → Bool
  | [] => true
  | (_, value) :: rest => value.printable && Expr.printableEntries rest

end

/-- What stands for a character between quotes. A `>` is given by its number, so that no text in quotes
ends a span. -/
def escapeChar (c : Char) : List Char := if c = '>' then "\\u003e".toList else Json.printChar c

def printQuoted (s : String) : List Char := '"' :: (s.toList.flatMap escapeChar ++ ['"'])

def printLiteral : Value → List Char
  | .string s => printQuoted s
  | value => value.printChars

/-- Text in parentheses if it needs them. -/
def grouped (needed : Bool) (text : List Char) : List Char :=
  if needed then '(' :: (text ++ [')']) else text

def UnaryOperator.char : UnaryOperator → Char
  | .not => '!'
  | .negate => '-'

mutual

/-- The text of an expression where one of at least the given level is wanted; the levels are those of
`Phrase`. -/
def Expr.print : Expr → Nat → List Char
  | .literal _ value, _ => printLiteral value
  | .variable _ name, _ => name.toList
  | .array _ items, _ => '[' :: (Expr.printItems items ++ [']'])
  | .object _ entries, _ => '\x7b' :: (Expr.printEntries entries ++ ['\x7d'])
  | .member _ target name, _ => target.print 8 ++ '.' :: name.toList
  | .index _ target key, _ => target.print 8 ++ '[' :: (key.print 0 ++ [']'])
  | .call _ name arguments, _ => name.toList ++ '(' :: (Expr.printItems arguments ++ [')'])
  | .unary _ operator operand, least => grouped (7 < least) (operator.char :: operand.print 7)
  | .binary _ operator left right, least =>
      grouped (operator.level + 1 < least)
        (left.print (operator.level + 1) ++
          ' ' :: (operator.symbol.toList ++ ' ' :: right.print (operator.level + 2)))
  | .conditional _ condition yes no, least =>
      grouped (0 < least)
        (condition.print 1 ++ ' ' :: '?' :: ' ' :: (yes.print 0 ++ ' ' :: ':' :: ' ' :: no.print 0))

def Expr.printItems : List Expr → List Char
  | [] => []
  | [item] => item.print 0
  | item :: rest => item.print 0 ++ ',' :: ' ' :: Expr.printItems rest

def Expr.printEntries : List (String × Expr) → List Char
  | [] => []
  | [(key, value)] => printQuoted key ++ ':' :: ' ' :: value.print 0
  | (key, value) :: rest =>
      printQuoted key ++ ':' :: ' ' :: (value.print 0 ++ ',' :: ' ' :: Expr.printEntries rest)

end

/-- Text that is cut into the tokens of an expression at a level. -/
def Spells (level : Nat) (e : Expr) (text : List Char) : Prop :=
  ∃ ts, Phrase level e ts ∧ ∀ rest, Clear rest → Lexes text ts rest

theorem Spells.weaken (spells : Spells tight e text) (looser : loose ≤ tight) : Spells loose e text := by
  obtain ⟨ts, phrase, lexes⟩ := spells
  exact ⟨ts, phrase.weaken looser, lexes⟩

theorem Spells.grouped (spells : Spells level e text) (bound : least ≤ 8) :
    Spells least e (grouped (level < least) text) := by
  by_cases needed : level < least
  · obtain ⟨ts, phrase, lexes⟩ := spells
    refine ⟨_, (Phrase.group (phrase.weaken (Nat.zero_le _))).weaken bound, fun rest clear => ?_⟩
    simp only [Template.grouped, needed, decide_true, if_true]
    exact .symbol rfl (.append (lexes _ rfl) (.token rfl))
  · simp only [Template.grouped, needed, decide_false, Bool.false_eq_true, if_false]
    exact spells.weaken (by omega)

theorem isName_iff {name : String} : isName name = true ↔ IsWord name ∧ Keyword.ofWord? name = none := by
  unfold isName IsWord
  cases name.toList with
  | nil => simp
  | cons c more =>
      simp only [Bool.and_eq_true, List.all_eq_true, Option.isNone_iff_eq_none, List.cons.injEq]
      constructor
      · intro given
        exact ⟨⟨c, more, ⟨rfl, rfl⟩, given.1⟩, given.2⟩
      · intro given
        obtain ⟨⟨_, _, ⟨rfl, rfl⟩, shaped⟩, free⟩ := given
        exact ⟨shaped, free⟩

theorem wordToken_of_free {word : String} (free : Keyword.ofWord? word = none) : wordToken word = .identifier word := by
  rw [wordToken, free]

theorem Lexes.name {name : String} (named : isName name = true) (clear : Clear rest) :
    Lexes name.toList [.identifier name] rest := by
  obtain ⟨shaped, free⟩ := isName_iff.mp named
  rw [← wordToken_of_free free]
  exact shaped.lexes clear

theorem Lexes.keyword (word : Keyword) (clear : Clear rest) :
    Lexes word.text.toList [.keyword word] rest := by
  cases word <;> exact .word rfl (List.all_eq_true.mp rfl) clear

theorem Spells.variable {name : String} (named : isName name = true) :
    Spells 8 (.variable 0 name) name.toList :=
  ⟨_, .variable name, fun _ clear => .name named clear⟩

theorem Spells.keyword (word : Keyword) {value : Value}
    (denotes : Token.value? (.keyword word) = some value) :
    Spells 8 (.literal 0 value) word.text.toList :=
  ⟨_, .literal denotes, fun _ clear => .keyword word clear⟩

theorem Spells.whole {n : Nat} (bound : n < 2 ^ 53) :
    Spells 8 (.literal 0 (.number (.int n))) (Decimal.natDigits n) := by
  refine ⟨_, .literal ?_, fun _ clear => .whole n clear⟩
  simp [Token.value?, ofFloat_nearest bound]

theorem Spells.quoted {escape : Char → List Char} (escapes : Escapes escape) (s : String) :
    Spells 8 (.literal 0 (.string s)) ('"' :: (s.toList.flatMap escape ++ ['"'])) :=
  ⟨_, .literal rfl, fun rest _ => .quoted escapes s rest⟩

theorem escapes_escapeChar : Escapes escapeChar := by
  intro c offset rest
  unfold escapeChar
  split
  · rename_i greater
    subst greater
    exact stringBody_unicode (by decide) offset rest
  · exact escapes_printChar c offset rest

theorem printLiteral_whole (n : Nat) : printLiteral (.number (.int n)) = Decimal.natDigits n := by
  simp [printLiteral, Value.printChars, Json.Number.print, Json.printInt]

/-- A value that is a single token is a word, a string or a whole number. -/
theorem printableLiteral_cases {value : Value} (printable : isPrintableLiteral value = true) :
    (∃ word : Keyword, Token.value? (.keyword word) = some value ∧ printLiteral value = word.text.toList) ∨
      (∃ s, value = .string s) ∨ ∃ n : Nat, n < 2 ^ 53 ∧ value = .number (.int n) := by
  cases value with
  | null => exact .inl ⟨.nullWord, rfl, rfl⟩
  | bool b =>
      cases b with
      | false => exact .inl ⟨.falseWord, rfl, rfl⟩
      | true => exact .inl ⟨.trueWord, rfl, rfl⟩
  | string s => exact .inr (.inl ⟨s, rfl⟩)
  | number n =>
      cases n with
      | float f => cases printable
      | int n =>
          simp only [isPrintableLiteral, Bool.and_eq_true, decide_eq_true_eq] at printable
          obtain ⟨n, rfl⟩ := Int.eq_ofNat_of_zero_le printable.1
          exact .inr (.inr ⟨n, by omega, rfl⟩)
  | array items => cases printable
  | object members => cases printable

theorem spells_printLiteral {value : Value} (printable : isPrintableLiteral value = true) :
    Spells 8 (.literal 0 value) (printLiteral value) := by
  rcases printableLiteral_cases printable with ⟨word, denotes, text⟩ | ⟨s, rfl⟩ | ⟨n, bound, rfl⟩
  · rw [text]
    exact .keyword word denotes
  · exact .quoted escapes_escapeChar s
  · rw [printLiteral_whole]
    exact .whole bound

theorem Spells.member {name : String} (target : Spells 8 t text) (named : isName name = true) :
    Spells 8 (.member 0 t name) (text ++ '.' :: name.toList) := by
  obtain ⟨ts, phrase, lexes⟩ := target
  obtain ⟨shaped, free⟩ := isName_iff.mp named
  refine ⟨_, phrase.member name, fun rest clear => .append (lexes _ (shaped.clear_dot rest)) ?_⟩
  rw [← wordToken_of_free free]
  exact shaped.lexes_dot clear

theorem Spells.index {inner : List Char} (target : Spells 8 t text) (key : Spells 0 i inner) :
    Spells 8 (.index 0 t i) (text ++ '[' :: (inner ++ [']'])) := by
  obtain ⟨ts, phrase, lexes⟩ := target
  obtain ⟨is, index, lexesIndex⟩ := key
  refine ⟨_, phrase.index index, fun rest clear => .append (lexes _ rfl) (.symbol rfl ?_)⟩
  exact .append (lexesIndex _ rfl) (.token rfl)

theorem UnaryOperator.lexes_char (operator : UnaryOperator) (others : Lexes text ts rest)
    (apart : (text ++ rest).head? ≠ some '=') :
    Lexes (operator.char :: text) (operator.token :: ts) rest := by
  cases operator with
  | negate => exact .symbol rfl others
  | not =>
      refine .symbol ?_ others
      cases behind : text ++ rest with
      | nil => rfl
      | cons c more =>
          rw [behind] at apart
          simp only [List.head?_cons, ne_eq, Option.some.injEq] at apart
          have letter : isLetter '!' = false := rfl
          simp [UnaryOperator.char, lexeme, symbol?, apart, isWordStart, letter, Decimal.isDigit]

theorem Spells.unary (operator : UnaryOperator) (operand : Spells 7 e text)
    (apart : ∀ rest, (text ++ rest).head? ≠ some '=') :
    Spells 7 (.unary 0 operator e) (operator.char :: text) := by
  obtain ⟨ts, phrase, lexes⟩ := operand
  exact ⟨_, .unary operator phrase, fun rest clear =>
    operator.lexes_char (lexes rest clear) (apart rest)⟩

theorem BinaryOperator.lexes_symbol (operator : BinaryOperator) (rest : List Char) :
    Lexes operator.symbol.toList [operator.token] (' ' :: rest) := by
  cases operator <;> exact .token rfl

theorem Spells.binary (operator : BinaryOperator) (left : Spells (operator.level + 1) l leftText)
    (right : Spells (operator.level + 2) r rightText) :
    Spells (operator.level + 1) (.binary 0 operator l r)
      (leftText ++ ' ' :: (operator.symbol.toList ++ ' ' :: rightText)) := by
  obtain ⟨ls, phraseLeft, lexesLeft⟩ := left
  obtain ⟨rs, phraseRight, lexesRight⟩ := right
  refine ⟨_, .binary operator phraseLeft phraseRight, fun rest clear =>
    .append (lexesLeft _ rfl) (.blank ?_)⟩
  exact .append (operator.lexes_symbol _) (.blank (lexesRight rest clear))

theorem Spells.conditional (condition : Spells 1 c conditionText) (yes : Spells 0 y yesText)
    (no : Spells 0 n noText) :
    Spells 0 (.conditional 0 c y n)
      (conditionText ++ ' ' :: '?' :: ' ' :: (yesText ++ ' ' :: ':' :: ' ' :: noText)) := by
  obtain ⟨cs, phraseCondition, lexesCondition⟩ := condition
  obtain ⟨ys, phraseYes, lexesYes⟩ := yes
  obtain ⟨ns, phraseNo, lexesNo⟩ := no
  refine ⟨_, .conditional phraseCondition phraseYes phraseNo, fun rest clear => ?_⟩
  refine .append (lexesCondition _ rfl) (.blank (.symbol rfl (.blank ?_)))
  refine .append (lexesYes _ rfl) ?_
  exact .blank (.symbol rfl (.blank (lexesNo rest clear)))

/-- Text between tokens that is none of them. -/
def Separates (gap : List Char) : Prop := ∀ rest, Lexes gap [] rest

theorem separates_nil : Separates [] := fun rest => .nil rest

theorem separates_blank : Separates [' '] := fun rest => .blank (.nil rest)

theorem Separates.lexes (separates : Separates gap) (others : Lexes text ts rest) :
    Lexes (gap ++ text) ts rest :=
  have first : Lexes gap [] (text ++ rest) := separates _
  first.append others

/-- Text that is cut into the tokens of expressions and the symbol that closes them. -/
def SpellsItems (close : Symbol) (es : List Expr) (text : List Char) : Prop :=
  ∃ ts, Items close es ts ∧ ∀ rest, Lexes text ts rest

/-- Text that is cut into the tokens of object entries and the brace that closes them. -/
def SpellsEntries (es : List (String × Expr)) (text : List Char) : Prop :=
  ∃ ts, Entries es ts ∧ ∀ rest, Lexes text ts rest

/-- A character that is a closing symbol, and ends any word or number before it. -/
structure SpellsClose (close : Symbol) (c : Char) : Prop where
  read : ∀ rest, lexeme c rest = .ok ⟨some (.symbol close), 0⟩
  clear : ∀ rest, Clear (c :: rest)

theorem spellsClose_closeParen : SpellsClose .closeParen ')' := ⟨fun _ => rfl, fun _ => rfl⟩

theorem spellsClose_closeBracket : SpellsClose .closeBracket ']' := ⟨fun _ => rfl, fun _ => rfl⟩

theorem SpellsItems.none (closes : SpellsClose close c) : SpellsItems close [] [c] :=
  ⟨_, .none, fun _ => .token (closes.read _)⟩

theorem SpellsItems.last (item : Spells 0 e text) (closes : SpellsClose close c) :
    SpellsItems close [e] (text ++ [c]) := by
  obtain ⟨ts, phrase, lexes⟩ := item
  exact ⟨_, .last phrase, fun rest => .append (lexes _ (closes.clear rest)) (.token (closes.read _))⟩

theorem SpellsItems.cons (separates : Separates gap) (item : Spells 0 e text)
    (others : SpellsItems close es more) : SpellsItems close (e :: es) (text ++ ',' :: (gap ++ more)) := by
  obtain ⟨ts, phrase, lexes⟩ := item
  obtain ⟨us, items, lexesOthers⟩ := others
  exact ⟨_, .cons phrase items, fun rest =>
    .append (lexes _ rfl) (.symbol rfl (separates.lexes (lexesOthers rest)))⟩

theorem SpellsEntries.none : SpellsEntries [] ['\x7d'] := ⟨_, .none, fun _ => .token rfl⟩

theorem SpellsEntries.last {escape : Char → List Char} (escapes : Escapes escape) (key : String)
    (separates : Separates gap) (value : Spells 0 e text) :
    SpellsEntries [(key, e)]
      ('"' :: (key.toList.flatMap escape ++ ['"']) ++ ':' :: (gap ++ (text ++ ['\x7d']))) := by
  obtain ⟨ts, phrase, lexes⟩ := value
  refine ⟨_, .last (show Token.key? (.string key) = some key from rfl) phrase, fun rest => ?_⟩
  refine .append (.quoted escapes key _) (.symbol rfl (separates.lexes ?_))
  exact .append (lexes _ rfl) (.token rfl)

theorem SpellsEntries.cons {escape : Char → List Char} (escapes : Escapes escape) (key : String)
    (separates : Separates gap) (value : Spells 0 e text)
    (others : SpellsEntries es more) :
    SpellsEntries ((key, e) :: es)
      ('"' :: (key.toList.flatMap escape ++ ['"']) ++
        ':' :: (gap ++ (text ++ ',' :: (gap ++ more)))) := by
  obtain ⟨ts, phrase, lexes⟩ := value
  obtain ⟨us, entries, lexesOthers⟩ := others
  refine ⟨_, .cons (show Token.key? (.string key) = some key from rfl) phrase entries, fun rest => ?_⟩
  refine .append (.quoted escapes key _) (.symbol rfl (separates.lexes ?_))
  exact .append (lexes _ rfl) (.symbol rfl (separates.lexes (lexesOthers rest)))

theorem Spells.call {name : String} (named : isName name = true) (callable : name ≠ "include")
    (arguments : SpellsItems .closeParen es text) :
    Spells 8 (.call 0 name es) (name.toList ++ '(' :: text) := by
  obtain ⟨ts, items, lexes⟩ := arguments
  refine ⟨_, .call callable items, fun rest _ => ?_⟩
  exact .append (.name named (show Clear ('(' :: _) from rfl)) (.symbol rfl (lexes rest))

theorem Spells.array (items : SpellsItems .closeBracket es text) :
    Spells 8 (.array 0 es) ('[' :: text) := by
  obtain ⟨ts, items, lexes⟩ := items
  exact ⟨_, .array items, fun rest _ => .symbol rfl (lexes rest)⟩

theorem Spells.object (entries : SpellsEntries es text) :
    Spells 8 (.object 0 es) ('\x7b' :: text) := by
  obtain ⟨ts, entries, lexes⟩ := entries
  exact ⟨_, .object entries, fun rest _ => .symbol rfl (lexes rest)⟩

/-- Text that does not begin like the second half of an operator or of the end of a span. -/
def Opens (text : List Char) : Prop := ∃ c more, text = c :: more ∧ c ≠ '=' ∧ c ≠ '>'

theorem Opens.append (opens : Opens text) (rest : List Char) : Opens (text ++ rest) := by
  obtain ⟨c, more, rfl, apart⟩ := opens
  exact ⟨c, more ++ rest, rfl, apart⟩

theorem Opens.grouped (opens : Opens text) (needed : Bool) : Opens (grouped needed text) := by
  cases needed with
  | false => exact opens
  | true => exact ⟨'(', _, rfl, by decide, by decide⟩

theorem opens_of_isName {name : String} (named : isName name = true) : Opens name.toList := by
  obtain ⟨⟨c, more, chars, start, _⟩, _⟩ := isName_iff.mp named
  refine ⟨c, more, chars, ?_, ?_⟩ <;> rintro rfl <;> cases start

theorem opens_natDigits (n : Nat) : Opens (Decimal.natDigits n) := by
  have all := Decimal.isDigit_of_mem_natDigits (n := n)
  cases digits : Decimal.natDigits n with
  | nil => exact absurd digits Nat.toDigits_ne_nil
  | cons c more =>
      have digit := all c (by simp [digits])
      refine ⟨c, more, rfl, ?_, ?_⟩ <;> rintro rfl <;> cases digit

theorem opens_printLiteral {value : Value} (printable : isPrintableLiteral value = true) :
    Opens (printLiteral value) := by
  rcases printableLiteral_cases printable with ⟨word, denotes, text⟩ | ⟨s, rfl⟩ | ⟨n, bound, rfl⟩
  · rw [text]
    cases word <;> exact ⟨_, _, rfl, by decide, by decide⟩
  · exact ⟨_, _, rfl, by decide, by decide⟩
  · rw [printLiteral_whole]
    exact opens_natDigits n

theorem Expr.opens_print : ∀ (e : Expr) (least : Nat), e.printable = true → Opens (e.print least)
  | .literal _ value, _, printable => by
      rw [Expr.printable] at printable
      rw [Expr.print]
      exact opens_printLiteral printable
  | .variable _ name, _, printable => by
      rw [Expr.printable] at printable
      rw [Expr.print]
      exact opens_of_isName printable
  | .array _ _, _, _ | .object _ _, _, _ => ⟨_, _, by rw [Expr.print], by decide, by decide⟩
  | .member _ target _, _, printable | .index _ target _, _, printable => by
      rw [Expr.printable, Bool.and_eq_true] at printable
      rw [Expr.print]
      exact (target.opens_print 8 printable.1).append _
  | .call _ name _, _, printable => by
      simp only [Expr.printable, Bool.and_eq_true] at printable
      rw [Expr.print]
      exact (opens_of_isName printable.1.1).append _
  | .unary _ operator _, _, _ => by
      rw [Expr.print]
      refine Opens.grouped ?_ _
      cases operator <;> exact ⟨_, _, rfl, by decide, by decide⟩
  | .binary _ operator left _, _, printable => by
      rw [Expr.printable, Bool.and_eq_true] at printable
      rw [Expr.print]
      exact ((left.opens_print _ printable.1).append _).grouped _
  | .conditional _ condition _ _, _, printable => by
      simp only [Expr.printable, Bool.and_eq_true] at printable
      rw [Expr.print]
      exact ((condition.opens_print 1 printable.1.1).append _).grouped _

theorem Opens.head_append (opens : Opens text) (rest : List Char) :
    (text ++ rest).head? ≠ some '=' := by
  obtain ⟨c, more, rfl, apart, _⟩ := opens
  simpa using apart

mutual

/-- The text of an expression is cut into tokens of that expression at the level it is printed for. -/
theorem Expr.spells_print : ∀ (e : Expr) (least : Nat), e.printable = true → least ≤ 8 →
    Spells least e.unplaced (e.print least)
  | .literal _ value, _, printable, bound => by
      rw [Expr.printable] at printable
      rw [Expr.print, Expr.unplaced]
      exact (spells_printLiteral printable).weaken bound
  | .variable _ name, _, printable, bound => by
      rw [Expr.printable] at printable
      rw [Expr.print, Expr.unplaced]
      exact (Spells.variable printable).weaken bound
  | .array _ items, _, printable, bound => by
      rw [Expr.printable] at printable
      rw [Expr.print, Expr.unplaced]
      exact (Spells.array (Expr.spells_printItems spellsClose_closeBracket items printable)).weaken bound
  | .object _ entries, _, printable, bound => by
      rw [Expr.printable] at printable
      rw [Expr.print, Expr.unplaced]
      exact (Spells.object (Expr.spells_printEntries entries printable)).weaken bound
  | .member _ target name, _, printable, bound => by
      rw [Expr.printable, Bool.and_eq_true] at printable
      rw [Expr.print, Expr.unplaced]
      exact (Spells.member (target.spells_print 8 printable.1 (by decide)) printable.2).weaken bound
  | .index _ target key, _, printable, bound => by
      rw [Expr.printable, Bool.and_eq_true] at printable
      rw [Expr.print, Expr.unplaced]
      exact (Spells.index (target.spells_print 8 printable.1 (by decide))
        (key.spells_print 0 printable.2 (by decide))).weaken bound
  | .call _ name arguments, _, printable, bound => by
      simp only [Expr.printable, Bool.and_eq_true, bne_iff_ne] at printable
      rw [Expr.print, Expr.unplaced]
      exact (Spells.call printable.1.1 printable.1.2
        (Expr.spells_printItems spellsClose_closeParen arguments printable.2)).weaken bound
  | .unary _ operator operand, _, printable, bound => by
      rw [Expr.printable] at printable
      rw [Expr.print, Expr.unplaced]
      exact (Spells.unary operator (operand.spells_print 7 printable (by decide))
        (operand.opens_print 7 printable).head_append).grouped bound
  | .binary _ operator left right, _, printable, bound => by
      have tight := level_le_tightest operator
      rw [Expr.printable, Bool.and_eq_true] at printable
      rw [Expr.print, Expr.unplaced]
      exact (Spells.binary operator (left.spells_print _ printable.1 (by omega))
        (right.spells_print _ printable.2 (by omega))).grouped bound
  | .conditional _ condition yes no, _, printable, bound => by
      simp only [Expr.printable, Bool.and_eq_true] at printable
      rw [Expr.print, Expr.unplaced]
      exact (Spells.conditional (condition.spells_print 1 printable.1.1 (by decide))
        (yes.spells_print 0 printable.1.2 (by decide))
        (no.spells_print 0 printable.2 (by decide))).grouped bound

theorem Expr.spells_printItems (closes : SpellsClose close c) : ∀ items : List Expr,
    Expr.printableItems items = true →
      SpellsItems close (Expr.unplacedItems items) (Expr.printItems items ++ [c])
  | [], _ => by
      rw [Expr.printItems, Expr.unplacedItems]
      exact .none closes
  | [item], printable => by
      simp only [Expr.printableItems, Bool.and_true] at printable
      simp only [Expr.printItems, Expr.unplacedItems]
      exact .last (item.spells_print 0 printable (by decide)) closes
  | item :: next :: rest, printable => by
      rw [Expr.printableItems, Bool.and_eq_true] at printable
      have first := item.spells_print 0 printable.1 (by decide)
      have others := Expr.spells_printItems closes (next :: rest) printable.2
      have whole := SpellsItems.cons separates_blank first others
      rw [Expr.printItems, Expr.unplacedItems, List.append_assoc]
      · exact whole
      · simp

theorem Expr.spells_printEntries : ∀ entries : List (String × Expr),
    Expr.printableEntries entries = true →
      SpellsEntries (Expr.unplacedEntries entries) (Expr.printEntries entries ++ ['\x7d'])
  | [], _ => by
      rw [Expr.printEntries, Expr.unplacedEntries]
      exact .none
  | [(key, value)], printable => by
      simp only [Expr.printableEntries, Bool.and_true] at printable
      have only := value.spells_print 0 printable (by decide)
      simp only [Expr.printEntries, Expr.unplacedEntries]
      rw [List.append_assoc]
      exact .last escapes_escapeChar key separates_blank only
  | (key, value) :: next :: rest, printable => by
      rw [Expr.printableEntries, Bool.and_eq_true] at printable
      have first := value.spells_print 0 printable.1 (by decide)
      have others := Expr.spells_printEntries (next :: rest) printable.2
      have whole := SpellsEntries.cons escapes_escapeChar key separates_blank first others
      rw [Expr.printEntries, Expr.unplacedEntries]
      · simp only [List.append_assoc, List.cons_append]
        exact whole
      · simp

end

/-- Text in which no span ends, even where a question mark stands before it. -/
def Quiet (text : List Char) : Prop := ¬ ['?', '>'] <:+: '?' :: text

instance (text : List Char) : Decidable (Quiet text) :=
  inferInstanceAs (Decidable (¬ ['?', '>'] <:+: '?' :: text))

theorem Quiet.cons {c : Char} (apart : c ≠ '>') (quiet : Quiet text) : Quiet (c :: text) := by
  unfold Quiet at quiet ⊢
  rw [List.infix_cons_iff, not_or]
  refine ⟨by simp [apart.symm], ?_⟩
  by_cases question : c = '?'
  · rwa [question]
  · rw [List.infix_cons_iff, not_or] at quiet ⊢
    refine ⟨?_, quiet.2⟩
    intro given
    rcases given with ⟨tail, begins⟩
    rw [List.cons_append, List.cons.injEq] at begins
    exact question begins.1.symm

theorem Quiet.open_append (quiet : Quiet more) (open_ : ¬ ['?', '>'] <:+: text) :
    ¬ ['?', '>'] <:+: text ++ more := by
  induction text with
  | nil =>
      unfold Quiet at quiet
      rw [List.infix_cons_iff, not_or] at quiet
      exact quiet.2
  | cons c text ih =>
      rw [List.infix_cons_iff, not_or] at open_
      rw [List.cons_append, List.infix_cons_iff, not_or]
      refine ⟨?_, ih open_.2⟩
      intro given
      rcases given with ⟨tail, begins⟩
      rw [List.cons_append, List.cons.injEq] at begins
      obtain ⟨rfl, begins⟩ := begins
      cases text with
      | nil => exact quiet ⟨[], tail, by simpa using begins⟩
      | cons d text =>
          simp only [List.cons_append, List.nil_append, List.cons.injEq] at begins
          exact open_.1 ⟨text, by rw [← begins.1]; rfl⟩

theorem Quiet.append (first : Quiet text) (second : Quiet more) : Quiet (text ++ more) :=
  second.open_append first

theorem Quiet.of_forall (apart : ∀ c ∈ text, c ≠ '>') : Quiet text := by
  induction text with
  | nil => decide
  | cons c text ih =>
      exact .cons (apart c (by simp)) (ih fun d member => apart d (by simp [member]))

theorem quiet_of_isName {name : String} (named : isName name = true) : Quiet name.toList := by
  refine .of_forall fun d member => ?_
  intro same
  subst same
  cases (isName_iff.mp named).1.isWordPart _ member

theorem quiet_natDigits (n : Nat) : Quiet (Decimal.natDigits n) := by
  refine .of_forall fun c member => ?_
  intro same
  subst same
  cases Decimal.isDigit_of_mem_natDigits _ member

theorem hexDigit_ne_greater : ∀ n < 16, Json.hexDigit n ≠ '>' := by
  decide

theorem ne_greater_of_mem_escapeChar {c d : Char} (member : d ∈ escapeChar c) : d ≠ '>' := by
  unfold escapeChar at member
  split at member
  · intro same
    subst same
    revert member
    decide
  · rename_i different
    unfold Json.printChar at member
    split at member
    iterate 7
      intro same
      subst same
      revert member
      decide
    split at member
    · have high := hexDigit_ne_greater (c.toNat / 16) (by omega)
      have low := hexDigit_ne_greater (c.toNat % 16) (by omega)
      simp only [List.mem_cons, List.not_mem_nil, or_false] at member
      intro same
      subst same
      rcases member with same | same | same | same | same | same
      iterate 4 exact absurd same (by decide)
      · exact high same.symm
      · exact low same.symm
    · rw [List.mem_singleton] at member
      rwa [member]

theorem quiet_printQuoted (s : String) : Quiet (printQuoted s) := by
  refine .of_forall fun c member => ?_
  simp only [printQuoted, List.mem_cons, List.mem_append, List.mem_flatMap, List.not_mem_nil,
    or_false] at member
  rcases member with rfl | ⟨d, _, inside⟩ | rfl
  · decide
  · exact ne_greater_of_mem_escapeChar inside
  · decide

theorem quiet_printLiteral {value : Value} (printable : isPrintableLiteral value = true) :
    Quiet (printLiteral value) := by
  rcases printableLiteral_cases printable with ⟨word, denotes, text⟩ | ⟨s, rfl⟩ | ⟨n, bound, rfl⟩
  · rw [text]
    cases word <;> decide
  · exact quiet_printQuoted s
  · rw [printLiteral_whole]
    exact quiet_natDigits n

theorem Quiet.grouped (quiet : Quiet text) (needed : Bool) : Quiet (grouped needed text) := by
  cases needed with
  | false => exact quiet
  | true => exact .cons (by decide) (quiet.append (by decide))

theorem BinaryOperator.quiet_symbol (operator : BinaryOperator) :
    Quiet (' ' :: operator.symbol.toList) := by
  cases operator <;> decide

mutual

theorem Expr.quiet_print : ∀ (e : Expr) (least : Nat), e.printable = true → Quiet (e.print least)
  | .literal _ value, _, printable => by
      rw [Expr.printable] at printable
      rw [Expr.print]
      exact quiet_printLiteral printable
  | .variable _ name, _, printable => by
      rw [Expr.printable] at printable
      rw [Expr.print]
      exact quiet_of_isName printable
  | .array _ items, _, printable => by
      rw [Expr.printable] at printable
      rw [Expr.print]
      exact .cons (by decide) ((Expr.quiet_printItems items printable).append (by decide))
  | .object _ entries, _, printable => by
      rw [Expr.printable] at printable
      rw [Expr.print]
      exact .cons (by decide) ((Expr.quiet_printEntries entries printable).append (by decide))
  | .member _ target name, _, printable => by
      rw [Expr.printable, Bool.and_eq_true] at printable
      rw [Expr.print]
      exact (target.quiet_print 8 printable.1).append (.cons (by decide) (quiet_of_isName printable.2))
  | .index _ target key, _, printable => by
      rw [Expr.printable, Bool.and_eq_true] at printable
      rw [Expr.print]
      exact (target.quiet_print 8 printable.1).append
        (.cons (by decide) ((key.quiet_print 0 printable.2).append (by decide)))
  | .call _ name arguments, _, printable => by
      simp only [Expr.printable, Bool.and_eq_true] at printable
      rw [Expr.print]
      exact (quiet_of_isName printable.1.1).append
        (.cons (by decide) ((Expr.quiet_printItems arguments printable.2).append (by decide)))
  | .unary _ operator operand, _, printable => by
      rw [Expr.printable] at printable
      rw [Expr.print]
      exact (Quiet.cons (by cases operator <;> decide) (operand.quiet_print 7 printable)).grouped _
  | .binary _ operator left right, _, printable => by
      rw [Expr.printable, Bool.and_eq_true] at printable
      rw [Expr.print]
      refine Quiet.grouped (.append (left.quiet_print _ printable.1) ?_) _
      exact operator.quiet_symbol.append (.cons (by decide) (right.quiet_print _ printable.2))
  | .conditional _ condition yes no, _, printable => by
      simp only [Expr.printable, Bool.and_eq_true] at printable
      rw [Expr.print]
      refine Quiet.grouped (.append (condition.quiet_print 1 printable.1.1) ?_) _
      refine .cons (by decide) (.cons (by decide) (.cons (by decide) ?_))
      refine .append (yes.quiet_print 0 printable.1.2) ?_
      exact .cons (by decide) (.cons (by decide) (.cons (by decide) (no.quiet_print 0 printable.2)))

theorem Expr.quiet_printItems : ∀ items : List Expr, Expr.printableItems items = true →
    Quiet (Expr.printItems items)
  | [], _ => by
      rw [Expr.printItems]
      decide
  | [item], printable => by
      simp only [Expr.printableItems, Bool.and_true] at printable
      rw [Expr.printItems]
      exact item.quiet_print 0 printable
  | item :: next :: rest, printable => by
      rw [Expr.printableItems, Bool.and_eq_true] at printable
      rw [Expr.printItems]
      exact .append (item.quiet_print 0 printable.1)
        (.cons (by decide) (.cons (by decide) (Expr.quiet_printItems (next :: rest) printable.2)))
      simp

theorem Expr.quiet_printEntries : ∀ entries : List (String × Expr),
    Expr.printableEntries entries = true → Quiet (Expr.printEntries entries)
  | [], _ => by
      rw [Expr.printEntries]
      decide
  | [(key, value)], printable => by
      simp only [Expr.printableEntries, Bool.and_true] at printable
      rw [Expr.printEntries]
      exact .append (quiet_printQuoted key)
        (.cons (by decide) (.cons (by decide) (value.quiet_print 0 printable)))
  | (key, value) :: next :: rest, printable => by
      rw [Expr.printableEntries, Bool.and_eq_true] at printable
      rw [Expr.printEntries]
      refine .append (quiet_printQuoted key) (.cons (by decide) (.cons (by decide) ?_))
      exact .append (value.quiet_print 0 printable.1)
        (.cons (by decide) (.cons (by decide) (Expr.quiet_printEntries (next :: rest) printable.2)))
      simp

end

end StaticSite.Template
