import Mathlib.Data.List.Infix
import StaticSite.Proofs.Template.Cut
import StaticSite.Proofs.Template.Recognition
import StaticSite.Proofs.Text.Location

/-!
Where tokens begin. The tokens of a source begin one behind the other, each between two characters, and
the last one stands at the end; a source that is no sequence of tokens is refused between two characters
as well.
-/

namespace StaticSite.Template

open Text

/-! ## Text of one byte for each character -/

/-- A text that begins with characters of one byte, and what is left behind them. -/
def NarrowTo (text rest : List Char) : Prop :=
  ∃ front, text = front ++ rest ∧ ∀ c ∈ front, c.utf8Size = 1

theorem byteLength_narrow {text : List Char} (narrow : ∀ c ∈ text, c.utf8Size = 1) :
    byteLength text = text.length := by
  induction text with
  | nil => rfl
  | cons c text ih =>
      rw [byteLength_cons, narrow c (by simp), ih fun other member => narrow other (by simp [member]),
        List.length_cons, Nat.add_comm]

/-- What was taken off is as many bytes long as it has characters. -/
theorem NarrowTo.exists_prefix {text rest : List Char} (narrowTo : NarrowTo text rest) :
    ∃ before, before <+: text ∧ byteLength before = text.length - rest.length := by
  obtain ⟨front, rfl, narrow⟩ := narrowTo
  exact ⟨front, List.prefix_append front rest, by simp [byteLength_narrow narrow]⟩

theorem utf8Size_isDigit {c : Char} (digit : Decimal.isDigit c = true) : c.utf8Size = 1 := by
  rw [Char.utf8Size_eq_one_iff]
  simp only [Decimal.isDigit, Bool.and_eq_true, decide_eq_true_eq] at digit
  exact UInt32.le_trans digit.2 (by decide)

/-- Whether a character can stand in a decimal number. -/
def isNumberPart (c : Char) : Bool :=
  Decimal.isDigit c || c == '.' || c == 'e' || c == 'E' || c == '+' || c == '-'

theorem utf8Size_isNumberPart {c : Char} (part : isNumberPart c = true) : c.utf8Size = 1 := by
  simp only [isNumberPart, Bool.or_eq_true, beq_iff_eq] at part
  rcases part with ((((digit | rfl) | rfl) | rfl) | rfl) | rfl
  · exact utf8Size_isDigit digit
  all_goals rfl

/-- A text that begins with characters of a number, and what is left behind them. -/
def NumberTo (text rest : List Char) : Prop :=
  ∃ front, text = front ++ rest ∧ ∀ c ∈ front, isNumberPart c = true

namespace NumberTo

variable {text rest last : List Char}

theorem refl (text : List Char) : NumberTo text text := ⟨[], rfl, by simp⟩

theorem trans (first : NumberTo text rest) (second : NumberTo rest last) : NumberTo text last := by
  obtain ⟨front, rfl, parts⟩ := first
  obtain ⟨more, rfl, others⟩ := second
  exact ⟨front ++ more, by simp, List.forall_mem_append.mpr ⟨parts, others⟩⟩

theorem cons {c : Char} (part : isNumberPart c = true) (rest : List Char) : NumberTo (c :: rest) rest :=
  ⟨[c], rfl, by simpa using part⟩

theorem narrowTo (numberTo : NumberTo text rest) : NarrowTo text rest := by
  obtain ⟨front, same, parts⟩ := numberTo
  exact ⟨front, same, fun c member => utf8Size_isNumberPart (parts c member)⟩

end NumberTo

theorem numberTo_digits (text : List Char) : NumberTo text (text.dropWhile Decimal.isDigit) := by
  refine ⟨text.takeWhile Decimal.isDigit, List.takeWhile_append_dropWhile.symm, fun c member => ?_⟩
  simp [isNumberPart, List.mem_takeWhile_imp member]

theorem utf8Size_digitValue? {base : Nat} {c : Char} (digit : (digitValue? base c).isSome) :
    c.utf8Size = 1 := by
  rw [Char.utf8Size_eq_one_iff]
  unfold digitValue? at digit
  have bound {top : Char} (below : c ≤ top) (ascii : top ≤ '\x7f') : c.val ≤ 127 :=
    UInt32.le_trans below ascii
  by_cases first : ('0' ≤ c && c ≤ '9') = true
  · simp only [Bool.and_eq_true, decide_eq_true_eq] at first
    exact bound first.2 (by decide)
  by_cases second : ('a' ≤ c && c ≤ 'f') = true
  · simp only [Bool.and_eq_true, decide_eq_true_eq] at second
    exact bound second.2 (by decide)
  by_cases third : ('A' ≤ c && c ≤ 'F') = true
  · simp only [Bool.and_eq_true, decide_eq_true_eq] at third
    exact bound third.2 (by decide)
  · simp [first, second, third] at digit

theorem narrow_of_numeral? {base value : Nat} {digits : List Char}
    (read : numeral? base digits = some value) : ∀ c ∈ digits, c.utf8Size = 1 := by
  obtain ⟨values, mapped, -⟩ := Option.map_eq_some_iff.mp read
  clear read
  induction digits generalizing values with
  | nil => simp
  | cons c digits ih =>
      simp only [List.mapM_cons, Option.bind_eq_bind, Option.bind_eq_some_iff] at mapped
      obtain ⟨digit, found, others, mapped, -⟩ := mapped
      intro other member
      rcases List.mem_cons.mp member with rfl | member
      · exact utf8Size_digitValue? (by rw [found]; rfl)
      · exact ih others mapped other member

theorem byteLength_unicodeEscape {a b c d char : Char} (names : unicodeEscape? a b c d = some char) :
    byteLength ['\\', 'u', a, b, c, d] = 6 := by
  refine byteLength_narrow ?_
  unfold unicodeEscape? at names
  simp only [Option.bind_eq_bind, Option.bind_eq_some_iff] at names
  obtain ⟨value, read, -⟩ := names
  have digits := narrow_of_numeral? read
  intro other member
  by_cases plus : a = '+'
  · simp only [plus, if_true] at digits
    simp only [plus, List.mem_cons] at member
    rcases member with rfl | rfl | rfl | member
    · rfl
    · rfl
    · rfl
    · exact digits other (by simpa using member)
  · simp only [plus, if_false] at digits
    rcases List.mem_cons.mp member with rfl | member
    · rfl
    rcases List.mem_cons.mp member with rfl | member
    · rfl
    · exact digits other member

theorem numberTo_exponentPart? {text rest : List Char} {exponent : Int}
    (read : Decimal.exponentPart? text = some (exponent, rest)) : NumberTo text rest := by
  unfold Decimal.exponentPart? at read
  split at read
  · cases read
  · rename_i e behind
    split at read
    · cases read
    · rename_i isMark
      have mark : isNumberPart e = true := by
        simp only [Bool.and_eq_true, bne_iff_ne, not_and, not_not] at isMark
        by_cases lower : e = 'e'
        · rw [lower]; rfl
        · rw [isMark lower]; rfl
      refine (NumberTo.cons mark behind).trans ?_
      split at read
      rename_i negative body signed
      have sign : NumberTo behind body := by
        split at signed <;> cases signed
        · exact .cons rfl _
        · exact .cons rfl _
        · exact .refl _
      dsimp only at read
      split at read
      · cases read
      · cases read
        exact sign.trans (numberTo_digits body)

/-! ## Errors of lexemes -/

theorem drop_length_takeWhile (digit : Char → Bool) (text : List Char) :
    text.drop (text.takeWhile digit).length = text.dropWhile digit :=
  (congrArg (List.drop _) List.takeWhile_append_dropWhile.symm).trans List.drop_left

theorem numberTo_fraction (text : List Char) :
    let fraction := match text with
      | '.' :: more => more.takeWhile Decimal.isDigit
      | _ => []
    NumberTo text (if fraction.isEmpty then text else text.drop (fraction.length + 1)) := by
  intro fraction
  by_cases absent : fraction.isEmpty = true
  · rw [if_pos absent]
    exact .refl text
  · rw [if_neg absent]
    unfold fraction at absent ⊢
    split
    · rename_i more
      rw [List.drop_succ_cons, drop_length_takeWhile]
      exact (NumberTo.cons rfl more).trans (numberTo_digits more)
    · simp_all

theorem numberTo_exponent (text : List Char) :
    NumberTo text ((Decimal.exponentPart? text).getD (0, text)).2 := by
  cases read : Decimal.exponentPart? text with
  | none => exact .refl text
  | some found => exact numberTo_exponentPart? read

/-- A decimal number takes off characters of a number only. -/
theorem exists_numberTo_of_decimalNumber (text : List Char) :
    ∃ left, NumberTo text left ∧
      ((∃ value, decimalNumber text = .ok ⟨some (.number value), text.length - left.length - 1⟩) ∨
        decimalNumber text = .error ⟨text.length - left.length, .identifierAfterNumber⟩) := by
  unfold decimalNumber
  extract_lets whole rest fraction behind
  have taken : NumberTo text ((Decimal.exponentPart? behind).getD (0, behind)).2 :=
    ((numberTo_digits text).trans (numberTo_fraction rest)).trans (numberTo_exponent behind)
  generalize (Decimal.exponentPart? behind).getD (0, behind) = parts at taken
  obtain ⟨exponent, left⟩ := parts
  refine ⟨left, taken, ?_⟩
  dsimp only
  split
  · exact .inr rfl
  · exact .inl ⟨_, rfl⟩

theorem decimalNumber_error {text : List Char} {error : LexemeError}
    (failed : decimalNumber text = .error error) : Boundary text error.offset := by
  obtain ⟨left, taken, ⟨value, read⟩ | other⟩ := exists_numberTo_of_decimalNumber text
  · rw [read] at failed
    cases failed
  · rw [other] at failed
    cases failed
    exact taken.narrowTo.exists_prefix

/-- An error at the beginning of a lexeme, or in a part of it that begins at an offset. -/
def LexemeError.Within (offset : Nat) (text : List Char) (error : LexemeError) : Prop :=
  error.offset = 0 ∨ ∃ within, Boundary text within ∧ error.offset = offset + within

theorem LexemeError.Within.append {offset : Nat} {rest : List Char} {error : LexemeError} (front : List Char)
    (within : error.Within (offset + byteLength front) rest) : error.Within offset (front ++ rest) := by
  refine within.imp_right ?_
  rintro ⟨position, boundary, same⟩
  exact ⟨_, boundary.append front, by rw [same, Nat.add_assoc]⟩

theorem stringBody_error {quote : Char} {offset : Nat} {text : List Char} {error : LexemeError}
    (failed : stringBody quote offset text = .error error) : error.Within offset text := by
  fun_induction stringBody quote offset text with
  | case1 => cases failed; exact .inl rfl
  | case2 => cases failed; exact .inr ⟨0, boundary_start _, rfl⟩
  | case3 offset a b c d rest char names ih =>
      rcases bind_eq_error.mp failed with failed | ⟨_, _, done⟩
      · rw [← byteLength_unicodeEscape names] at ih failed
        exact (ih failed).append _
      · cases done
  | case4 => cases failed; exact .inr ⟨0, boundary_start _, rfl⟩
  | case5 offset e rest _ _ ih =>
      rcases bind_eq_error.mp failed with failed | ⟨_, _, done⟩
      · rw [Nat.add_assoc] at ih failed
        exact (ih failed).append ['\\', e]
      · cases done
  | case6 => cases failed; exact .inl rfl
  | case7 => cases failed
  | case8 offset c rest _ _ _ _ _ ih =>
      rcases bind_eq_error.mp failed with failed | ⟨_, _, done⟩
      · exact (ih failed).append [c]
      · cases done

theorem lexeme_error {c : Char} {rest : List Char} {error : LexemeError}
    (failed : lexeme c rest = .error error) : Boundary (c :: rest) error.offset := by
  have start (problem : Problem) : Boundary (c :: rest) (LexemeError.mk 0 problem).offset :=
    boundary_start _
  unfold lexeme at failed
  split at failed
  · cases failed
  split at failed
  · cases failed
  split at failed
  · split at failed <;> cases failed
    exact start _
  split at failed
  · rename_i quote
    have narrow : byteLength [c] = 1 := by
      simp only [Bool.or_eq_true, beq_iff_eq] at quote
      rcases quote with rfl | rfl <;> rfl
    rcases bind_eq_error.mp failed with failed | ⟨_, _, done⟩
    · rcases stringBody_error failed with same | ⟨within, boundary, same⟩
      · rw [same]
        exact boundary_start _
      · rw [same, ← narrow]
        exact boundary.append [c]
    · cases done
  split at failed
  · unfold hexNumber at failed
    dsimp only at failed
    split at failed
    · split at failed <;> cases failed
      exact start _
    · cases failed
      exact start _
  split at failed
  · exact decimalNumber_error failed
  split at failed
  · cases failed
  · split at failed <;> cases failed
    exact start _

/-! ## Lexemes end within the code -/

theorem commentEnd?_le {text : List Char} {width : Nat} (closed : commentEnd? text = some width) :
    width + 2 ≤ text.length := by
  fun_induction commentEnd? text generalizing width with
  | case1 => cases closed; simp
  | case2 c rest different ih =>
      obtain ⟨inner, found, rfl⟩ := Option.map_eq_some_iff.mp closed
      have bound := ih found
      rw [List.length_cons]
      omega
  | case3 => cases closed

theorem stringBody_le {quote : Char} {offset width : Nat} {text chars : List Char}
    (read : stringBody quote offset text = .ok (chars, width)) : width ≤ text.length := by
  fun_induction stringBody quote offset text generalizing chars width with
  | case1 => cases read
  | case2 => cases read
  | case3 offset a b c d rest char names ih =>
      obtain ⟨⟨others, inner⟩, body, done⟩ := bind_eq_ok.mp read
      cases done
      have bound := ih body
      simp only [List.length_cons]
      omega
  | case4 => cases read
  | case5 offset e rest _ _ ih =>
      obtain ⟨⟨others, inner⟩, body, done⟩ := bind_eq_ok.mp read
      cases done
      have bound := ih body
      simp only [List.length_cons]
      omega
  | case6 => cases read
  | case7 => cases read; simp
  | case8 offset c rest _ _ _ _ _ ih =>
      obtain ⟨⟨others, inner⟩, body, done⟩ := bind_eq_ok.mp read
      cases done
      have bound := ih body
      simp only [List.length_cons]
      omega

theorem symbol?_le {c : Char} {rest : List Char} {s : Symbol} {more : Nat}
    (found : symbol? c rest = some (s, more)) : more ≤ rest.length := by
  unfold symbol? at found
  split at found <;> cases found <;> simp

/-- A lexeme takes no more characters than there are. -/
theorem lexeme_more_le {c : Char} {rest : List Char} {found : Lexeme} (read : lexeme c rest = .ok found) :
    found.more ≤ rest.length := by
  unfold lexeme at read
  split at read
  · cases read
    exact Nat.zero_le _
  split at read
  · cases read
    exact (List.takeWhile_prefix _).length_le
  split at read
  · rename_i opens
    split at read
    · rename_i width closed
      cases read
      have bound := commentEnd?_le closed
      rw [List.length_drop] at bound
      dsimp only
      omega
    · cases read
  split at read
  · obtain ⟨⟨chars, width⟩, body, done⟩ := bind_eq_ok.mp read
    cases done
    exact stringBody_le body
  split at read
  · rename_i hexadecimal
    unfold hexNumber at read
    dsimp only at read
    split at read
    · split at read
      · cases read
      · rename_i bounds
        cases read
        have digits := (List.takeWhile_prefix (Text.isDigitIn 16) (l := rest.drop 1)).length_le
        simp only [Bool.or_eq_true, not_or, List.isEmpty_iff] at bounds
        have nonempty := List.length_pos_iff.mpr bounds.1
        rw [List.length_drop] at digits
        dsimp only
        omega
    · cases read
  split at read
  · unfold decimalNumber at read
    extract_lets whole rest fraction behind at read
    split at read
    dsimp only at read
    split at read <;> cases read
    rw [List.length_cons]
    dsimp only
    omega
  split at read
  · cases read
    exact (List.takeWhile_prefix _).length_le
  · split at read <;> cases read
    exact symbol?_le ‹_›

/-! ## Code -/

/-- Tokens that begin one behind the other, each between two characters of a part of a source. -/
structure Lined (start : Nat) (text : List Char) (tokens : List Placed) : Prop where
  ascending : tokens.Pairwise (·.position < ·.position)
  inside : ∀ placed ∈ tokens, ∃ within, Boundary text within ∧ within < byteLength text ∧
    placed.position = start + within

theorem lined_nil (start : Nat) (text : List Char) : Lined start text [] := ⟨.nil, by simp⟩

theorem Lined.append {start : Nat} {rest : List Char} {tokens : List Placed} (front : List Char)
    (lined : Lined (start + byteLength front) rest tokens) : Lined start (front ++ rest) tokens := by
  refine ⟨lined.ascending, fun placed member => ?_⟩
  obtain ⟨within, boundary, before, same⟩ := lined.inside placed member
  refine ⟨_, boundary.append front, ?_, by rw [same, Nat.add_assoc]⟩
  rw [byteLength_append]
  exact Nat.add_lt_add_left before _

theorem Lined.cons {start : Nat} {front rest : List Char} {tokens : List Placed} (wide : front ≠ [])
    (token : Token) (lined : Lined (start + byteLength front) rest tokens) :
    Lined start (front ++ rest) (⟨token, start⟩ :: tokens) := by
  have positive : 0 < byteLength front := by
    cases front with
    | nil => exact absurd rfl wide
    | cons c front =>
        rw [byteLength_cons]
        exact Nat.add_pos_left c.utf8Size_pos _
  obtain ⟨ascending, inside⟩ := lined.append front
  refine ⟨List.pairwise_cons.mpr ⟨fun placed member => ?_, ascending⟩, ?_⟩
  · obtain ⟨within, -, -, same⟩ := lined.inside placed member
    simp only [same]
    omega
  · rintro placed (_ | ⟨_, member⟩)
    · exact ⟨0, boundary_start _, by rw [byteLength_append]; omega, rfl⟩
    · exact inside placed member

theorem lexFrom_lined {position : Nat} {code : List Char} {tokens : List Placed}
    (read : lexFrom position code = .ok tokens) : Lined position code tokens := by
  fun_induction lexFrom position code generalizing tokens with
  | case1 => cases read; exact lined_nil _ _
  | case2 => cases read
  | case3 => cases read
  | case4 position c rest lexeme found next others behind token isToken =>
      rename_i ih
      cases read
      have lined := ih behind
      rw [show next = position + byteLength (c :: rest.take lexeme.more) from Nat.add_assoc _ _ _] at lined
      have whole := lined.cons (List.cons_ne_nil _ _) token
      rwa [List.cons_append, List.take_append_drop] at whole
  | case5 position c rest lexeme found next others behind isBlank =>
      rename_i ih
      cases read
      have lined := ih behind
      rw [show next = position + byteLength (c :: rest.take lexeme.more) from Nat.add_assoc _ _ _] at lined
      have whole := lined.append
      rwa [List.cons_append, List.take_append_drop] at whole

theorem lexFrom_error {position : Nat} {code : List Char} {error : SyntaxError}
    (failed : lexFrom position code = .error error) :
    ∃ within, Boundary code within ∧ error.position = position + within := by
  fun_induction lexFrom position code generalizing error with
  | case1 => cases failed
  | case2 position c rest problem found =>
      cases failed
      exact ⟨_, lexeme_error found, rfl⟩
  | case3 position c rest lexeme found next other behind =>
      rename_i ih
      cases failed
      obtain ⟨within, boundary, same⟩ := ih behind
      have whole := boundary.append (c :: rest.take lexeme.more)
      rw [List.cons_append, List.take_append_drop] at whole
      exact ⟨_, whole, by rw [same, byteLength_cons, ← Nat.add_assoc, ← Nat.add_assoc]⟩
  | case4 => cases failed
  | case5 => cases failed

/-! ## Pieces -/

theorem Lined.concat {start : Nat} {left right : List Char} {first second : List Placed}
    (lined : Lined start left first) (lined' : Lined (start + byteLength left) right second) :
    Lined start (left ++ right) (first ++ second) := by
  obtain ⟨ascending, inside⟩ := lined'.append left
  refine ⟨List.pairwise_append.mpr ⟨lined.ascending, ascending, ?_⟩, ?_⟩
  · intro placed member other member'
    obtain ⟨within, -, before, same⟩ := lined.inside placed member
    obtain ⟨within', -, -, same'⟩ := lined'.inside other member'
    omega
  · intro placed member
    rcases List.mem_append.mp member with member | member
    · obtain ⟨within, ⟨before, leads, rfl⟩, less, same⟩ := lined.inside placed member
      refine ⟨_, ⟨before, leads.trans (List.prefix_append _ _), rfl⟩, ?_, same⟩
      rw [byteLength_append]
      omega
    · exact inside placed member

/-- A text that something is shown of begins with a token, unless nothing is left of it. -/
theorem lined_textPiece {start : Nat} {shown text : List Char} (leads : shown <+: text)
    {tokens : List Placed} (read : piecesTokens (textPiece start shown) = .ok tokens) :
    Lined start text tokens := by
  unfold textPiece at read
  split at read
  · cases read
    exact lined_nil _ _
  · rename_i visible
    cases read
    have wide : text ≠ [] := by
      rintro rfl
      rw [List.prefix_nil.mp leads] at visible
      exact visible rfl
    simpa using (lined_nil (start + byteLength text) []).cons wide (.text (String.ofList shown))

/-- The tokens of code and of the end of its span, if anything stands behind the code. -/
theorem lined_code {position : Nat} {content behind : List Char} (more : behind ≠ [])
    {tokens : List Placed} (read : (Piece.code position content).tokens = .ok tokens) :
    Lined position (content ++ behind) tokens := by
  have finish (ending : Nat) : Lined ending behind [⟨.spanEnd, ending⟩] := by
    simpa using (lined_nil _ []).cons more .spanEnd
  obtain ⟨opening, lead, code, lexed, rfl, opens, found, rfl⟩ := Piece.exists_lexed read
  have inner := (lexFrom_lined found).concat (finish _)
  rw [byteLength_append, ← Nat.add_assoc]
  obtain ⟨rfl, rfl⟩ | ⟨rfl, rfl⟩ := opens
  · exact inner
  · exact inner.cons (List.cons_ne_nil '=' []) .echo

theorem exists_of_piecesTokens_append {first rest : List Piece} {tokens : List Placed}
    (read : piecesTokens (first ++ rest) = .ok tokens) :
    ∃ front behind, piecesTokens first = .ok front ∧ piecesTokens rest = .ok behind ∧
      tokens = front ++ behind := by
  induction first generalizing tokens with
  | nil => exact ⟨[], tokens, rfl, read, rfl⟩
  | cons piece first ih =>
      obtain ⟨front, here, read⟩ := bind_eq_ok.mp read
      obtain ⟨others, there, read⟩ := bind_eq_ok.mp read
      cases read
      obtain ⟨middle, behind, inFirst, inRest, rfl⟩ := ih there
      refine ⟨front ++ middle, behind, ?_, inRest, by simp⟩
      rw [piecesTokens, here, inFirst]
      rfl

/-- The code of a marker, with the marks around it. -/
theorem lined_marker {opening : Nat} {inside : List Char} {tokens : List Placed}
    (read : (Piece.code (opening + 2 + if trimsBefore inside then 1 else 0) (codeOf inside)).tokens =
      .ok tokens) :
    Lined opening ('<' :: '?' :: (inside ++ ['?', '>'])) tokens := by
  obtain ⟨ending, split⟩ := codeOf_append inside
  generalize hyphen : (if trimsBefore inside then ['-'] else []) = lead at split
  have width : byteLength ('<' :: '?' :: lead) = 2 + if trimsBefore inside then 1 else 0 := by
    rw [← hyphen]
    split <;> rfl
  rw [Nat.add_assoc, ← width] at read
  have more : ending ++ ['?', '>'] ≠ [] := by simp
  have marker := (lined_code more read).append
  rw [split]
  simpa using marker

theorem Cut.lined {cut : Cut} {position : Nat} {trim : Bool} {tokens : List Placed}
    (read : piecesTokens (cut.pieces position trim) = .ok tokens) : Lined position cut.source tokens := by
  induction cut generalizing position trim tokens with
  | plain text =>
      have lined := (lined_textPiece List.prefix_rfl read).append (blanksOf trim text)
      rwa [blanksOf_append_dropBlanks] at lined
  | marked text inside rest ih =>
      obtain ⟨shown, others, first, second, rfl⟩ := exists_of_piecesTokens_append read
      obtain ⟨code, third, second⟩ := bind_eq_ok.mp second
      obtain ⟨behind, last, second⟩ := bind_eq_ok.mp second
      cases second
      have leads : (if trimsBefore inside then trimRight (dropBlanks trim text) else dropBlanks trim text) <+:
          dropBlanks trim text := by
        split
        · obtain ⟨blanks, whole⟩ := trimRight_append (dropBlanks trim text)
          exact ⟨blanks, whole.symm⟩
        · exact List.prefix_rfl
      have plain := (lined_textPiece leads first).append (blanksOf trim text)
      rw [blanksOf_append_dropBlanks] at plain
      have width : byteLength ('<' :: '?' :: (inside ++ ['?', '>'])) = 2 + byteLength inside + 2 := by
        rw [byteLength_cons, byteLength_cons, byteLength_append, ← Nat.add_assoc, ← Nat.add_assoc]
        rfl
      rw [Nat.add_assoc, Nat.add_assoc (position + byteLength text), ← Nat.add_assoc 2, ← width] at last
      have whole := plain.concat ((lined_marker third).concat (ih last))
      simpa [source] using whole

/-- The tokens of a source, and the one that stands for its end behind them. -/
theorem scan_lined {source : List Char} {tokens : List Placed} (scanned : scan source = .ok tokens) :
    ∃ front, tokens = front ++ [⟨.finish, byteLength source⟩] ∧ Lined 0 source front := by
  obtain ⟨cut, rfl, leftmost⟩ := exists_leftmost_cut source
  obtain ⟨front, read, scanned⟩ := bind_eq_ok.mp scanned
  cases scanned
  rw [pieces_source leftmost] at read
  exact ⟨front, rfl, Cut.lined read⟩

theorem scan_ascending {source : List Char} {tokens : List Placed} (scanned : scan source = .ok tokens) :
    tokens.Pairwise (·.position < ·.position) := by
  obtain ⟨front, rfl, lined⟩ := scan_lined scanned
  refine List.pairwise_append.mpr ⟨lined.ascending, List.pairwise_singleton _ _, ?_⟩
  intro placed member last ending
  obtain ⟨within, -, before, same⟩ := lined.inside placed member
  cases List.mem_singleton.mp ending
  rwa [same, Nat.zero_add]

theorem scan_boundary {source : List Char} {tokens : List Placed} (scanned : scan source = .ok tokens) :
    ∀ placed ∈ tokens, Boundary source placed.position := by
  obtain ⟨front, rfl, lined⟩ := scan_lined scanned
  intro placed member
  rcases List.mem_append.mp member with member | ending
  · obtain ⟨within, boundary, -, same⟩ := lined.inside placed member
    rwa [same, Nat.zero_add]
  · cases List.mem_singleton.mp ending
    exact boundary_end source

theorem pieces_sliced (source : List Char) : ∀ piece ∈ pieces source, piece.SlicedFrom source := by
  obtain ⟨cut, rfl, leftmost⟩ := exists_leftmost_cut source
  rw [pieces_source leftmost]
  exact cut.pieces_sliced [] false rfl

theorem Piece.tokens_error {piece : Piece} {source : List Char} (sliced : piece.SlicedFrom source)
    {error : SyntaxError} (failed : piece.tokens = .error error) : Boundary source error.position := by
  cases piece with
  | text position content => cases failed
  | code position content =>
      obtain ⟨before, behind, rfl, rfl⟩ := sliced
      rw [tokens_code] at failed
      dsimp only at failed
      split at failed
      · rename_i equals
        obtain ⟨rest, rfl⟩ := List.head?_eq_some_iff.mp equals
        cases lexed : lexFrom (byteLength before + 1) rest with
        | ok code => simp [lexed, Except.map] at failed
        | error other =>
            simp only [List.tail_cons, lexed, Except.map, Except.error.injEq] at failed
            subst failed
            obtain ⟨within, boundary, same⟩ := lexFrom_error lexed
            rw [same, Nat.add_assoc]
            exact (boundary.append ['=']).within before behind
      · cases lexed : lexFrom (byteLength before) content with
        | ok code => simp [lexed, Except.map] at failed
        | error other =>
            simp only [lexed, Except.map, Except.error.injEq] at failed
            subst failed
            obtain ⟨within, boundary, same⟩ := lexFrom_error lexed
            rw [same]
            exact boundary.within before behind

theorem exists_piece_of_error {parts : List Piece} {error : SyntaxError}
    (failed : piecesTokens parts = .error error) : ∃ piece ∈ parts, piece.tokens = .error error := by
  induction parts with
  | nil => cases failed
  | cons piece parts ih =>
      rcases bind_eq_error.mp failed with failed | ⟨_, _, failed⟩
      · exact ⟨piece, by simp, failed⟩
      · rcases bind_eq_error.mp failed with failed | ⟨_, _, done⟩
        · obtain ⟨other, member, failed⟩ := ih failed
          exact ⟨other, by simp [member], failed⟩
        · cases done

theorem scan_error {source : List Char} {error : SyntaxError} (failed : scan source = .error error) :
    Boundary source error.position := by
  rcases bind_eq_error.mp failed with failed | ⟨_, _, done⟩
  · obtain ⟨piece, member, failed⟩ := exists_piece_of_error failed
    exact Piece.tokens_error (pieces_sliced source piece member) failed
  · cases done

end StaticSite.Template
