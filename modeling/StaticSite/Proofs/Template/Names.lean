import StaticSite.Proofs.Template.Compiling
import StaticSite.Proofs.Template.Literal
import StaticSite.Proofs.Template.Placing
import StaticSite.Proofs.Template.Quotation

/-!
Names with and without quotes. A member is named behind a dot or between brackets, a key of an object as it is or in
quotes. A word may go bare unless it is a keyword: the parser then refuses it.
-/

namespace StaticSite.Template

open Json (Value)

def apostrophized (word : String) : List Char := '\'' :: (word.toList ++ ['\''])

def dotted (target : List Char) (word : String) : List Char := target ++ '.' :: word.toList

def bracketed (target : List Char) (word : String) : List Char := target ++ '[' :: (apostrophized word ++ [']'])

/-- An object with one entry. -/
def keyed (key value : List Char) : List Char := '\x7b' :: (key ++ ':' :: (value ++ ['\x7d']))

/-- A template that writes the value of code. -/
def echoed (code : List Char) : List Char := sourceOf [.echo code]

/-! ## Words as tokens -/

section Words

variable {word : String}

theorem stringParts_plain {quote : Char} {text : List Char} (plain : ∀ c ∈ text, c ≠ quote ∧ c ≠ '\\' ∧ c ≠ '\n') :
    StringParts quote text text := by
  induction text with
  | nil => exact .nil
  | cons c text ih =>
      obtain ⟨⟨notQuote, notBackslash, notLineFeed⟩, others⟩ := List.forall_mem_cons.mp plain
      exact .cons (.plain notQuote notBackslash notLineFeed) (ih others)

theorem IsWord.lexes_apostrophized (shaped : IsWord word) (rest : List Char) :
    Lexes (apostrophized word) [.string word] rest := by
  have plain : ∀ c ∈ word.toList, c ≠ '\'' ∧ c ≠ '\\' ∧ c ≠ '\n' := by
    intro c member
    have part := shaped.isWordPart c member
    refine ⟨?_, ?_, ?_⟩ <;> rintro rfl <;> cases part
  have read := lexeme_closed (.inr rfl) (stringParts_plain plain) rest
  rw [String.ofList_toList] at read
  refine .token ?_
  rw [List.append_assoc, List.length_append]
  exact read

theorem lexes_keyed {key value : List Char} {token : Token} (lexesKey : ∀ rest, Clear rest → Lexes key [token] rest)
    (lexesValue : ∀ rest, Clear rest → Lexes value vs rest) (rest : List Char) :
    Lexes (keyed key value) (.symbol .openBrace :: token :: .symbol .colon :: (vs ++ [.symbol .closeBrace])) rest := by
  have close : Lexes ['\x7d'] [.symbol .closeBrace] rest := .token rfl
  have behind := (lexesValue ('\x7d' :: rest) rfl).append close
  exact .symbol rfl (.append (lexesKey _ (show Clear (':' :: _) from rfl)) (.symbol rfl behind))

end Words

/-! ## Operands -/

/-- Wherever the parser comes to a text as an operand and no access follows, it reads the expression up to positions. -/
def ReadsOperand (text : List Char) (e : Expr) : Prop :=
  ∀ position rest, Clear rest → ∃ own : List Placed,
    lexFrom position (text ++ rest) = (lexFrom (position + Text.byteLength text) rest).map (own ++ ·) ∧
    ∀ depth c behind, 16 * own.length ≤ depth → c.tokens = own ++ behind → Stops 7 (behind.map Placed.token) →
      ReadsAs e (behind.map Placed.token) (parseUnary depth c)

theorem Spells.readsOperand (spells : Spells 8 e text) : ReadsOperand text e := by
  obtain ⟨ts, phrase, lexes⟩ := spells
  intro position rest clear
  obtain ⟨own, rfl, read⟩ := lexes rest clear position
  refine ⟨own, read, ?_⟩
  intro depth c behind deep tokens stops
  have reads : ReadsUnary e (own.map Placed.token) :=
    LeadsAccesses.readsUnary phrase.parsed phrase.length_pos
  refine reads depth ?_ ?_ stops
  · rw [List.length_map]
    omega
  · rw [Cursor.ahead, tokens, List.map_append]

/-- Tokens at which the parser finds no operand, whatever follows them. -/
def Refused (ts : List Token) : Prop :=
  ∀ depth c rest, 16 * ts.length ≤ depth + 8 → c.ahead = ts ++ rest → ∃ error, parseUnary depth c = .error error

theorem Refused.parseBinary (refused : Refused ts) {level depth : Nat} {c : Cursor} (bound : level ≤ 6)
    (deep : 16 * ts.length ≤ depth + level + 1) (ahead : c.ahead = ts ++ rest) :
    ∃ error, parseBinary depth level c = .error error := by
  -- from the tightest operands up to the loosest
  induction bound using Nat.decreasingInduction generalizing depth with
  | self =>
      cases depth with
      | zero => exact ⟨_, by rw [Template.parseBinary]⟩
      | succ depth =>
          rw [Template.parseBinary, if_pos (by decide)]
          exact refused depth c rest (by omega) ahead
  | of_succ level bound ih =>
      cases depth with
      | zero => exact ⟨_, by rw [Template.parseBinary]⟩
      | succ depth =>
          obtain ⟨error, failed⟩ := @ih depth (by omega)
          refine ⟨error, ?_⟩
          rw [Template.parseBinary, if_neg (by simp only [tightestLevel]; omega), failed]
          rfl

theorem Refused.parseExpr (refused : Refused ts) {depth : Nat} {c : Cursor} (deep : 16 * ts.length ≤ depth)
    (ahead : c.ahead = ts ++ rest) : ∃ error, parseExpr depth c = .error error := by
  cases depth with
  | zero => exact ⟨_, by rw [Template.parseExpr]⟩
  | succ depth =>
      have below : 16 * ts.length ≤ depth + 0 + 1 := deep
      obtain ⟨error, failed⟩ := refused.parseBinary (Nat.zero_le 6) below ahead
      refine ⟨error, ?_⟩
      rw [Template.parseExpr, failed]
      rfl

theorem Refused.not_readsOperand (refused : Refused ts) (lexes : ∀ rest, Clear rest → Lexes text ts rest) :
    ¬ ReadsOperand text e := by
  intro reads
  obtain ⟨own, read, operand⟩ := reads 0 [] trivial
  obtain ⟨placed, rfl, read'⟩ := lexes [] trivial 0
  have same : placed = own := by
    rw [read', lexFrom] at read
    simpa [Except.map] using read
  subst same
  have ahead : Cursor.ahead ⟨placed, 0, []⟩ = placed.map Placed.token ++ [] := (List.append_nil _).symm
  obtain ⟨error, failed⟩ := refused (16 * placed.length) _ [] (by simp) ahead
  obtain ⟨found, left, parsed, -⟩ :=
    operand (16 * placed.length) ⟨placed, 0, []⟩ [] le_rfl (List.append_nil _).symm (Nat.zero_le 7)
  rw [failed] at parsed
  cases parsed

/-- No keyword names a member behind a dot. -/
theorem refused_dotted (target : Phrase 8 e ts) (word : Keyword) :
    Refused (ts ++ [.symbol .dot, .keyword word]) := by
  intro depth c rest deep ahead
  simp only [List.length_append, List.length_cons, List.length_nil] at deep
  simp only [List.append_assoc, List.cons_append, List.nil_append] at ahead
  have leads : LeadsAccesses e ts := target.parsed
  obtain ⟨remaining, found, left, read, enough, -, ahead⟩ := leads depth (by omega) ahead (by simp)
  obtain ⟨remaining, rfl⟩ : ∃ k, remaining = k + 1 := ⟨remaining - 1, by omega⟩
  have dot := Cursor.peek_of_ahead ahead
  have behind := Cursor.peek_of_ahead (Cursor.ahead_advance_of_ahead ahead)
  refine ⟨left.advance.unexpected "identifier", ?_⟩
  rw [read, parseAccesses]
  simp only [dot, Cursor.identifier, behind]
  rfl

/-- No keyword is the first key of an object. -/
theorem refused_keyed (word : Keyword) (ts : List Token) :
    Refused (.symbol .openBrace :: .keyword word :: ts) := by
  intro depth c rest deep ahead
  simp only [List.length_cons] at deep
  simp only [List.cons_append] at ahead
  obtain ⟨depth, rfl⟩ : ∃ k, depth = k + 3 := ⟨depth - 3, by omega⟩
  have brace := Cursor.peek_of_ahead ahead
  have key := Cursor.peek_of_ahead (Cursor.ahead_advance_of_ahead ahead)
  have more : c.advance.atSymbol .closeBrace = false := Cursor.atSymbol_eq_false (by simp [key])
  refine ⟨c.advance.unexpected "object key", ?_⟩
  simp only [parseUnary, parsePrimary, parseEntries, brace, more, objectKey, key]
  rfl

/-! ## Templates -/

/-- Compiles a source and evaluates it in the place of a frame's template. -/
def Frame.evalSource (frame : Frame) (includeFile : Include) (source : List Char) : EvalM Unit :=
  match compile (String.ofList source) frame.template.filename with
  | .ok template => { frame with template }.run includeFile
  | .error error => throw error

theorem exists_echo_of_unplaced {node : Node} (same : node.unplaced = .echo e) :
    ∃ value, node = .echo value ∧ value.unplaced = e := by
  cases node <;> simp_all [Node.unplaced]

theorem parse_echoed (spells : Spells 0 e code) (quiet : Quiet code) :
    ∃ value, parse (echoed code) = .ok [.echo value] ∧ value.unplaced = e := by
  obtain ⟨ts, phrase, lexes⟩ := spells
  have spelled : Spelled [.echo code] (.echo :: (ts ++ [.spanEnd])) := .echo quiet (lexes _ rfl) .nil
  obtain ⟨tokens, scanned, same⟩ := spelled.scan
  have block : Block [.echo e] (.echo :: ts ++ [.spanEnd]) := .statement (.echo phrase) .none
  obtain ⟨found, parsed, unplaced⟩ := parse_of_block scanned block same
  match found with
  | [] => cases unplaced
  | [node] =>
      rw [Node.unplacedAll, Node.unplacedAll, List.cons.injEq] at unplaced
      obtain ⟨value, rfl, plain⟩ := exists_echo_of_unplaced unplaced.1
      exact ⟨value, parsed, plain⟩
  | _ :: _ :: _ =>
      rw [Node.unplacedAll, Node.unplacedAll, List.cons.injEq] at unplaced
      cases unplaced.2

theorem Frame.evalSource_echoed (frame : Frame) (includeFile : Include) {code : List Char} {value : Expr}
    (parsed : parse (echoed code) = .ok [.echo value]) :
    ∃ frame', Kindred frame frame' ∧ frame'.template.nodes = [.echo value] ∧
      frame.evalSource includeFile (echoed code) = frame'.run includeFile := by
  let template : Compiled :=
    { nodes := [.echo value], filename := frame.template.filename, path := ⟨frame.template.filename⟩,
      lines := Text.LineIndex.ofText (echoed code), stamp := 0, serial := 0 }
  have compiled : compile (String.ofList (echoed code)) frame.template.filename = .ok template := by
    rw [compile, String.toList_ofList, parsed]
  exact ⟨{ frame with template }, ⟨rfl, rfl, rfl⟩, rfl, by rw [evalSource, compiled]⟩

theorem ending_run (frame : Frame) (includeFile : Include) (run : Run) :
    ending (frame.run includeFile) run =
      let inner := ending (frame.execAll includeFile frame.template.nodes) { run with scopes := [[]] }
      (inner.1, { inner.2 with scopes := run.scopes }) := rfl

theorem ending_run_echo {frame frame' : Frame} (kin : Kindred frame frame') {value value' : Expr} {run : Run}
    (nodes : frame.template.nodes = [.echo value]) (nodes' : frame'.template.nodes = [.echo value'])
    (same : ending (frame.eval value) { run with scopes := [[]] } =
      ending (frame'.eval value') { run with scopes := [[]] }) (includeFile : Include) :
    ending (frame.run includeFile) run = ending (frame'.run includeFile) run := by
  have executed : ending (frame.execAll includeFile [.echo value]) { run with scopes := [[]] } =
      ending (frame'.execAll includeFile [.echo value']) { run with scopes := [[]] } := by
    simp only [Frame.execAll, Frame.exec]
    refine ending_bind_eq (ending_bind_eq same fun found => ?_) fun _ => .refl _
    rw [kin.write_eq]
    exact .refl _
  rw [ending_run, ending_run, nodes, nodes', executed]

/-! ## Interchangeable code -/

/-- Code that is read and evaluated like other code, wherever a condition on the evaluation holds. -/
structure Interchangeable (holds : Frame → Run → Prop) (code code' : List Char) : Prop where
  /-- At any place of a template or a literal. -/
  operands : ∃ e e', ReadsOperand code e ∧ ReadsOperand code' e' ∧
    ∀ {frame frame' run}, Kindred frame frame' → holds frame run →
      ∀ {a b : Expr}, a.unplaced = e → b.unplaced = e' → ending (frame.eval a) run = ending (frame'.eval b) run
  /-- As the code of a span, which no `?>` may end early. -/
  templates : Quiet code → Quiet code' →
    (∃ value, parse (echoed code) = .ok [.echo value]) ∧ (∃ value, parse (echoed code') = .ok [.echo value]) ∧
      ∀ frame includeFile run, holds frame { run with scopes := [[]] } →
        ending (frame.evalSource includeFile (echoed code)) run = ending (frame.evalSource includeFile (echoed code')) run

/-- Whether the condition holds has nothing to do with the nodes and lines of templates. -/
def Steady (holds : Frame → Run → Prop) : Prop :=
  ∀ {frame frame' run}, Kindred frame frame' → holds frame run → holds frame' run

theorem interchangeable_of_spells {holds : Frame → Run → Prop} (spells : Spells 8 e code) (spells' : Spells 8 e' code')
    (steady : Steady holds)
    (alike : ∀ {frame run}, holds frame run → ending (frame.eval e) run = ending (frame.eval e') run) :
    Interchangeable holds code code' := by
  have placed {frame frame' : Frame} {run : Run} (kin : Kindred frame frame') (given : holds frame run) {a b : Expr}
      (plain : a.unplaced = e) (plain' : b.unplaced = e') : ending (frame.eval a) run = ending (frame'.eval b) run := by
    rw [← (Kindred.refl frame).eval_unplaced a run, plain, alike given, ← plain', kin.eval_unplaced b run]
  refine ⟨⟨e, e', spells.readsOperand, spells'.readsOperand, placed⟩, fun quiet quiet' => ?_⟩
  obtain ⟨a, parsed, plain⟩ := parse_echoed (spells.weaken (Nat.zero_le 8)) quiet
  obtain ⟨b, parsed', plain'⟩ := parse_echoed (spells'.weaken (Nat.zero_le 8)) quiet'
  refine ⟨⟨a, parsed⟩, ⟨b, parsed'⟩, fun frame includeFile run given => ?_⟩
  obtain ⟨frame₁, kin₁, nodes₁, source₁⟩ := frame.evalSource_echoed includeFile parsed
  obtain ⟨frame₂, kin₂, nodes₂, source₂⟩ := frame.evalSource_echoed includeFile parsed'
  rw [source₁, source₂]
  have kin := kin₁.symm.trans kin₂
  exact ending_run_echo kin nodes₁ nodes₂ (placed kin (steady kin₁ given) plain plain') includeFile

theorem Refused.not_interchangeable {holds : Frame → Run → Prop} (refused : Refused ts)
    (lexes : ∀ rest, Clear rest → Lexes code ts rest) : ¬ Interchangeable holds code code' := by
  intro both
  obtain ⟨e, e', reads, -⟩ := both.operands
  exact refused.not_readsOperand lexes reads

/-! ## Bare names -/

/-- An expression evaluates to an object. -/
def GivesObject (e : Expr) (frame : Frame) (run : Run) : Prop := ∃ members, (frame.eval e run).1 = .ok (.object members)

theorem steady_givesObject (e : Expr) : Steady (GivesObject e) := by
  intro frame frame' run kin given
  obtain ⟨members, given⟩ := given
  have ends := ending_ok (Prod.ext given rfl)
  rw [← (Kindred.refl frame).eval_unplaced e run, kin.eval_unplaced e run] at ends
  exact ⟨members, congrArg Prod.fst (apply_of_ending ends)⟩

/-- An object has the same member behind a dot and between brackets. -/
theorem eval_member_eq_index {frame : Frame} {run : Run} (gives : GivesObject e frame run) (name : String) :
    frame.eval (.member 0 e name) run = frame.eval (.index 0 e (.literal 0 (.string name))) run := by
  obtain ⟨members, gives⟩ := gives
  obtain ⟨after, ends⟩ : ∃ after, frame.eval e run = (.ok (.object members), after) := ⟨_, Prod.ext gives rfl⟩
  simp only [Frame.eval, bind_apply, ends]
  rfl

section Words

variable {word : String}

theorem spells_dotted (shaped : IsWord word) (free : Keyword.ofWord? word = none) (target : Spells 8 e o) :
    Spells 8 (.member 0 e word) (dotted o word) := target.member (isName_iff.mpr ⟨shaped, free⟩)

theorem spells_apostrophized (shaped : IsWord word) : Spells 8 (.literal 0 (.string word)) (apostrophized word) :=
  ⟨_, .literal rfl, fun rest _ => shaped.lexes_apostrophized rest⟩

theorem spells_bracketed (shaped : IsWord word) (target : Spells 8 e o) :
    Spells 8 (.index 0 e (.literal 0 (.string word))) (bracketed o word) :=
  target.index ((spells_apostrophized shaped).weaken (Nat.zero_le 8))

theorem spells_keyed {text key : List Char} {token : Token} {name : String} (names : token.key? = some name)
    (lexesKey : ∀ rest, Clear rest → Lexes key [token] rest) (value : Spells 0 e text) :
    Spells 8 (.object 0 [(name, e)]) (keyed key text) := by
  obtain ⟨ts, phrase, lexes⟩ := value
  exact ⟨_, .object (.last names phrase), fun rest _ => lexes_keyed lexesKey lexes rest⟩

theorem spells_keyed_bare (shaped : IsWord word) (free : Keyword.ofWord? word = none) (value : Spells 0 e v) :
    Spells 8 (.object 0 [(word, e)]) (keyed word.toList v) :=
  spells_keyed (by rw [wordToken_of_free free]; rfl) (fun _ clear => shaped.lexes clear) value

theorem spells_keyed_quoted (shaped : IsWord word) (value : Spells 0 e v) :
    Spells 8 (.object 0 [(word, e)]) (keyed (apostrophized word) v) :=
  have names : Token.key? (.string word) = some word := rfl
  spells_keyed names (fun rest _ => shaped.lexes_apostrophized rest) value

theorem exists_keyword (reserved : Keyword.ofWord? word ≠ none) : ∃ keyword, wordToken word = .keyword keyword := by
  obtain ⟨keyword, found⟩ := Option.ne_none_iff_exists'.mp reserved
  exact ⟨keyword, by rw [wordToken, found]⟩

theorem dotted_iff (shaped : IsWord word) (target : Spells 8 e o) :
    Interchangeable (GivesObject e) (dotted o word) (bracketed o word) ↔ Keyword.ofWord? word = none := by
  constructor
  · intro both
    by_contra reserved
    obtain ⟨keyword, token⟩ := exists_keyword reserved
    obtain ⟨ts, phrase, lexes⟩ := target
    refine (refused_dotted phrase keyword).not_interchangeable (fun rest clear => ?_) both
    rw [← token]
    exact (lexes _ (shaped.clear_dot rest)).append (shaped.lexes_dot clear)
  · intro free
    exact interchangeable_of_spells (spells_dotted shaped free target) (spells_bracketed shaped target)
      (steady_givesObject e) fun gives => ending_congr (eval_member_eq_index gives word)

theorem refused_keyed_bare (shaped : IsWord word) (reserved : Keyword.ofWord? word ≠ none) (value : Spells 0 e v) :
    ∃ ts, Refused ts ∧ ∀ rest, Clear rest → Lexes (keyed word.toList v) ts rest := by
  obtain ⟨keyword, token⟩ := exists_keyword reserved
  obtain ⟨ts, phrase, lexes⟩ := value
  have lexesKey (rest : List Char) (clear : Clear rest) : Lexes word.toList [.keyword keyword] rest := by
    rw [← token]
    exact shaped.lexes clear
  exact ⟨_, refused_keyed keyword _, fun rest _ => lexes_keyed lexesKey lexes rest⟩

theorem keyed_iff (shaped : IsWord word) (value : Spells 0 e v) :
    Interchangeable (fun _ _ => True) (keyed word.toList v) (keyed (apostrophized word) v) ↔
      Keyword.ofWord? word = none := by
  constructor
  · intro both
    by_contra reserved
    obtain ⟨ts, refused, lexes⟩ := refused_keyed_bare shaped reserved value
    exact refused.not_interchangeable lexes both
  · intro free
    exact interchangeable_of_spells (spells_keyed_bare shaped free value) (spells_keyed_quoted shaped value)
      (fun _ given => given) fun _ => rfl

theorem Refused.parseLiteral {source : List Char} (refused : Refused ts) (lexes : Lexes source ts []) :
    ∃ error, parseLiteral source = .error error := by
  obtain ⟨placed, read, rfl⟩ := lexes.lexFrom 0
  let tokens := placed ++ [⟨.finish, Text.byteLength source⟩]
  have deep : 16 * (placed.map Placed.token).length ≤ enoughDepth tokens := by
    rw [enoughDepth, List.length_map, List.length_append]
    omega
  have ahead : (Cursor.start source tokens).ahead = placed.map Placed.token ++ [.finish] := List.map_append
  obtain ⟨error, failed⟩ := refused.parseExpr deep ahead
  exact ⟨error, by simp only [Template.parseLiteral, read, tokens, failed, bind, Except.bind]⟩

theorem parseLiteral_keyed {text : List Char} {name : String} {value : Value}
    (spells : Spells 8 (.object 0 [(name, e)]) text) (denotes : constant e = .ok value) :
    Template.parseLiteral text = .ok (.object [(name, value)]) := by
  obtain ⟨ts, phrase, lexes⟩ := spells
  refine parseLiteral_of_phrase (phrase.weaken (Nat.zero_le 8)) (lexes [] trivial) ?_
  simp only [constant, constantMembers, denotes, bind, Except.bind]
  rfl

theorem parseLiteral_keyed_iff (shaped : IsWord word) (spells : Spells 0 e v) {value : Value}
    (denotes : constant e = .ok value) :
    parseLiteral (keyed word.toList v) = .ok (.object [(word, value)]) ↔ Keyword.ofWord? word = none := by
  constructor
  · intro read
    by_contra reserved
    obtain ⟨ts, refused, lexes⟩ := refused_keyed_bare shaped reserved spells
    obtain ⟨error, failed⟩ := refused.parseLiteral (lexes [] trivial)
    rw [failed] at read
    cases read
  · exact fun free => parseLiteral_keyed (spells_keyed_bare shaped free spells) denotes

/-- A word may go without quotes behind a dot and before a colon, in a template and in a literal, exactly if it is no
keyword. -/
theorem bare_as_quoted (shaped : IsWord word) :
    (∀ {o : List Char} {e : Expr}, Spells 8 e o →
      (Interchangeable (GivesObject e) (dotted o word) (bracketed o word) ↔ Keyword.ofWord? word = none)) ∧
    ∀ {v : List Char} {e : Expr}, Spells 0 e v →
      (Interchangeable (fun _ _ => True) (keyed word.toList v) (keyed (apostrophized word) v) ↔
        Keyword.ofWord? word = none) ∧
      ∀ {value : Value}, constant e = .ok value →
        parseLiteral (keyed (apostrophized word) v) = .ok (.object [(word, value)]) ∧
        (parseLiteral (keyed word.toList v) = .ok (.object [(word, value)]) ↔ Keyword.ofWord? word = none) :=
  ⟨fun target => dotted_iff shaped target, fun value => ⟨keyed_iff shaped value, fun denotes =>
    ⟨parseLiteral_keyed (spells_keyed_quoted shaped value) denotes, parseLiteral_keyed_iff shaped value denotes⟩⟩⟩

/-- A page of which the title is known. -/
def titledFrame : Frame where
  template := { nodes := [], filename := "page", path := ⟨"page"⟩, lines := Text.LineIndex.ofText [], stamp := 0, serial := 0 }
  properties := { bindings := [("page", .object [("title", .string "Home")])] }
  shared := .standard
  contextAlive := true

theorem bare_as_quoted_title :
    Interchangeable (GivesObject (.variable 0 "page")) "page.title".toList "page['title']".toList ∧
      GivesObject (.variable 0 "page") titledFrame {} ∧
      Interchangeable (fun _ _ => True) "\x7btitle: true\x7d".toList "\x7b'title': true\x7d".toList ∧
      parseLiteral "\x7btitle: true\x7d".toList = .ok (.object [("title", .bool true)]) := by
  have shaped : IsWord "title" := ⟨'t', "itle".toList, rfl, rfl, List.all_eq_true.mp rfl⟩
  have page : Spells 8 (.variable 0 "page") "page".toList := .variable (by decide)
  have yes : Spells 0 (.literal 0 (.bool true)) " true".toList := by
    obtain ⟨ts, phrase, lexes⟩ := Spells.keyword .trueWord rfl
    exact ⟨ts, phrase.weaken (Nat.zero_le 8), fun rest clear => .blank (lexes rest clear)⟩
  have denotes : constant (.literal 0 (.bool true)) = .ok (.bool true) := rfl
  have free : Keyword.ofWord? "title" = none := by decide
  have bare : keyed "title".toList " true".toList = "\x7btitle: true\x7d".toList := by decide
  have quoted : keyed (apostrophized "title") " true".toList = "\x7b'title': true\x7d".toList := by decide
  have keys := (bare_as_quoted shaped).2 yes
  rw [← bare, ← quoted]
  exact ⟨((bare_as_quoted shaped).1 page).mpr free, ⟨_, rfl⟩, keys.1.mpr free, (keys.2 denotes).2.mpr free⟩

/-- The keyword `in` is refused without quotes. -/
theorem keyword_as_bare_name :
    (parseLiteral "\x7bin: 1\x7d".toList).toOption.isNone = true ∧
      (parseLiteral "\x7b'in': 1\x7d".toList).toOption.isSome = true ∧
      (parse "<?= o.in ?>".toList).toOption.isNone = true ∧
      (parse "<?= o['in'] ?>".toList).toOption.isSome = true := by
  decide +kernel

end Words

end StaticSite.Template
