import StaticSite.Proofs.Template.Acceptance

/-!
The words of expressions and nodes, and the words of tokens once those are deleted that only separate or
group. The tokens of a phrase come to the words of its expression.
-/

namespace StaticSite.Template

open Json (Value)

/-- What a token comes to in a parsed template. -/
inductive Word
  /-- A token that stands for itself. -/
  | token (token : Token)
  /-- A token that is a value by itself. -/
  | value (value : Value)
  /-- The key of an object entry, however it is written. -/
  | key (name : String)

def Word.symbol (s : Symbol) : Word := .token (.symbol s)

def Word.keyword (word : Keyword) : Word := .token (.keyword word)

def Word.name (name : String) : Word := .token (.identifier name)

/-- The comma between an item and those that follow it. -/
def separator (others : List α) : List Word := if others.isEmpty then [] else [.symbol .comma]

mutual

/-- The words of an expression, without parentheses around its parts. -/
def Expr.words : Expr → List Word
  | .literal _ value => [.value value]
  | .variable _ name => [.name name]
  | .array _ items => .symbol .openBracket :: (Expr.wordsItems items ++ [.symbol .closeBracket])
  | .object _ entries => .symbol .openBrace :: (Expr.wordsEntries entries ++ [.symbol .closeBrace])
  | .member _ target name => target.words ++ [.symbol .dot, .name name]
  | .index _ target key => target.words ++ .symbol .openBracket :: (key.words ++ [.symbol .closeBracket])
  | .call _ name arguments =>
      .name name :: .symbol .openParen :: (Expr.wordsItems arguments ++ [.symbol .closeParen])
  | .unary _ operator operand => .token operator.token :: operand.words
  | .binary _ operator left right => left.words ++ .token operator.token :: right.words
  | .conditional _ condition yes no =>
      condition.words ++ .symbol .question :: (yes.words ++ .symbol .colon :: no.words)

def Expr.wordsItems : List Expr → List Word
  | [] => []
  | item :: rest => item.words ++ separator rest ++ Expr.wordsItems rest

def Expr.wordsEntries : List (String × Expr) → List Word
  | [] => []
  | (key, value) :: rest =>
      .key key :: .symbol .colon :: (value.words ++ separator rest ++ Expr.wordsEntries rest)

end

mutual

theorem Expr.words_unplaced : ∀ e : Expr, e.unplaced.words = e.words
  | .literal .. | .variable .. => by simp only [Expr.unplaced, Expr.words]
  | .array _ items => by simp only [Expr.unplaced, Expr.words, Expr.wordsItems_unplaced items]
  | .object _ entries => by simp only [Expr.unplaced, Expr.words, Expr.wordsEntries_unplaced entries]
  | .member _ target _ => by simp only [Expr.unplaced, Expr.words, Expr.words_unplaced target]
  | .index _ target key => by
      simp only [Expr.unplaced, Expr.words, Expr.words_unplaced target, Expr.words_unplaced key]
  | .call _ _ arguments => by simp only [Expr.unplaced, Expr.words, Expr.wordsItems_unplaced arguments]
  | .unary _ _ operand => by simp only [Expr.unplaced, Expr.words, Expr.words_unplaced operand]
  | .binary _ _ left right => by
      simp only [Expr.unplaced, Expr.words, Expr.words_unplaced left, Expr.words_unplaced right]
  | .conditional _ condition yes no => by
      simp only [Expr.unplaced, Expr.words, Expr.words_unplaced condition, Expr.words_unplaced yes,
        Expr.words_unplaced no]

theorem Expr.wordsItems_unplaced :
    ∀ es : List Expr, Expr.wordsItems (Expr.unplacedItems es) = Expr.wordsItems es
  | [] => rfl
  | item :: rest => by
      have same : separator (Expr.unplacedItems rest) = separator rest := by cases rest <;> rfl
      simp only [Expr.unplacedItems, Expr.wordsItems, Expr.words_unplaced item,
        Expr.wordsItems_unplaced rest, same]

theorem Expr.wordsEntries_unplaced :
    ∀ es : List (String × Expr), Expr.wordsEntries (Expr.unplacedEntries es) = Expr.wordsEntries es
  | [] => rfl
  | (key, value) :: rest => by
      have same : separator (Expr.unplacedEntries rest) = separator rest := by cases rest <;> rfl
      simp only [Expr.unplacedEntries, Expr.wordsEntries, Expr.words_unplaced value,
        Expr.wordsEntries_unplaced rest, same]

end

mutual

/-- The words of a node, in chunks: text, an expression that stands by itself, a statement or its head up
to the brace that opens a block, and the brace that closes one. -/
def Node.chunks : Node → List (List Word)
  | .text content => [[.token (.text content)]]
  | .echo value => [.token .echo :: value.words]
  | .expression value => [value.words]
  | .declare name value => [.keyword .letWord :: .name name :: .symbol .assign :: value.words]
  | .assign _ name value => [.name name :: .symbol .assign :: value.words]
  | .choose branches otherwise => Node.chunksBranches [] branches ++ Node.chunksOtherwise otherwise
  | .each first second entries body =>
      (.keyword .forWord :: .name first ::
        ((secondName second).map .token ++ .keyword .inWord ::
          (entries.words ++ [.symbol .openBrace]))) ::
        (Node.chunksAll body ++ [[.symbol .closeBrace]])
  | .embed _ path environment =>
      [.name "include" :: .symbol .openParen ::
        (Expr.wordsItems (path :: environment.toList) ++ [.symbol .closeParen])]

def Node.chunksAll : List Node → List (List Word)
  | [] => []
  | node :: rest => node.chunks ++ Node.chunksAll rest

/-- Branches, the first of which stands behind some words. -/
def Node.chunksBranches (lead : List Word) : List (Expr × List Node) → List (List Word)
  | [] => []
  | (condition, body) :: rest =>
      (lead ++ .keyword .ifWord :: (condition.words ++ [.symbol .openBrace])) ::
        (Node.chunksAll body ++ [.symbol .closeBrace] ::
          Node.chunksBranches [.keyword .elseWord] rest)

def Node.chunksOtherwise : Option (List Node) → List (List Word)
  | none => []
  | some body =>
      [.keyword .elseWord, .symbol .openBrace] :: (Node.chunksAll body ++ [[.symbol .closeBrace]])

end

namespace Token

/-- Whether the key of an object entry can follow a token. -/
def leadsKey : Token → Bool
  | .symbol .openBrace | .symbol .comma => true
  | _ => false

def isColon : Token → Bool
  | .symbol .colon => true
  | _ => false

/-- Whether a token closes arguments, an array or an object. -/
def closes : Token → Bool
  | .symbol .closeParen | .symbol .closeBracket | .symbol .closeBrace => true
  | _ => false

/-- Whether the names of a loop can follow a token. -/
def leadsLoop : Token → Bool
  | .keyword .forWord | .symbol .openParen => true
  | _ => false

/-- The word of a token that is no key. -/
def plainWord (token : Token) : Word :=
  match token.value? with
  | some value => .value value
  | none => .token token

/-- The word of a token between its neighbours. It is a key between a brace or comma and a colon. -/
def word (token previous next : Token) : Word :=
  match token.key? with
  | some key => if previous.leadsKey && next.isColon then .key key else token.plainWord
  | none => token.plainWord

/-- The words that a token leaves when all that only separates or groups is deleted: the ends of spans and
of the source, semicolons, parentheses that do not hold the arguments of a call, a comma before what
closes a list, and a `let` before the names of a loop. `calls` says of each parenthesis that is open
whether it holds the arguments of a call. -/
def essence (token previous next : Token) (calls : List Bool) : List Word :=
  match token with
  | .finish | .spanEnd | .symbol .semicolon => []
  | .symbol .openParen => if previous.isName then [.symbol .openParen] else []
  | .symbol .closeParen => if calls.headD true then [.symbol .closeParen] else []
  | .symbol .comma => if next.closes then [] else [.symbol .comma]
  | .keyword .letWord => if previous.leadsLoop then [] else [.keyword .letWord]
  | _ => [token.word previous next]

/-- The parentheses that are open behind a token. -/
def callsBehind (token previous : Token) (calls : List Bool) : List Bool :=
  match token with
  | .symbol .openParen => previous.isName :: calls
  | .symbol .closeParen => calls.tail
  | _ => calls

end Token

/-- The words of tokens behind a token, with all deleted that only separates or groups. -/
def essentials (previous : Token) (calls : List Bool) : List Token → List Word
  | [] => []
  | token :: rest =>
      token.essence previous (rest.headD .finish) calls ++
        essentials token (token.callsBehind previous calls) rest

/-- Tokens that are left as they are wherever they stand. -/
structure Token.Plain (token : Token) : Prop where
  essence : ∀ previous next calls, token.essence previous next calls = [.token token]
  callsBehind : ∀ previous calls, token.callsBehind previous calls = calls

theorem essentials_plain {token : Token} (plain : token.Plain) (previous : Token) (calls : List Bool)
    (rest : List Token) :
    essentials previous calls (token :: rest) = .token token :: essentials token calls rest := by
  rw [essentials, plain.essence, plain.callsBehind]
  rfl

theorem BinaryOperator.plain (operator : BinaryOperator) : operator.token.Plain := by
  cases operator <;> exact ⟨fun _ _ _ => rfl, fun _ _ => rfl⟩

theorem UnaryOperator.plain (operator : UnaryOperator) : operator.token.Plain := by
  cases operator <;> exact ⟨fun _ _ _ => rfl, fun _ _ => rfl⟩

theorem Keyword.plain {word : Keyword} (plain : Token.value? (.keyword word) = none)
    (apart : word ≠ .letWord) : Token.Plain (.keyword word) := by
  cases word with
  | letWord => exact absurd rfl apart
  | trueWord | falseWord | nullWord => cases plain
  | _ => exact ⟨fun _ _ _ => rfl, fun _ _ => rfl⟩

/-- Whether a symbol is always left as it is. -/
def Symbol.stays : Symbol → Bool
  | .openParen | .closeParen | .comma | .semicolon => false
  | _ => true

theorem Symbol.plain {s : Symbol} (stays : s.stays = true) : Token.Plain (.symbol s) := by
  cases s <;> first | exact ⟨fun _ _ _ => rfl, fun _ _ => rfl⟩ | cases stays

theorem essentials_symbol {s : Symbol} (stays : s.stays = true) (previous : Token) (calls : List Bool)
    (rest : List Token) :
    essentials previous calls (.symbol s :: rest) = .symbol s :: essentials (.symbol s) calls rest :=
  essentials_plain (Symbol.plain stays) previous calls rest

theorem essentials_name (name : String) (previous : Token) (calls : List Bool) (rest : List Token)
    (unkeyed : previous.leadsKey = true → (rest.headD .finish).isColon = false) :
    essentials previous calls (.identifier name :: rest) =
      .name name :: essentials (.identifier name) calls rest := by
  cases leads : previous.leadsKey <;>
    simp_all [essentials, Token.essence, Token.word, Token.key?, Token.plainWord, Token.value?,
      Token.callsBehind, Word.name]

theorem essentials_value {token : Token} {value : Value} (denotes : token.value? = some value)
    (previous : Token) (calls : List Bool) (rest : List Token)
    (unkeyed : previous.leadsKey = true → (rest.headD .finish).isColon = false) :
    essentials previous calls (token :: rest) = .value value :: essentials token calls rest := by
  have plain : token.word previous (rest.headD .finish) = .value value := by
    unfold Token.word Token.plainWord
    rw [denotes]
    cases leads : previous.leadsKey <;> cases token.key? <;> simp_all
  have same : token.essence previous (rest.headD .finish) calls =
      [token.word previous (rest.headD .finish)] ∧ token.callsBehind previous calls = calls := by
    cases token with
    | keyword word => cases word <;> first | exact ⟨rfl, rfl⟩ | cases denotes
    | symbol s => cases denotes
    | _ => first | exact ⟨rfl, rfl⟩ | cases denotes
  rw [essentials, same.1, same.2, plain]
  rfl

theorem essentials_key {token : Token} {key : String} (names : token.key? = some key) {previous : Token}
    (leads : previous.leadsKey = true) (calls : List Bool) (rest : List Token) :
    essentials previous calls (token :: .symbol .colon :: rest) =
      .key key :: .symbol .colon :: essentials (.symbol .colon) calls rest := by
  have same : token.essence previous (.symbol .colon) calls = [token.word previous (.symbol .colon)] ∧
      token.callsBehind previous calls = calls := by
    cases token with
    | identifier name | string name | number f => exact ⟨rfl, rfl⟩
    | _ => cases names
  rw [essentials, List.headD_cons, same.1, same.2, Token.word, names, leads, essentials_symbol rfl]
  rfl

theorem getLastD_append_cons (front : List Token) (token : Token) (ts : List Token) (previous : Token) :
    (front ++ token :: ts).getLastD previous = ts.getLastD token := by
  rw [List.getLastD_eq_getLast?, List.getLastD_eq_getLast?, List.getLast?_append, List.getLast?_cons]
  simp

/-- Tokens that come to the same words wherever an expression can stand: not behind the name of a call, and
not as the key of an object entry. -/
def ComesTo (ts : List Token) (ws : List Word) : Prop :=
  ∀ previous calls rest, Apart previous (ts ++ rest) →
    (previous.leadsKey = true → (rest.headD .finish).isColon = false) →
    essentials previous calls (ts ++ rest) = ws ++ essentials (ts.getLastD previous) calls rest

/-- Behind a token that is neither a name nor before a key, tokens come to their words whatever follows. -/
theorem ComesTo.behind (comesTo : ComesTo ts ws) {previous : Token} (isName : previous.isName = false)
    (leadsKey : previous.leadsKey = false) (calls : List Bool) (rest : List Token) :
    essentials previous calls (ts ++ rest) = ws ++ essentials (ts.getLastD previous) calls rest :=
  comesTo previous calls rest (fun name => by simp [isName] at name) (fun key => by simp [leadsKey] at key)

theorem ComesTo.conditional (condition : ComesTo cs cw) (yes : ComesTo ys yw) (no : ComesTo ns nw) :
    ComesTo (cs ++ .symbol .question :: (ys ++ .symbol .colon :: ns))
      (cw ++ .symbol .question :: (yw ++ .symbol .colon :: nw)) := by
  intro previous calls rest apart unkeyed
  simp only [List.append_assoc, List.cons_append, getLastD_append_cons] at apart ⊢
  rw [condition _ _ _ apart fun _ => rfl, essentials_symbol rfl, yes.behind rfl rfl,
    essentials_symbol rfl, no.behind rfl rfl]

theorem ComesTo.binary (operator : BinaryOperator) (left : ComesTo ls lw) (right : ComesTo rs rw) :
    ComesTo (ls ++ operator.token :: rs) (lw ++ .token operator.token :: rw) := by
  intro previous calls rest apart unkeyed
  simp only [List.append_assoc, List.cons_append, getLastD_append_cons] at apart ⊢
  rw [left _ _ _ apart fun _ => by cases operator <;> rfl, essentials_plain operator.plain,
    right.behind (by cases operator <;> rfl) (by cases operator <;> rfl)]

theorem ComesTo.unary (operator : UnaryOperator) (operand : ComesTo ts ws) :
    ComesTo (operator.token :: ts) (.token operator.token :: ws) := by
  intro previous calls rest _ _
  rw [List.cons_append, essentials_plain operator.plain,
    operand.behind (by cases operator <;> rfl) (by cases operator <;> rfl), List.getLastD_cons]
  rfl

theorem ComesTo.member (target : ComesTo ts ws) (name : String) :
    ComesTo (ts ++ [.symbol .dot, .identifier name]) (ws ++ [.symbol .dot, .name name]) := by
  intro previous calls rest apart _
  simp only [List.append_assoc, List.cons_append, List.nil_append, getLastD_append_cons] at apart ⊢
  rw [target _ _ _ apart fun _ => rfl, essentials_symbol rfl, essentials_name _ _ _ _ (by rintro ⟨⟩)]
  rfl

theorem ComesTo.index (target : ComesTo ts ws) (key : ComesTo ks kw) :
    ComesTo (ts ++ .symbol .openBracket :: (ks ++ [.symbol .closeBracket]))
      (ws ++ .symbol .openBracket :: (kw ++ [.symbol .closeBracket])) := by
  intro previous calls rest apart _
  simp only [List.append_assoc, List.cons_append, List.nil_append, getLastD_append_cons] at apart ⊢
  rw [target _ _ _ apart fun _ => rfl, essentials_symbol rfl, key.behind rfl rfl, essentials_symbol rfl]
  rfl

theorem comesTo_value {token : Token} {value : Value} (denotes : token.value? = some value) :
    ComesTo [token] [.value value] :=
  fun previous calls rest _ unkeyed => essentials_value denotes previous calls rest unkeyed

theorem comesTo_name (name : String) : ComesTo [.identifier name] [.name name] :=
  fun previous calls rest _ unkeyed => essentials_name name previous calls rest unkeyed

theorem ComesTo.group (inner : ComesTo ts ws) :
    ComesTo (.symbol .openParen :: (ts ++ [.symbol .closeParen])) ws := by
  intro previous calls rest apart _
  have unnamed : previous.isName = false := by
    by_contra isName
    exact apart (by simpa using isName) rfl
  rw [List.cons_append, essentials]
  simp only [Token.essence, Token.callsBehind, unnamed, Bool.false_eq_true, if_false, List.nil_append,
    List.append_assoc]
  rw [inner.behind rfl rfl, List.getLastD_cons, List.getLastD_concat, List.cons_append, List.nil_append,
    essentials]
  rfl

/-- What a symbol needs to close items: it stays, and this is what it makes of the parentheses that are
open. -/
structure ClosesWords (close : Symbol) (calls behind : List Bool) : Prop where
  closes : Token.closes (.symbol close) = true
  essence : ∀ previous next, Token.essence (.symbol close) previous next calls = [.symbol close]
  callsBehind : ∀ previous, Token.callsBehind (.symbol close) previous calls = behind

theorem closesWords_closeParen (calls : List Bool) : ClosesWords .closeParen (true :: calls) calls :=
  ⟨rfl, fun _ _ => rfl, fun _ => rfl⟩

theorem closesWords_closeBracket (calls : List Bool) : ClosesWords .closeBracket calls calls :=
  ⟨rfl, fun _ _ => rfl, fun _ => rfl⟩

theorem closesWords_closeBrace (calls : List Bool) : ClosesWords .closeBrace calls calls :=
  ⟨rfl, fun _ _ => rfl, fun _ => rfl⟩

theorem ClosesWords.essentials_cons (closesWords : ClosesWords close calls behind) (previous : Token)
    (rest : List Token) :
    essentials previous calls (.symbol close :: rest) =
      .symbol close :: essentials (.symbol close) behind rest := by
  rw [essentials, closesWords.essence, closesWords.callsBehind]
  rfl

theorem Token.closes_of_begins {token : Token} (begins : token.begins = true) : token.closes = false := by
  cases token with
  | symbol s => cases s <;> first | rfl | cases begins
  | _ => rfl

theorem Token.closes_of_key? {token : Token} {key : String} (names : token.key? = some key) :
    token.closes = false := by
  cases token <;> first | rfl | cases names

theorem Items.getLastD (items : Items close es ts) (previous : Token) :
    ts.getLastD previous = .symbol close := by
  obtain ⟨front, rfl⟩ := items.exists_last
  exact List.getLastD_concat

theorem Entries.getLastD (entries : Entries es ts) (previous : Token) :
    ts.getLastD previous = .symbol .closeBrace := by
  obtain ⟨front, rfl⟩ := entries.exists_last
  exact List.getLastD_concat

/-- A comma before items is left out if none follow. -/
theorem Items.closes_headD (items : Items close es ts) (closes : Token.closes (.symbol close) = true)
    (rest : List Token) : ((ts ++ rest).headD .finish).closes = es.isEmpty := by
  cases items with
  | none => exact closes
  | last item | cons item others =>
      obtain ⟨token, us, rfl, begins⟩ := item.exists_begins
      exact Token.closes_of_begins begins

theorem Entries.closes_headD (entries : Entries es ts) (rest : List Token) :
    ((ts ++ rest).headD .finish).closes = es.isEmpty := by
  cases entries with
  | none => rfl
  | last names value | cons names value others => exact Token.closes_of_key? names

/-- A comma between items, or behind the last. -/
theorem essentials_comma {others : List α} {us : List Token}
    (closes : (us.headD .finish).closes = others.isEmpty) (previous : Token) (calls : List Bool) :
    essentials previous calls (.symbol .comma :: us) =
      separator others ++ essentials (.symbol .comma) calls us := by
  rw [essentials, Token.essence, closes, separator]
  rfl

theorem Token.isColon_of_closes {token : Token} (closes : token.closes = true) : token.isColon = false := by
  cases token with
  | symbol s => cases s <;> first | rfl | cases closes
  | _ => rfl

mutual

theorem Phrase.comesTo : ∀ {level e ts}, Phrase level e ts → ComesTo ts e.words
  | _, _, _, .loosen tighter => tighter.comesTo
  | _, _, _, .conditional condition yes no => by
      rw [Expr.words]
      exact condition.comesTo.conditional yes.comesTo no.comesTo
  | _, _, _, .binary operator left right => by
      rw [Expr.words]
      exact left.comesTo.binary operator right.comesTo
  | _, _, _, .unary operator operand => by
      rw [Expr.words]
      exact operand.comesTo.unary operator
  | _, _, _, .member target name => by
      rw [Expr.words]
      exact target.comesTo.member name
  | _, _, _, .index target key => by
      rw [Expr.words]
      exact target.comesTo.index key.comesTo
  | _, _, _, .literal denotes => by
      rw [Expr.words]
      exact comesTo_value denotes
  | _, _, _, .variable name => by
      rw [Expr.words]
      exact comesTo_name name
  | _, _, _, .call callable arguments => by
      rw [Expr.words]
      intro previous calls rest _ _
      -- behind the name the parenthesis begins a call, not a group, and is kept
      have unnamed : Token.isName (.symbol .openParen) = false := rfl
      have inner := arguments.comesTo (closesWords_closeParen calls) unnamed rest
      rw [List.cons_append, List.cons_append, essentials_name _ _ _ _ fun _ => rfl, essentials]
      simp only [Token.essence, Token.callsBehind, Token.isName, if_true, inner]
      simp only [List.getLastD_cons, arguments.getLastD, List.cons_append, List.nil_append,
        List.append_assoc]
  | _, _, _, .group inner => inner.comesTo.group
  | _, _, _, .array items => by
      rw [Expr.words]
      intro previous calls rest _ _
      rw [List.cons_append, essentials_symbol rfl, items.comesTo (closesWords_closeBracket calls) rfl,
        List.getLastD_cons, items.getLastD]
      simp
  | _, _, _, .object entries => by
      rw [Expr.words]
      intro previous calls rest _ _
      rw [List.cons_append, essentials_symbol rfl, entries.comesTo rfl, List.getLastD_cons,
        entries.getLastD]
      simp

theorem Items.comesTo : ∀ {close es ts}, Items close es ts → ∀ {calls behind},
    ClosesWords close calls behind → ∀ {previous : Token}, previous.isName = false → ∀ rest,
      essentials previous calls (ts ++ rest) =
        Expr.wordsItems es ++ .symbol close :: essentials (.symbol close) behind rest
  | _, _, _, .none, _, _, closesWords, _, _, rest => closesWords.essentials_cons _ rest
  | close, _, _, .last item, _, _, closesWords, previous, isName, rest => by
      have unkeyed : Token.isColon (.symbol close) = false := Token.isColon_of_closes closesWords.closes
      rw [List.append_assoc, List.cons_append, List.nil_append,
        item.comesTo _ _ (.symbol close :: rest) (fun name => by simp [isName] at name) fun _ => unkeyed,
        closesWords.essentials_cons]
      simp [Expr.wordsItems, separator]
  | _, _, _, .cons item others, _, _, closesWords, previous, isName, rest => by
      rw [List.append_assoc, item.comesTo _ _ _ (fun name => by simp [isName] at name) fun _ => rfl,
        List.cons_append, essentials_comma (others.closes_headD closesWords.closes rest),
        others.comesTo closesWords rfl]
      simp [Expr.wordsItems]

theorem Entries.comesTo : ∀ {es ts}, Entries es ts → ∀ {previous : Token}, previous.leadsKey = true →
    ∀ {calls} rest, essentials previous calls (ts ++ rest) =
      Expr.wordsEntries es ++ .symbol .closeBrace :: essentials (.symbol .closeBrace) calls rest
  | _, _, .none, _, _, calls, rest => (closesWords_closeBrace calls).essentials_cons _ rest
  | _, _, .last names value, _, leads, _, rest => by
      simp only [List.cons_append, List.append_assoc, List.nil_append]
      rw [essentials_key names leads, value.comesTo.behind rfl rfl, essentials_symbol rfl]
      simp [Expr.wordsEntries, separator]
  | _, _, .cons names value others, _, leads, _, rest => by
      simp only [List.cons_append, List.append_assoc]
      rw [essentials_key names leads, value.comesTo.behind rfl rfl,
        essentials_comma (others.closes_headD rest), others.comesTo rfl]
      simp [Expr.wordsEntries]

end

end StaticSite.Template
