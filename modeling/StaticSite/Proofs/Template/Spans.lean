import StaticSite.Proofs.Template.Wording
import StaticSite.Proofs.Template.Cut

/-!
The parser drops no token that means something, and invents none. The words of the nodes are those of the
tokens of the source, and each expression and each head of a statement comes from within one span.
-/

namespace StaticSite.Template

open Json (Value)

theorem Token.isCode_of_value? {token : Token} {value : Value} (denotes : token.value? = some value) :
    token.isCode = true := by
  cases token <;> first | rfl | cases denotes

theorem Token.isCode_of_key? {token : Token} {key : String} (names : token.key? = some key) :
    token.isCode = true := by
  cases token <;> first | rfl | cases names

theorem Token.leadsLoop_of_value? {token : Token} {value : Value} (denotes : token.value? = some value) :
    token.leadsLoop = false := by
  cases token with
  | keyword word => cases word <;> first | rfl | cases denotes
  | _ => first | rfl | cases denotes

mutual

theorem Phrase.isCode : ∀ {level e ts}, Phrase level e ts → ∀ token ∈ ts, token.isCode = true
  | _, _, _, .loosen tighter => tighter.isCode
  | _, _, _, .conditional condition yes no => by
      simp only [List.forall_mem_append, List.forall_mem_cons]
      exact ⟨condition.isCode, rfl, yes.isCode, rfl, no.isCode⟩
  | _, _, _, .binary operator left right => by
      simp only [List.forall_mem_append, List.forall_mem_cons]
      exact ⟨left.isCode, by cases operator <;> rfl, right.isCode⟩
  | _, _, _, .unary operator operand => by
      simp only [List.forall_mem_cons]
      exact ⟨by cases operator <;> rfl, operand.isCode⟩
  | _, _, _, .member target _ => by
      simp only [List.forall_mem_append, List.forall_mem_cons]
      exact ⟨target.isCode, rfl, rfl, by simp⟩
  | _, _, _, .index target key => by
      simp only [List.forall_mem_append, List.forall_mem_cons]
      exact ⟨target.isCode, rfl, key.isCode, rfl, by simp⟩
  | _, _, _, .literal denotes => by
      simp only [List.forall_mem_singleton]
      exact Token.isCode_of_value? denotes
  | _, _, _, .variable _ => by simp [Token.isCode]
  | _, _, _, .call _ arguments => by
      simp only [List.forall_mem_cons]
      exact ⟨rfl, rfl, arguments.isCode⟩
  | _, _, _, .group inner => by
      simp only [List.forall_mem_append, List.forall_mem_cons]
      exact ⟨rfl, inner.isCode, rfl, by simp⟩
  | _, _, _, .array items => by
      simp only [List.forall_mem_cons]
      exact ⟨rfl, items.isCode⟩
  | _, _, _, .object entries => by
      simp only [List.forall_mem_cons]
      exact ⟨rfl, entries.isCode⟩

theorem Items.isCode : ∀ {close es ts}, Items close es ts → ∀ token ∈ ts, token.isCode = true
  | _, _, _, .none => by simp [Token.isCode]
  | _, _, _, .last item => by
      simp only [List.forall_mem_append, List.forall_mem_singleton]
      exact ⟨item.isCode, rfl⟩
  | _, _, _, .cons item others => by
      simp only [List.forall_mem_append, List.forall_mem_cons]
      exact ⟨item.isCode, rfl, others.isCode⟩

theorem Entries.isCode : ∀ {es ts}, Entries es ts → ∀ token ∈ ts, token.isCode = true
  | _, _, .none => by simp [Token.isCode]
  | _, _, .last names value => by
      simp only [List.forall_mem_append, List.forall_mem_cons]
      exact ⟨Token.isCode_of_key? names, rfl, value.isCode, rfl, by simp⟩
  | _, _, .cons names value others => by
      simp only [List.forall_mem_append, List.forall_mem_cons]
      exact ⟨Token.isCode_of_key? names, rfl, value.isCode, rfl, others.isCode⟩

end

/-- No expression ends where the names of a loop can begin. -/
theorem Phrase.leadsLoop_getLastD : ∀ {level e ts}, Phrase level e ts →
    ∀ previous : Token, (ts.getLastD previous).leadsLoop = false
  | _, _, _, .loosen tighter, previous => tighter.leadsLoop_getLastD previous
  | _, _, _, .conditional _ _ no, _ => by
      rw [getLastD_append_cons, getLastD_append_cons]
      exact no.leadsLoop_getLastD _
  | _, _, _, .binary _ _ right, _ => by
      rw [getLastD_append_cons]
      exact right.leadsLoop_getLastD _
  | _, _, _, .unary _ operand, _ => by
      rw [List.getLastD_cons]
      exact operand.leadsLoop_getLastD _
  | _, _, _, .member _ _, _ => by
      rw [getLastD_append_cons]
      rfl
  | _, _, _, .index _ _, _ => by
      rw [getLastD_append_cons, List.getLastD_concat]
      rfl
  | _, _, _, .literal denotes, _ => Token.leadsLoop_of_value? denotes
  | _, _, _, .variable _, _ => rfl
  | _, _, _, .call _ arguments, _ => by
      rw [List.getLastD_cons, List.getLastD_cons, arguments.getLastD]
      rfl
  | _, _, _, .group _, _ => by
      rw [List.getLastD_cons, List.getLastD_concat]
      rfl
  | _, _, _, .array items, _ => by
      rw [List.getLastD_cons, items.getLastD]
      rfl
  | _, _, _, .object entries, _ => by
      rw [List.getLastD_cons, entries.getLastD]
      rfl

/-- Tokens that come to the same words wherever a node can stand, and lie within one span. -/
structure Together (ts : List Token) (ws : List Word) : Prop where
  comesTo : ∀ previous calls rest, previous.leadsLoop = false → Apart previous (ts ++ rest) →
    (rest.headD .finish).isColon = false →
    essentials previous calls (ts ++ rest) = ws ++ essentials (ts.getLastD previous) calls rest
  within : .spanEnd ∉ ts
  begins : ∃ token us, ts = token :: us ∧ token.isColon = false
  ends : ∀ previous, (ts.getLastD previous).leadsLoop = false

theorem apart_of_not_isName {previous : Token} (unnamed : previous.isName = false) (rest : List Token) :
    Apart previous rest :=
  fun isName => by simp [unnamed] at isName

theorem spanEnd_not_mem_of_isCode {ts : List Token} (code : ∀ token ∈ ts, token.isCode = true) :
    .spanEnd ∉ ts :=
  fun member => by cases code _ member

theorem Token.isColon_of_begins {token : Token} (begins : token.begins = true) : token.isColon = false := by
  cases token with
  | symbol s => cases s <;> first | rfl | cases begins
  | _ => rfl

theorem Phrase.together (phrase : Phrase level (Expr.unplaced e) ts) : Together ts e.words where
  comesTo previous calls rest _ apart unkeyed := by
    rw [← Expr.words_unplaced]
    exact phrase.comesTo previous calls rest apart fun _ => unkeyed
  within := spanEnd_not_mem_of_isCode phrase.isCode
  begins := by
    obtain ⟨token, us, same, begins⟩ := phrase.exists_begins
    exact ⟨token, us, same, Token.isColon_of_begins begins⟩
  ends := phrase.leadsLoop_getLastD

theorem together_plain {token : Token} (plain : token.Plain) (within : token ≠ .spanEnd)
    (isColon : token.isColon = false) (leadsLoop : token.leadsLoop = false) :
    Together [token] [.token token] where
  comesTo previous calls rest _ _ _ := essentials_plain plain previous calls rest
  within := by simpa using within.symm
  begins := ⟨token, [], rfl, isColon⟩
  ends _ := leadsLoop

theorem together_symbol {s : Symbol} (stays : s.stays = true) (apart : s ≠ .colon) :
    Together [.symbol s] [.symbol s] :=
  together_plain (Symbol.plain stays) (by simp) (by cases s <;> first | rfl | exact absurd rfl apart)
    (by cases s <;> first | rfl | cases stays)

theorem together_name (name : String) : Together [.identifier name] [.name name] where
  comesTo previous calls rest _ _ unkeyed := essentials_name name previous calls rest fun _ => unkeyed
  within := by simp
  begins := ⟨_, [], rfl, rfl⟩
  ends _ := rfl

theorem together_if : Together [.keyword .ifWord] [.keyword .ifWord] :=
  together_plain (Keyword.plain rfl (by simp)) (by simp) rfl rfl

theorem together_else : Together [.keyword .elseWord] [.keyword .elseWord] :=
  together_plain (Keyword.plain rfl (by simp)) (by simp) rfl rfl

theorem together_let : Together [.keyword .letWord] [.keyword .letWord] where
  comesTo previous calls rest unlooped _ _ := by
    rw [List.singleton_append, essentials, Token.essence, unlooped]
    rfl
  within := by simp
  begins := ⟨_, [], rfl, rfl⟩
  ends _ := rfl

theorem getLastD_append (ts us : List Token) (previous : Token) :
    (ts ++ us).getLastD previous = us.getLastD (ts.getLastD previous) := by
  cases us with
  | nil => rw [List.append_nil]; rfl
  | cons token us => rw [getLastD_append_cons, List.getLastD_cons]

theorem Together.getLastD (together : Together ts ws) (previous other : Token) :
    ts.getLastD previous = ts.getLastD other := by
  obtain ⟨token, us, rfl, -⟩ := together.begins
  rw [List.getLastD_cons, List.getLastD_cons]

theorem Together.append (first : Together ts ws) (second : Together us vs)
    (apart : Apart (ts.getLastD .spanEnd) us) : Together (ts ++ us) (ws ++ vs) where
  comesTo previous calls rest unlooped apart' unkeyed := by
    obtain ⟨token, others, rfl, isColon⟩ := second.begins
    rw [List.append_assoc] at apart' ⊢
    rw [first.comesTo previous calls _ unlooped apart' isColon,
      second.comesTo _ calls rest (first.ends previous) _ unkeyed, getLastD_append, List.append_assoc]
    rwa [first.getLastD previous .spanEnd]
  within := by
    rw [List.mem_append, not_or]
    exact ⟨first.within, second.within⟩
  begins := by
    obtain ⟨token, others, rfl, isColon⟩ := first.begins
    exact ⟨token, others ++ us, rfl, isColon⟩
  ends previous := by
    rw [getLastD_append]
    exact second.ends _

/-- The names of a loop. The parenthesis before them is still open behind them. -/
theorem essentials_loopNames (parenthesized declared : Bool) (first : String) (second : Option String)
    (previous : Token) (calls : List Bool) (rest : List Token) :
    essentials previous calls
        (.keyword .forWord :: (loopNames parenthesized declared first second ++ rest)) =
      .keyword .forWord :: .name first :: ((secondName second).map .token ++ .keyword .inWord ::
        essentials (.keyword .inWord) (optional parenthesized false ++ calls) rest) := by
  cases parenthesized <;> cases declared <;> cases second <;> rfl

theorem getLastD_loopNames (parenthesized declared : Bool) (first : String) (second : Option String)
    (previous : Token) :
    (loopNames parenthesized declared first second).getLastD previous = .keyword .inWord := by
  cases parenthesized <;> cases declared <;> cases second <;> rfl

theorem loopNames_isCode (parenthesized declared : Bool) (first : String) (second : Option String) :
    ∀ token ∈ loopNames parenthesized declared first second, token.isCode = true := by
  cases parenthesized <;> cases declared <;> cases second <;>
    simp [loopNames, optional, secondName, Token.isCode]

/-- The head of a loop, with or without its parentheses and its `let`. -/
theorem together_loopHead (parenthesized declared : Bool) (first : String) (second : Option String)
    (entries : Phrase 0 (Expr.unplaced e) ts) :
    Together (.keyword .forWord :: loopHead parenthesized declared first second ts)
      (.keyword .forWord :: .name first ::
        ((secondName second).map .token ++ .keyword .inWord :: e.words)) where
  comesTo previous calls rest _ _ _ := by
    have unnamed : Token.isName (.keyword .inWord) = false := rfl
    have inner := entries.comesTo.behind unnamed rfl
    rw [Expr.words_unplaced] at inner
    rw [loopHead, List.getLastD_cons, getLastD_append, getLastD_append, getLastD_loopNames]
    simp only [List.append_assoc, List.cons_append, essentials_loopNames, inner]
    cases parenthesized <;> rfl
  within := by
    refine spanEnd_not_mem_of_isCode ?_
    simp only [loopHead, List.forall_mem_cons, List.forall_mem_append]
    exact ⟨rfl, ⟨loopNames_isCode _ _ _ _, entries.isCode⟩, by
      cases parenthesized <;> simp [optional, Token.isCode]⟩
  begins := ⟨_, _, rfl, rfl⟩
  ends previous := by
    rw [loopHead, List.getLastD_cons, getLastD_append, getLastD_append, getLastD_loopNames]
    cases parenthesized with
    | false => exact entries.leadsLoop_getLastD _
    | true => rfl

theorem Branch.getLastD (branch : Branch condition ns bs) (previous : Token) :
    bs.getLastD previous = .symbol .closeBrace := by
  obtain ⟨front, rfl⟩ := branch.exists_last
  exact List.getLastD_concat

theorem together_embed (arguments : Items .closeParen (Expr.unplacedItems es) ts) :
    Together (.identifier "include" :: .symbol .openParen :: ts)
      (.name "include" :: .symbol .openParen :: (Expr.wordsItems es ++ [.symbol .closeParen])) where
  comesTo previous calls rest _ _ _ := by
    have unnamed : Token.isName (.symbol .openParen) = false := rfl
    have inner := arguments.comesTo (closesWords_closeParen calls) unnamed rest
    rw [List.cons_append, List.cons_append, essentials_name _ _ _ _ fun _ => rfl, essentials]
    simp only [Token.essence, Token.callsBehind, Token.isName, if_true, inner,
      Expr.wordsItems_unplaced]
    simp only [List.getLastD_cons, arguments.getLastD, List.cons_append, List.nil_append,
      List.append_assoc]
  within := by
    refine spanEnd_not_mem_of_isCode ?_
    simp only [List.forall_mem_cons]
    exact ⟨rfl, rfl, arguments.isCode⟩
  begins := ⟨_, _, rfl, rfl⟩
  ends previous := by
    rw [List.getLastD_cons, List.getLastD_cons, arguments.getLastD]
    rfl

/-- Whether a token only separates nodes. -/
def Token.separates : Token → Bool
  | .symbol .semicolon | .spanEnd | .finish => true
  | _ => false

/-- Tokens in the order of the chunks that they come to, with nothing but separators between them. -/
inductive Laid : List (List Word) → List Token → Prop
  | none : Laid [] []
  | gap (separates : Token.separates token = true) (others : Laid chunks us) : Laid chunks (token :: us)
  | chunk (together : Together ts ws) (apart : Apart (ts.getLastD .spanEnd) us) (others : Laid chunks us) :
      Laid (ws :: chunks) (ts ++ us)

theorem Together.laid (together : Together ts ws) : Laid [ws] ts := by
  simpa using Laid.chunk together (fun _ => by simp) .none

theorem Apart.of_getLastD {us rest : List Token} {previous : Token}
    (apart : Apart (us.getLastD previous) rest) : Apart (us.getLastD .spanEnd) rest := by
  cases us with
  | nil => exact apart_of_not_isName rfl rest
  | cons token us => rwa [List.getLastD_cons] at apart ⊢

theorem Laid.append (first : Laid chunks ts) (second : Laid others us)
    (apart : Apart (ts.getLastD .spanEnd) us) : Laid (chunks ++ others) (ts ++ us) := by
  induction first with
  | none => exact second
  | gap separates _ ih =>
      rw [List.getLastD_cons] at apart
      exact .gap separates (ih apart.of_getLastD)
  | @chunk ts ws rest chunks together inner _ ih =>
      rw [getLastD_append] at apart
      rw [List.append_assoc]
      refine .chunk together ?_ (ih apart.of_getLastD)
      cases rest with
      | nil => exact apart
      | cons token rest => exact inner

theorem Laid.gaps (laid : Laid chunks us) (ends : Nat) :
    Laid chunks (List.replicate ends .spanEnd ++ us) := by
  induction ends with
  | zero => exact laid
  | succ ends ih => exact .gap rfl ih

mutual

theorem Sentence.laid : ∀ {n ts}, Sentence n ts → Laid n.chunks ts
  | _, _, .text content => by
      rw [Node.chunks]
      exact (together_plain ⟨fun _ _ _ => rfl, fun _ _ => rfl⟩ (by simp) rfl rfl).laid
  | _, _, .echo value => by
      rw [Node.chunks]
      have echo : Together [.echo] [.token .echo] :=
        together_plain ⟨fun _ _ _ => rfl, fun _ _ => rfl⟩ (by simp) rfl rfl
      exact (echo.append value.together (apart_of_not_isName rfl _)).laid
  | _, _, .expression value => by
      rw [Node.chunks]
      exact value.together.laid
  | _, _, .declare name value => by
      rw [Node.chunks]
      have assigned := (together_symbol (s := .assign) rfl (by simp)).append value.together
        (apart_of_not_isName rfl _)
      have named := (together_name name).append assigned (by simp [Apart])
      exact (together_let.append named (apart_of_not_isName rfl _)).laid
  | _, _, .assign _ name target value => by
      rw [Node.chunks]
      have assigned := (together_symbol (s := .assign) rfl (by simp)).append value.together
        (apart_of_not_isName rfl _)
      exact (target.together (e := .variable 0 name) |>.append assigned (by simp [Apart])).laid
  | _, _, .choose first others => by
      rw [Node.chunks, Node.chunksBranches]
      have laid := (first.laid together_if rfl).append others.laid
        (by rw [getLastD_append, first.getLastD]; exact apart_of_not_isName rfl _)
      simpa using laid
  | _, _, .each parenthesized declared first second entries body => by
      rw [Node.chunks]
      have laid := body.laid (together_loopHead parenthesized declared first second entries)
      simpa using laid
  | _, _, .embed _ environment arguments => by
      rw [Node.chunks]
      exact (together_embed arguments).laid

/-- A condition and its block behind the words that lead it in. -/
theorem Branch.laid : ∀ {condition ns bs}, Branch condition ns bs → ∀ {fs fw}, Together fs fw →
    (fs.getLastD .spanEnd).isName = false →
    Laid ((fw ++ condition.words ++ [.symbol .openBrace]) ::
      (Node.chunksAll ns ++ [[.symbol .closeBrace]])) (fs ++ bs)
  | _, _, _, .guarded condition body, _, _, lead, unnamed => by
      rw [← List.append_assoc]
      exact body.laid (lead.append condition.together (apart_of_not_isName unnamed _))

theorem Branches.laid : ∀ {branches otherwise us}, Branches branches otherwise us →
    Laid (Node.chunksBranches [.keyword .elseWord] branches ++ Node.chunksOtherwise otherwise) us
  | _, _, _, .none => by
      rw [Node.chunksBranches, Node.chunksOtherwise]
      exact .none
  | _, _, _, .final ends body => by
      rw [Node.chunksBranches, Node.chunksOtherwise]
      exact (body.laid together_else).gaps ends
  | _, _, _, .branch ends first others => by
      rw [Node.chunksBranches]
      have lead := together_else.append together_if (apart_of_not_isName rfl _)
      have laid := (first.laid lead rfl).append others.laid
        (by rw [getLastD_append, first.getLastD]; exact apart_of_not_isName rfl _)
      simpa using laid.gaps ends

/-- A block behind its head. -/
theorem Braced.laid : ∀ {ns bs}, Braced ns bs → ∀ {fs fw}, Together fs fw →
    Laid ((fw ++ [.symbol .openBrace]) :: (Node.chunksAll ns ++ [[.symbol .closeBrace]])) (fs ++ bs)
  | _, _, .braces block, fs, _, head => by
      have opened := head.append (together_symbol (s := .openBrace) rfl (by simp)) (by simp [Apart])
      have closed := block.laid.append (together_symbol (s := .closeBrace) rfl (by simp)).laid
        (by simp [Apart])
      have whole := Laid.chunk opened (apart_of_symbol fs .openBrace _) closed
      simpa using whole

theorem Sentences.laid : ∀ {ns ts}, Sentences ns ts → Laid (Node.chunksAll ns) ts
  | _, _, .none => by
      rw [Node.chunksAll]
      exact .none
  | _, _, .semicolon others => .gap rfl others.laid
  | _, _, .spanEnd others => .gap rfl others.laid
  | _, _, .cons first others apart => by
      rw [Node.chunksAll]
      exact first.laid.append others.laid apart

end

theorem Token.isColon_of_separates {token : Token} (separates : token.separates = true) :
    token.isColon = false := by
  cases token with
  | symbol s => cases s <;> first | rfl | cases separates
  | _ => rfl

theorem Laid.isColon_headD (laid : Laid chunks us) {rest : List Token}
    (final : rest.headD .finish = .finish) : ((us ++ rest).headD .finish).isColon = false := by
  cases laid with
  | none => rw [List.nil_append, final]; rfl
  | gap separates others => exact Token.isColon_of_separates separates
  | chunk together apart others =>
      obtain ⟨token, more, rfl, isColon⟩ := together.begins
      exact isColon

theorem essentials_separator {token : Token} (separates : token.separates = true) (previous : Token)
    (calls : List Bool) (rest : List Token) :
    essentials previous calls (token :: rest) = essentials token calls rest ∧ token.isName = false ∧
      token.leadsLoop = false := by
  cases token with
  | symbol s => cases s <;> first | exact ⟨rfl, rfl, rfl⟩ | cases separates
  | spanEnd | finish => exact ⟨rfl, rfl, rfl⟩
  | _ => cases separates

/-- What is laid out as chunks comes to the words of the chunks, up to the end of the source. -/
theorem Laid.essentials_append (laid : Laid chunks ts) {rest : List Token}
    (final : rest.headD .finish = .finish) {previous : Token} (unlooped : previous.leadsLoop = false)
    (apart : Apart previous (ts ++ rest)) (calls : List Bool) :
    essentials previous calls (ts ++ rest) =
      chunks.flatten ++ essentials (ts.getLastD previous) calls rest := by
  induction laid generalizing previous with
  | none => rfl
  | @gap token chunks us separates others ih =>
      obtain ⟨same, unnamed, unlooped⟩ := essentials_separator separates previous calls (us ++ rest)
      rw [List.cons_append, same, ih unlooped (apart_of_not_isName unnamed _), List.getLastD_cons]
  | @chunk ts ws us chunks together border others ih =>
      have closed : Apart (ts.getLastD previous) (us ++ rest) := by
        rw [together.getLastD previous .spanEnd]
        cases us with
        | cons token us => exact border
        | nil =>
            intro _ opens
            rw [List.nil_append] at opens
            rw [List.headD_eq_head?_getD, opens] at final
            cases final
      rw [List.append_assoc] at apart ⊢
      rw [together.comesTo previous calls _ unlooped apart (others.isColon_headD final),
        ih (together.ends previous) closed, getLastD_append, List.flatten_cons, List.append_assoc]

/-- The tokens of a source, cut into the chunks that they come to by themselves. Nothing stands between
two chunks but what separates them, and no chunk goes on behind the end of a span. -/
inductive WithinSpans : List (List Word) → List Token → Prop
  | none : WithinSpans [] []
  | gap (separates : Token.separates token = true) (others : WithinSpans chunks us) :
      WithinSpans chunks (token :: us)
  | chunk (comesTo : essentials .spanEnd [] ts = ws) (within : .spanEnd ∉ ts)
      (others : WithinSpans chunks us) : WithinSpans (ws :: chunks) (ts ++ us)

theorem Laid.withinSpans (laid : Laid chunks ts) : WithinSpans chunks ts := by
  induction laid with
  | none => exact .none
  | gap separates _ ih => exact .gap separates ih
  | @chunk ts ws us chunks together _ _ ih =>
      refine .chunk ?_ together.within ih
      have alone := together.comesTo .spanEnd [] [] rfl (apart_of_not_isName rfl _) rfl
      rwa [List.append_nil, essentials, List.append_nil] at alone

theorem finish_not_mem_lexFrom {position : Nat} {code : List Char} {tokens : List Placed}
    (read : lexFrom position code = .ok tokens) : .finish ∉ tokens.map Placed.token := by
  rw [List.mem_map]
  rintro ⟨placed, member, isFinish⟩
  have code := lexFrom_isCode read placed member
  rw [isFinish] at code
  cases code

theorem Piece.finish_not_mem {piece : Piece} {tokens : List Placed} (read : piece.tokens = .ok tokens) :
    .finish ∉ tokens.map Placed.token := by
  cases piece with
  | text position content =>
      cases read
      simp
  | code position content =>
      obtain ⟨opening, lead, code, lexed, -, opens, found, rfl⟩ := exists_lexed read
      have apart := finish_not_mem_lexFrom found
      obtain ⟨rfl, -⟩ | ⟨rfl, -⟩ := opens <;> simp_all

theorem finish_not_mem_piecesTokens {parts : List Piece} {tokens : List Placed}
    (read : piecesTokens parts = .ok tokens) : .finish ∉ tokens.map Placed.token := by
  induction parts generalizing tokens with
  | nil =>
      cases read
      simp
  | cons piece parts ih =>
      obtain ⟨front, first, read⟩ := bind_eq_ok.mp read
      obtain ⟨behind, others, read⟩ := bind_eq_ok.mp read
      cases read
      rw [List.map_append, List.mem_append, not_or]
      exact ⟨Piece.finish_not_mem first, ih others⟩

/-- The last token of a source is the only one that stands for its end. -/
theorem scan_eq_concat {source : List Char} {tokens : List Placed} (scanned : scan source = .ok tokens) :
    ∃ front, tokens.map Placed.token = front ++ [.finish] ∧ .finish ∉ front := by
  obtain ⟨front, read, same⟩ := bind_eq_ok.mp scanned
  cases same
  exact ⟨front.map Placed.token, by simp, finish_not_mem_piecesTokens read⟩

theorem eq_nil_or_finish {front ts rest : List Token} (same : front ++ [.finish] = ts ++ rest)
    (once : .finish ∉ front) (final : rest.headD .finish = .finish) : rest = [] ∨ rest = [.finish] := by
  cases rest with
  | nil => exact .inl rfl
  | cons token more =>
      rw [List.headD_cons] at final
      subst final
      obtain rfl | ⟨more, last, rfl⟩ := List.eq_nil_or_concat more
      · exact .inr rfl
      · have shorter : front ++ [.finish] = (ts ++ .finish :: more) ++ [last] := by simp [same]
        obtain ⟨rfl, -⟩ := List.append_inj' shorter rfl
        simp at once

/-- The parser drops no token that means something and invents none. Written out in order, the words of
the nodes are those of the tokens of the source, with all deleted that only separates or groups; and each
text, expression, statement head and closing brace comes from tokens that stand together in one span. -/
theorem parse_keeps_tokens {source : List Char} {nodes : List Node} (parsed : parse source = .ok nodes) :
    ∃ tokens, scan source = .ok tokens ∧
      essentials .spanEnd [] (tokens.map Placed.token) = (Node.chunksAll nodes).flatten ∧
      WithinSpans (Node.chunksAll nodes) (tokens.map Placed.token) := by
  obtain ⟨tokens, ts, rest, scanned, same, sentences, final⟩ := exists_sentences_of_parse parsed
  obtain ⟨front, whole, once⟩ := scan_eq_concat scanned
  have ended : rest = [] ∨ rest = [.finish] := eq_nil_or_finish (whole.symm.trans same) once final
  have laid := sentences.laid
  refine ⟨tokens, scanned, ?_, ?_⟩
  · rw [same, laid.essentials_append final rfl (apart_of_not_isName rfl _)]
    obtain rfl | rfl := ended <;> simp [essentials, Token.essence]
  · rw [same]
    obtain rfl | rfl := ended
    · simpa using laid.withinSpans
    · have separates : Token.separates .finish = true := rfl
      have closed := laid.append (.gap separates .none) (by simp [Apart])
      simpa using closed.withinSpans

/-- A source with all that a template can leave out. -/
def looseSource : String :=
  "<? for (let k, v of \x7ba: (x), \"b\": [null,],\x7d) \x7b ; ?>hi<?= (k) ?><? \x7d ?><? f((y)) ?>"

theorem parse_keeps_tokens_sample :
    ∃ nodes, parse looseSource.toList = .ok nodes ∧
      (Node.chunksAll nodes).map List.length = [17, 1, 2, 1, 4] ∧
      ∃ tokens, scan looseSource.toList = .ok tokens ∧
        essentials .spanEnd [] (tokens.map Placed.token) = (Node.chunksAll nodes).flatten ∧
        WithinSpans (Node.chunksAll nodes) (tokens.map Placed.token) := by
  have lengths : (parse looseSource.toList).toOption.map
      (fun nodes => (Node.chunksAll nodes).map List.length) = some [17, 1, 2, 1, 4] := by
    decide +kernel
  cases parsed : parse looseSource.toList with
  | error error => simp [parsed, Except.toOption] at lengths
  | ok nodes =>
      rw [parsed] at lengths
      exact ⟨nodes, rfl, Option.some.inj lengths, parse_keeps_tokens parsed⟩

end StaticSite.Template
