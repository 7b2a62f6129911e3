import StaticSite.Proofs.Site.Effects
import StaticSite.Proofs.Template.Cut

/-!
Bodies without code. A body that lacks one of the two marks of code is used as it is; as a template it
would be one piece of text, so evaluating it would give the same bytes.
-/

namespace StaticSite

namespace Template

variable {source : List Char}

/-- A text that lacks one of the marks has no marker. -/
theorem leftmost_of_codeless (lacks : ¬ ['<', '?'] <:+: source ∨ ¬ ['?', '>'] <:+: source) :
    (Cut.plain source).Leftmost := by
  rintro before behind rfl closes
  rcases lacks with unopened | unclosed
  · exact unopened ⟨before, behind, by simp⟩
  · exact unclosed (closes.trans ⟨before ++ ['<', '?'], [], by simp⟩)

/-- The template that a text is by itself. -/
def textNodes (text : String) : List Node := if text.isEmpty then [] else [.text text]

theorem parse_of_leftmost (leftmost : (Cut.plain source).Leftmost) :
    parse source = .ok (textNodes (String.ofList source)) := by
  have cut : pieces source = textPiece 0 source := pieces_source leftmost
  cases source with
  | nil =>
      rw [parse, scan, cut]
      rfl
  | cons c rest =>
      have filled : (String.ofList (c :: rest)).isEmpty = false := by
        rw [← Bool.not_eq_true, String.isEmpty_iff, ← String.toList_inj, String.toList_ofList]
        simp
      rw [parse, scan, cut, textNodes, filled]
      simp only [textPiece, List.isEmpty_cons, Bool.false_eq_true, if_false, piecesTokens, Piece.tokens, bind,
        Except.bind, List.nil_append, List.cons_append, enoughDepth, List.length_cons, List.length_nil]
      simp only [parseBlock, parseStatement, Cursor.peek, Cursor.start, Cursor.advance, bind, Except.bind,
        List.tail_cons]

theorem textOf_textNodes {template : Compiled} {text : String} (nodes : template.nodes = textNodes text)
    (fs : FileSystem) (shared : Shared) (depth : Nat) (contextAlive : Bool) (properties : Properties)
    (cache : Cache) :
    textOf (evalCompiled fs shared depth contextAlive template properties) cache = (.ok text, cache) := by
  unfold textOf evalCompiled Frame.run
  rw [nodes, textNodes]
  cases empty : text.isEmpty with
  | true =>
      rw [String.isEmpty_iff] at empty
      rw [empty]
      rfl
  | false =>
      have whole : String.join [text] = text := by simp [String.join]
      change (Except.ok (String.join [text]), cache) = _
      rw [whole]

/-- A text that lacks one of the marks evaluates to itself. -/
theorem exists_compile_of_codeless {text : String}
    (lacks : ¬ ['<', '?'] <:+: text.toList ∨ ¬ ['?', '>'] <:+: text.toList) (filename : String) :
    ∃ template, compile text filename = .ok template ∧
      ∀ fs shared depth contextAlive properties cache,
        textOf (evalCompiled fs shared depth contextAlive template properties) cache = (.ok text, cache) := by
  have parsed := parse_of_leftmost (leftmost_of_codeless lacks)
  rw [String.ofList_toList] at parsed
  unfold compile
  rw [parsed]
  exact ⟨_, rfl, textOf_textNodes rfl⟩

end Template

namespace Site

/-- The search for two bytes finds them where they stand next to each other. -/
theorem hasPair_iff {first second : UInt8} {body : Bytes} :
    hasPair first second body = true ↔ [first, second] <:+: body := by
  induction body with
  | nil => simp [hasPair]
  | cons a rest ih =>
      cases rest with
      | nil => simp [hasPair, List.infix_cons_iff]
      | cons b rest =>
          have begins : (a == first && b == second) = true ↔ [first, second] <+: a :: b :: rest := by
            rw [Bool.and_eq_true, beq_iff_eq, beq_iff_eq, List.cons_prefix_cons, List.cons_prefix_cons]
            simp [eq_comm]
          rw [hasPair, Bool.or_eq_true, ih, begins, ← List.infix_cons_iff]

theorem mayHoldCode_eq_false {body : Bytes} :
    mayHoldCode body = false ↔ ¬ [0x3C, 0x3F] <:+: body ∨ ¬ [0x3F, 0x3E] <:+: body := by
  rw [mayHoldCode, Bool.and_eq_false_iff, ← hasPair_iff, ← hasPair_iff, Bool.not_eq_true, Bool.not_eq_true]

/-- Two characters of ASCII stand next to each other in the bytes of a text in which they do. -/
theorem infix_encode {text : String} {first second : Char} {a b : UInt8}
    (one : String.utf8EncodeChar first = [a]) (two : String.utf8EncodeChar second = [b])
    (pair : [first, second] <:+: text.toList) : [a, b] <:+: Text.Utf8.encode text := by
  obtain ⟨before, behind, split⟩ := pair
  refine ⟨before.flatMap String.utf8EncodeChar, behind.flatMap String.utf8EncodeChar, ?_⟩
  rw [Text.Utf8.encode, ← split]
  simp [one, two]

/-- Compiling a body and evaluating it. -/
theorem evalBody_of_compile {site : Site} {page : Page} {body : Bytes} {template : Template.Compiled}
    (compiled : Template.compile (Text.Utf8.decodeLossy body) page.sourceFile.text = .ok template)
    (bindings : Json.Fields) :
    site.evalBody page bindings body = evaluated fun fs =>
      Template.evalCompiled fs site.shared site.includeDepth true template { bindings } := by
  unfold evalBody
  rw [compiled]
  rfl

/-- A body without one of the marks is what it evaluates to, so that a build need not compile it. -/
theorem codeless_body_evaluates_to_itself (site : Site) (page : Page) (bindings : Json.Fields)
    (work : Workspace) {body : Bytes} {source : String} (valid : Text.Utf8.decode? body = some source)
    (lacks : ¬ [0x3C, 0x3F] <:+: body ∨ ¬ [0x3F, 0x3E] <:+: body) :
    (∀ filename, ∃ template, Template.compile source filename = .ok template ∧
      ∀ fs shared depth contextAlive properties cache,
        Template.textOf (Template.evalCompiled fs shared depth contextAlive template properties) cache =
          (.ok source, cache)) ∧
    Text.Utf8.encode source = body ∧
    site.evalBody page bindings body work = (.ok body, work) ∧
    (page.format = .markup → site.pageContent page bindings body work = (.ok body, work)) := by
  have encoded := Text.Utf8.encode_of_decode? valid
  have textLacks : ¬ ['<', '?'] <:+: source.toList ∨ ¬ ['?', '>'] <:+: source.toList := by
    rw [← encoded] at lacks
    exact lacks.imp (mt (infix_encode rfl rfl)) (mt (infix_encode rfl rfl))
  have compiles := Template.exists_compile_of_codeless textLacks
  refine ⟨compiles, encoded, ?_, fun markup => ?_⟩
  · obtain ⟨template, compiled, evaluates⟩ := compiles page.sourceFile.text
    rw [← Text.Utf8.decodeLossy_of_decode? valid] at compiled
    rw [evalBody_of_compile compiled, evaluated_apply, evaluates]
    dsimp only
    rw [encoded]
  · rw [pageContent, markup]
    dsimp only
    rw [mayHoldCode_eq_false.mpr lacks]
    rfl

/-- A body that closes a marker which it never opens. -/
theorem codeless_body_evaluates_to_itself_closing :
    let text := "<p>é?> \n"
    let body := Text.Utf8.encode text
    let work : Workspace := { fs := sampleFiles "" }
    Text.Utf8.decode? body = some text ∧ ¬ [0x3C, 0x3F] <:+: body ∧
      sampleSite.evalBody samplePage [] body work = (.ok body, work) := by
  intro text body work
  have valid : Text.Utf8.decode? body = some text := Text.Utf8.decode?_encode text
  have lacks : ¬ [0x3C, 0x3F] <:+: body := by decide
  exact ⟨valid, lacks,
    (codeless_body_evaluates_to_itself sampleSite samplePage [] work valid (.inl lacks)).2.2.1⟩

end Site

end StaticSite
