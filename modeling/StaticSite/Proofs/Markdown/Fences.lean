import StaticSite.Markdown.CodeBlock
import StaticSite.Proofs.Text.Markup

/-!
Fenced code blocks among the events of a document. Rendering code is a machine with one register; what it does to
events in which every fenced block ends is said item by item: an event that is in no fenced block stays as it is,
and a block becomes one event. The code of a block that is not coloured can be read back from its HTML.
-/

namespace StaticSite.Markdown

variable {highlighter : Highlighter} {theme : String}

/-! ## Items -/

/-- The start of a fenced block. -/
def Event.OpensFence (event : Event) : Prop := ∃ language, event = .start (.codeBlock (.fenced language))

/-- The end of a code block, which does not tell what kind of block it ends. -/
def Event.ClosesCode (event : Event) : Prop := ∃ kind, event = .finish (.codeBlock kind)

/-- An event that is in no fenced block, or a fenced block with what is between its start and its end. -/
inductive Item
  | outside (event : Event)
  | fenced (language : String) (body : List Event) (kind : CodeKind)

namespace Item

def events : Item → List Event
  | .outside event => [event]
  | .fenced language body kind =>
      .start (.codeBlock (.fenced language)) :: (body ++ [.finish (.codeBlock kind)])

/-- A fenced block begins only as a block, and it ends at the next end of a code block. -/
def Proper : Item → Prop
  | .outside event => ¬ event.OpensFence
  | .fenced _ body _ => ∀ event ∈ body, ¬ event.ClosesCode

end Item

/-- The texts among events, one after the other. -/
def codeOf : List Event → String
  | [] => ""
  | .text text :: rest => text ++ codeOf rest
  | _ :: rest => codeOf rest

/-- What is passed on of an item. -/
def Item.rendered (highlighter : Highlighter) (theme : String) : Item → Event
  | .outside event => event
  | .fenced language body _ => .html (codeHtml highlighter theme language (codeOf body))

/-- Within a block, texts are gathered and everything else is left out. -/
theorem renderCodeFrom_body {body : List Event} (inside : ∀ event ∈ body, ¬ event.ClosesCode)
    (language code : String) (rest : List Event) :
    renderCodeFrom highlighter theme (some (language, code)) (body ++ rest) =
      renderCodeFrom highlighter theme (some (language, code ++ codeOf body)) rest := by
  induction body generalizing code with
  | nil => rw [codeOf, String.append_empty]; rfl
  | cons event body ih =>
      have others := ih fun event member => inside event (List.mem_cons_of_mem _ member)
      have goesOn := inside event List.mem_cons_self
      rw [List.cons_append]
      by_cases text : ∃ text, event = .text text
      · obtain ⟨text, rfl⟩ := text
        rw [renderCodeFrom, others, codeOf, String.append_assoc]
      · rw [renderCodeFrom, others, codeOf]
        · exact fun other same => text ⟨other, same⟩
        · exact fun _ _ other same _ => text ⟨other, same⟩
        · exact fun _ _ kind same _ => goesOn ⟨kind, same⟩

theorem renderCodeFrom_item {item : Item} (proper : item.Proper) (rest : List Event) :
    renderCodeFrom highlighter theme none (item.events ++ rest) =
      item.rendered highlighter theme :: renderCodeFrom highlighter theme none rest := by
  cases item with
  | outside event =>
      rw [Item.events, List.singleton_append, renderCodeFrom]
      · rfl
      · exact fun language same => proper ⟨language, same⟩
  | fenced language body kind =>
      rw [Item.events, List.cons_append, renderCodeFrom, List.append_assoc, renderCodeFrom_body proper,
        List.singleton_append, renderCodeFrom, String.empty_append]
      rfl

/-- Items are rendered one by one. -/
theorem renderCodeFrom_items {items : List Item} (proper : ∀ item ∈ items, item.Proper) (rest : List Event) :
    renderCodeFrom highlighter theme none (items.flatMap Item.events ++ rest) =
      items.map (Item.rendered highlighter theme) ++ renderCodeFrom highlighter theme none rest := by
  induction items with
  | nil => rfl
  | cons item others ih =>
      rw [List.flatMap_cons, List.append_assoc, renderCodeFrom_item (proper item List.mem_cons_self),
        ih fun item member => proper item (List.mem_cons_of_mem _ member), List.map_cons, List.cons_append]

theorem renderCode_items {items : List Item} (proper : ∀ item ∈ items, item.Proper) :
    renderCode highlighter theme (items.flatMap Item.events) = items.map (Item.rendered highlighter theme) := by
  rw [renderCode, ← List.append_nil (items.flatMap Item.events), renderCodeFrom_items proper, renderCodeFrom,
    List.append_nil]

/-! ## Closed blocks -/

/-- Behind the start of every fenced block there is an end of a code block. -/
def FencesClosed : List Event → Prop
  | [] => True
  | event :: rest => (event.OpensFence → ∃ close ∈ rest, close.ClosesCode) ∧ FencesClosed rest

theorem FencesClosed.suffix {first second : List Event} (closed : FencesClosed (first ++ second)) :
    FencesClosed second := by
  induction first with
  | nil => exact closed
  | cons event rest ih => exact ih closed.2

theorem exists_first_close {events : List Event} (closes : ∃ close ∈ events, close.ClosesCode) :
    ∃ body kind rest, events = body ++ .finish (.codeBlock kind) :: rest ∧
      ∀ event ∈ body, ¬ event.ClosesCode := by
  induction events with
  | nil => simp at closes
  | cons event events ih =>
      by_cases here : event.ClosesCode
      · obtain ⟨kind, rfl⟩ := here
        exact ⟨[], kind, events, rfl, by simp⟩
      · obtain ⟨close, member, there⟩ := closes
        have behind : close ∈ events := by
          rcases List.mem_cons.mp member with rfl | behind
          · exact absurd there here
          · exact behind
        obtain ⟨body, kind, rest, rfl, inside⟩ := ih ⟨close, behind, there⟩
        exact ⟨event :: body, kind, rest, rfl, by simpa using ⟨here, inside⟩⟩

/-- Events in which every fenced block ends are items. -/
theorem FencesClosed.exists_items {events : List Event} (closed : FencesClosed events) :
    ∃ items : List Item, (∀ item ∈ items, item.Proper) ∧ items.flatMap Item.events = events := by
  obtain ⟨n, bound⟩ : ∃ n, events.length ≤ n := ⟨_, Nat.le_refl _⟩
  induction n generalizing events with
  | zero => exact ⟨[], by simp, by simpa using bound⟩
  | succ n ih =>
      cases events with
      | nil => exact ⟨[], by simp, rfl⟩
      | cons event rest =>
          rw [List.length_cons] at bound
          by_cases opens : event.OpensFence
          · obtain ⟨body, kind, after, rfl, inside⟩ := exists_first_close (closed.1 opens)
            obtain ⟨language, rfl⟩ := opens
            have closed' : FencesClosed after := by
              have whole := closed.2
              rw [← List.singleton_append, ← List.append_assoc] at whole
              exact whole.suffix
            obtain ⟨items, proper, same⟩ := ih closed' (by simp at bound; omega)
            refine ⟨.fenced language body kind :: items, by simpa using ⟨inside, proper⟩, ?_⟩
            rw [List.flatMap_cons, same]
            simp [Item.events]
          · obtain ⟨items, proper, same⟩ := ih closed.2 (by omega)
            refine ⟨.outside event :: items, by simpa using ⟨opens, proper⟩, ?_⟩
            rw [List.flatMap_cons, same]
            rfl

/-- What stands behind closed blocks is rendered by itself. -/
theorem FencesClosed.renderCode_append {first : List Event} (closed : FencesClosed first) (rest : List Event) :
    renderCode highlighter theme (first ++ rest) =
      renderCode highlighter theme first ++ renderCode highlighter theme rest := by
  obtain ⟨items, proper, rfl⟩ := closed.exists_items
  rw [renderCode_items proper]
  exact renderCodeFrom_items proper rest

theorem Item.Proper.not_opensFence {item : Item} (proper : item.Proper) :
    ¬ (item.rendered highlighter theme).OpensFence := by
  cases item with
  | outside event => exact proper
  | fenced language body kind => simp [Item.rendered, Event.OpensFence]

/-- No fenced block is left. -/
theorem FencesClosed.not_opensFence {events : List Event} (closed : FencesClosed events) :
    ∀ event ∈ renderCode highlighter theme events, ¬ event.OpensFence := by
  obtain ⟨items, proper, rfl⟩ := closed.exists_items
  rw [renderCode_items proper]
  intro event member
  obtain ⟨item, inside, rfl⟩ := List.mem_map.mp member
  exact (proper item inside).not_opensFence

/-! ## Code without colours -/

theorem codeHtml_unknown {language : String}
    (unknown : highlighter.language? language = none ∨ highlighter.theme? theme = none) (code : String) :
    codeHtml highlighter theme language code = "<pre><code>" ++ Text.escapeCode code ++ "</code></pre>" := by
  unfold codeHtml
  split
  next known known' =>
    obtain unknown | unknown := unknown
    · rw [unknown] at known
      cases known
    · rw [unknown] at known'
      cases known'
  · rfl

/-- Only fenced blocks are rewritten. Events in which every fenced block ends are items in one order, and what is passed
on is one event for each item: the event itself, or the code of the block as HTML. Code in an unknown language or an
unknown theme is escaped, and can be read back. -/
theorem renderCode_rewrites_fences (highlighter : Highlighter) (theme : String) {events : List Event}
    (closed : FencesClosed events) :
    (∃ items : List Item, (∀ item ∈ items, item.Proper) ∧ items.flatMap Item.events = events) ∧
      (∀ items : List Item, (∀ item ∈ items, item.Proper) → items.flatMap Item.events = events →
        renderCode highlighter theme events = items.map (Item.rendered highlighter theme)) ∧
      ∀ language code, highlighter.language? language = none ∨ highlighter.theme? theme = none →
        codeHtml highlighter theme language code = "<pre><code>" ++ Text.escapeCode code ++ "</code></pre>" ∧
          Text.unescapeCode (Text.escapeCode code) = code := by
  refine ⟨closed.exists_items, ?_, ?_⟩
  · rintro items proper rfl
    exact renderCode_items proper
  · intro language code unknown
    exact ⟨codeHtml_unknown unknown code, Text.unescapeCode_escapeCode code⟩

/-- An indented block, a rule, and a fenced block in two texts whose language nobody knows. -/
theorem renderCode_rewrites_fences_sample :
    let indented := [.start (.codeBlock .indented), .text "x < y\n", .finish (.codeBlock .indented)]
    let events := indented ++
      [.rule, .start (.codeBlock (.fenced "nosuchlang")), .text "<a>", .text " & b\n",
        .finish (.codeBlock (.fenced "nosuchlang")), .softBreak]
    FencesClosed events ∧
      renderCode .plainText "base16-ocean.dark" events =
        indented ++ [.rule, .html "<pre><code>&lt;a&gt; &amp; b\n</code></pre>", .softBreak] := by
  intro indented events
  have closed : FencesClosed events := by
    simp [events, indented, FencesClosed, Event.OpensFence, Event.ClosesCode]
  obtain ⟨-, rewrites, decodes⟩ := renderCode_rewrites_fences .plainText "base16-ocean.dark" closed
  refine ⟨closed, ?_⟩
  let items := indented.map Item.outside ++
    [.outside .rule, .fenced "nosuchlang" [.text "<a>", .text " & b\n"] (.fenced "nosuchlang"), .outside .softBreak]
  rw [rewrites items (by simp [items, indented, Item.Proper, Event.OpensFence, Event.ClosesCode]) rfl]
  have html := (decodes "nosuchlang" "<a> & b\n" (.inl (by decide +kernel))).1
  simp only [items, indented, List.map_append, List.map_cons, List.map_nil, Item.rendered]
  have code : codeOf [.text "<a>", .text " & b\n"] = "<a> & b\n" := by decide +kernel
  rw [code, html]
  decide +kernel

end StaticSite.Markdown
