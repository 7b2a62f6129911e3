import StaticSite.Markdown.Document
import StaticSite.Proofs.Markdown.Fences

/-!
The elements of a document. What is read from a text is well nested: every element ends behind all that began in it,
and a code block has nothing but texts in it. So the fenced blocks of a document are closed whatever its text is, and
what is passed on of them is well nested again.
-/

namespace StaticSite.Markdown

/-! ## Well nested events -/

/-- Neither the start nor the end of an element. -/
def Event.IsLeaf : Event → Prop
  | .start _ | .finish _ => False
  | _ => True

/-- Not a code block. -/
def Tag.HoldsElements : Tag → Prop
  | .codeBlock _ => False
  | _ => True

inductive Nested : List Event → Prop
  | nil : Nested []
  | leaf {event : Event} (isLeaf : event.IsLeaf) : Nested [event]
  | append {first second : List Event} : Nested first → Nested second → Nested (first ++ second)
  | element {tag : Tag} {events : List Event} (holds : tag.HoldsElements) :
      Nested events → Nested (element tag events)
  | code (kind : CodeKind) (texts : List String) : Nested (element (.codeBlock kind) (texts.map Event.text))

theorem Nested.text (text : String) : Nested [.text text] := .leaf trivial

theorem Nested.flatMap {α : Type} {events : α → List Event} {as : List α}
    (nested : ∀ a ∈ as, Nested (events a)) : Nested (as.flatMap events) := by
  induction as with
  | nil => exact .nil
  | cons a rest ih =>
      rw [List.flatMap_cons]
      exact .append (nested a List.mem_cons_self) (ih fun b member => nested b (List.mem_cons_of_mem _ member))

theorem FencesClosed.append {first second : List Event} (closed : FencesClosed first)
    (closed' : FencesClosed second) : FencesClosed (first ++ second) := by
  induction first with
  | nil => exact closed'
  | cons event rest ih =>
      refine ⟨fun opens => ?_, ih closed.2⟩
      obtain ⟨close, member, closes⟩ := closed.1 opens
      exact ⟨close, List.mem_append_left _ member, closes⟩

theorem FencesClosed.element {events : List Event} (closed : FencesClosed events) (tag : Tag) :
    FencesClosed (element tag events) := by
  refine ⟨?_, closed.append ?_⟩
  · rintro ⟨language, same⟩
    obtain rfl : tag = .codeBlock (.fenced language) := by simpa using same
    exact ⟨.finish (.codeBlock (.fenced language)), by simp, _, rfl⟩
  · simp [FencesClosed, Event.OpensFence]

theorem fencesClosed_texts (texts : List String) : FencesClosed (texts.map Event.text) := by
  induction texts with
  | nil => trivial
  | cons text rest ih => exact ⟨by simp [Event.OpensFence], ih⟩

/-- Well nested events have closed code blocks. -/
theorem Nested.fencesClosed {events : List Event} (nested : Nested events) : FencesClosed events := by
  induction nested with
  | nil => trivial
  | leaf isLeaf =>
      refine ⟨?_, trivial⟩
      rintro ⟨language, rfl⟩
      exact isLeaf.elim
  | append _ _ first second => exact first.append second
  | element _ _ inner => exact inner.element _
  | code kind texts => exact (fencesClosed_texts texts).element _

/-! ## Marks -/

/-- What comes of each piece is well nested. -/
def AllNested (pieces : List Piece) : Prop := ∀ piece ∈ pieces, Nested piece.toEvents

theorem Piece.nested_run (mark : Char) (count whole : Nat) (opens closes : Bool) :
    Nested (Piece.run mark count whole opens closes).toEvents := .text _

namespace AllNested

variable {piece : Piece} {pieces more : List Piece}

theorem cons (nested : Nested piece.toEvents) (others : AllNested pieces) : AllNested (piece :: pieces) :=
  List.forall_mem_cons.mpr ⟨nested, others⟩

theorem tail (nested : AllNested (piece :: pieces)) : AllNested pieces := (List.forall_mem_cons.mp nested).2

theorem sublist (nested : AllNested pieces) (inside : more.Sublist pieces) : AllNested more :=
  fun piece member => nested piece (inside.subset member)

theorem reverse (nested : AllNested pieces) : AllNested pieces.reverse :=
  fun piece member => nested piece (List.mem_reverse.mp member)

theorem append (nested : AllNested pieces) (others : AllNested more) : AllNested (pieces ++ more) :=
  List.forall_mem_append.mpr ⟨nested, others⟩

theorem deactivate (nested : AllNested pieces) : AllNested (pieces.map Piece.deactivate) := by
  intro piece member
  obtain ⟨old, inside, rfl⟩ := List.mem_map.mp member
  unfold Piece.deactivate
  split
  · exact .text _
  · exact nested old inside

theorem flatMap (nested : AllNested pieces) : Nested (pieces.flatMap Piece.toEvents) := Nested.flatMap nested

end AllNested

theorem elementOf_holdsElements (mark : Char) (count : Nat) : (elementOf mark count).HoldsElements := by
  unfold elementOf
  split_ifs <;> trivial

theorem allNested_remaining (mark : Char) (count whole : Nat) (opens closes : Bool) {pieces : List Piece}
    (nested : AllNested pieces) : AllNested (remaining mark count whole opens closes ++ pieces) := by
  unfold remaining
  split_ifs
  · exact nested
  · exact nested.cons (Piece.nested_run ..)

/-- A run with its partner, and what stands between them, makes an element. -/
theorem AllNested.pair {done below : List Piece} {between : Piece → Bool} {opening : Piece} {tag : Tag}
    (nested : AllNested done) (found : done.dropWhile between = opening :: below) (holds : tag.HoldsElements)
    (mark : Char) (count whole : Nat) (opens closes : Bool) :
    AllNested (.settled (element tag ((done.takeWhile between).reverse.flatMap Piece.toEvents)) ::
      (remaining mark count whole opens closes ++ below)) := by
  have inner : AllNested (done.takeWhile between) := nested.sublist (List.takeWhile_sublist _)
  have outer : AllNested (opening :: below) := found ▸ nested.sublist (List.dropWhile_sublist _)
  exact .cons (.element holds inner.reverse.flatMap) (allNested_remaining _ _ _ _ _ outer.tail)

theorem nested_pairRuns {done todo : List Piece} (before : AllNested done) (behind : AllNested todo) :
    Nested (pairRuns done todo) := by
  fun_induction pairRuns done todo with
  | case1 done => exact before.reverse.flatMap
  | case2 done mark count whole opens closes rest inner mark' count' whole' opens' closes' below found used tag
      element done' all ih =>
      exact ih (before.pair found (elementOf_holdsElements _ _) _ _ _ _ _) behind.tail
  | case3 done mark count whole opens closes rest inner mark' count' whole' opens' closes' below found used tag
      element done' some ih =>
      exact ih (before.pair found (elementOf_holdsElements _ _) _ _ _ _ _) (behind.tail.cons (Piece.nested_run ..))
  | case4 done mark count whole opens closes rest alone ih => exact ih (before.cons (Piece.nested_run ..)) behind.tail
  | case5 done piece rest other ih => exact ih (before.cons (behind piece List.mem_cons_self)) behind.tail

theorem AllNested.curlQuotes {pieces : List Piece} (nested : AllNested pieces) (single double : Bool) :
    AllNested (curlQuotes single double pieces) := by
  fun_induction Markdown.curlQuotes single double pieces with
  | case1 => exact nested
  | case2 _ _ _ _ _ _ _ _ ih | case3 _ _ _ _ _ _ _ ih | case4 _ _ _ _ _ _ _ _ _ ih | case5 _ _ _ _ _ _ _ _ ih
  | case6 _ _ _ _ _ _ _ _ ih => exact .cons (.text _) (ih nested.tail)
  | case7 _ _ piece rest other ih => exact .cons (nested piece List.mem_cons_self) (ih nested.tail)

theorem AllNested.resolve {pieces : List Piece} (nested : AllNested pieces) : Nested (resolve pieces) :=
  nested_pairRuns (fun _ member => nomatch member) (nested.curlQuotes false false)

/-! ## Texts -/

namespace InlineState

variable {state : InlineState} {definitions : Definitions}

/-- What has been read so far is well nested, but for the brackets and marks that wait. -/
def Settled (state : InlineState) : Prop := AllNested state.pieces

namespace Settled

variable (settled : state.Settled) (rest : List Char)

include settled

theorem pushBracket (image active : Bool) (behind : List Char) :
    (state.push (.bracket image active behind) rest).Settled := AllNested.cons (.text _) settled

theorem pushEvents {events : List Event} (nested : Nested events) : (state.pushEvents events rest).Settled :=
  AllNested.cons nested settled

theorem pushLeaf {event : Event} (isLeaf : event.IsLeaf) : (state.pushEvents [event] rest).Settled :=
  settled.pushEvents rest (.leaf isLeaf)

theorem pushText (text : List Char) : (state.pushText text rest).Settled := settled.pushLeaf rest trivial

theorem pushLink (destination title text : String) :
    let tag : Tag := .link destination title
    (state.pushEvents [.start tag, .text text, .finish tag] rest).Settled := by
  have holds : (Tag.link destination title).HoldsElements := trivial
  exact settled.pushEvents rest (.element holds (.text text))

theorem readRun (mark : Char) (count : Nat) : (readRun state mark count rest).Settled := by
  unfold Markdown.readRun
  split_ifs
  · exact settled.pushText _ _
  · exact AllNested.cons (Piece.nested_run ..) settled

theorem readBracket : (readBracket state rest).Settled := by
  unfold Markdown.readBracket
  split
  · split
    · split_ifs
      · exact settled.pushBracket _ _ _ _
      · exact settled.pushLeaf _ trivial
    · exact settled.pushBracket _ _ _ _
  · split
    · exact settled.pushLink _ _ _ _
    · exact settled.pushBracket _ _ _ _
  · exact settled.pushBracket _ _ _ _

theorem readMath : (readMath state rest).Settled := by
  unfold Markdown.readMath
  dsimp only
  split
  · split_ifs
    · exact settled.pushText _ _
    · exact settled.pushLeaf _ trivial
    · exact settled.pushLeaf _ trivial
  · exact settled.pushText _ _

theorem readAngle : (readAngle state rest).Settled := by
  unfold Markdown.readAngle
  split
  · exact settled.pushLink _ _ _ _
  · split
    · exact settled.pushLeaf _ trivial
    · exact settled.pushText _ _

theorem readSpaces (spaces : List Char) : (readSpaces state spaces rest).Settled := by
  unfold Markdown.readSpaces
  split
  · exact settled.pushEvents _ .nil
  · split_ifs
    · exact settled.pushLeaf _ trivial
    · exact settled.pushLeaf _ trivial
  · exact settled.pushText _ _

/-- A link or an image is made of the pieces from its opening bracket on. -/
theorem closeBracket (definitions : Definitions) : (closeBracket definitions state rest).Settled := by
  have inner : AllNested (state.pieces.takeWhile fun piece => !piece.isBracket) :=
    settled.sublist (List.takeWhile_sublist _)
  unfold Markdown.closeBracket
  dsimp only
  split
  next image active behind below found =>
    have outer : AllNested (.bracket image active behind :: below) :=
      found ▸ settled.sublist (List.dropWhile_sublist _)
    split
    · exact AllNested.cons (.text _) (inner.append (outer.tail.cons (.text _)))
    next target more isTarget =>
      refine AllNested.cons (.element ?_ inner.reverse.resolve) ?_
      · split_ifs <;> trivial
      · split_ifs
        · exact outer.tail
        · exact outer.tail.deactivate
  · exact settled.pushText _ _

theorem readPart (definitions : Definitions) (c : Char) : (readPart definitions state c rest).Settled := by
  unfold Markdown.readPart
  dsimp only
  -- by the character that a part begins with, in the order in which they are read
  split
  · split
    · exact settled.pushLeaf _ trivial
    · split_ifs <;> exact settled.pushText _ _
    · exact settled.pushText _ _
  · split
    · exact settled.pushLeaf _ trivial
    · exact settled.pushText _ _
  · exact settled.readAngle _
  · split <;> exact settled.pushText _ _
  · exact AllNested.cons (.text _) settled
  · exact AllNested.cons (.text _) settled
  · exact settled.pushText _ _
  · split <;> exact settled.pushText _ _
  · split
    · exact settled.pushBracket _ _ _ _
    · exact settled.pushText _ _
  · exact settled.readBracket _
  · exact settled.closeBracket _ _
  · exact settled.readMath _
  · exact settled.pushLeaf _ trivial
  · exact settled.readSpaces _ _
  · exact settled.readRun _ _ _
  · exact settled.readRun _ _ _
  · exact settled.readRun _ _ _
  · exact settled.readRun _ _ _
  · exact settled.pushText _ _

end Settled

end InlineState

theorem allNested_readParts (definitions : Definitions) {state : InlineState} (settled : state.Settled) (fuel : Nat) :
    AllNested (readParts definitions fuel state) := by
  induction fuel generalizing state with
  | zero => exact settled
  | succ fuel ih =>
      rw [readParts]
      split
      · exact settled
      · exact ih (settled.readPart _ _ _)

theorem nested_inlineEvents (definitions : Definitions) (text : List Char) :
    Nested (inlineEvents definitions text) := by
  have start : (InlineState.mk [] none text).Settled := fun _ member => nomatch member
  exact (allNested_readParts definitions start _).reverse.resolve

/-! ## Blocks -/

section Blocks

variable (definitions : Definitions)

theorem nested_cellEvents (cells : List (List Char)) : Nested (cellEvents definitions cells) :=
  .flatMap fun cell _ => .element trivial (nested_inlineEvents definitions cell)

theorem nested_taskMarkers (task? : Option Bool) : Nested (task?.toList.map Event.taskMarker) := by
  cases task? with
  | none => exact .nil
  | some checked => exact .leaf trivial

mutual

theorem Block.nested_events (tight : Bool) : (block : Block) → Nested (block.events definitions tight)
  | .paragraph task? text => by
      have content := (nested_taskMarkers task?).append (nested_inlineEvents definitions text)
      simp only [Block.events]
      split_ifs
      · exact content
      · exact .element trivial content
  | .heading level name text => by
      rw [Block.events]
      exact .element trivial (nested_inlineEvents definitions text)
  | .rule => by
      rw [Block.events]
      exact .leaf trivial
  | .code kind lines => by
      have texts := Nested.code kind (lines.map String.ofList)
      rw [List.map_map] at texts
      rw [Block.events]
      exact texts
  | .html text => by
      rw [Block.events]
      exact .leaf trivial
  | .quote alert? children => by
      rw [Block.events]
      exact .element trivial (Block.nested_eventsOfAll false children)
  | .list start? tight items => by
      rw [Block.events]
      exact .element trivial (Block.nested_eventsOfItems tight items)
  | .table alignments head rows => by
      rw [Block.events]
      refine .element trivial (.append (.element trivial (nested_cellEvents definitions head)) ?_)
      exact .flatMap fun row _ => .element trivial (nested_cellEvents definitions row)
  | .footnote label children => by
      rw [Block.events]
      exact .element trivial (Block.nested_eventsOfAll false children)
  | .metadata => by
      rw [Block.events]
      exact .nil
  | .definitions _ => by
      rw [Block.events]
      exact .nil
  | .glossary tight entries => by
      rw [Block.events]
      exact .element trivial (Block.nested_eventsOfAll tight entries)
  | .term text => by
      rw [Block.events]
      exact .element trivial (nested_inlineEvents definitions text)
  | .meaning children => by
      rw [Block.events]
      exact .element trivial (Block.nested_eventsOfAll tight children)

theorem Block.nested_eventsOfAll (tight : Bool) :
    (blocks : List Block) → Nested (Block.eventsOfAll definitions tight blocks)
  | [] => by
      rw [Block.eventsOfAll]
      exact .nil
  | block :: rest => by
      rw [Block.eventsOfAll]
      exact (Block.nested_events tight block).append (Block.nested_eventsOfAll tight rest)

theorem Block.nested_eventsOfItems (tight : Bool) :
    (items : List (List Block)) → Nested (Block.eventsOfItems definitions tight items)
  | [] => by
      rw [Block.eventsOfItems]
      exact .nil
  | item :: rest => by
      rw [Block.eventsOfItems]
      exact .append (.element trivial (Block.nested_eventsOfAll tight item)) (Block.nested_eventsOfItems tight rest)

end

end Blocks

/-! ## Documents -/

section Rendering

variable {highlighter : Highlighter} {theme : String}

/-- Every document is well nested. -/
theorem nested_eventsOf (source : String) : Nested (eventsOf source) := Block.nested_eventsOfAll _ false _

theorem fencesClosed_eventsOf (source : String) : FencesClosed (eventsOf source) :=
  (nested_eventsOf source).fencesClosed

theorem renderCode_of_not_opensFence {events : List Event} (plain : ∀ event ∈ events, ¬ event.OpensFence) :
    renderCode highlighter theme events = events := by
  rw [renderCode]
  induction events with
  | nil => rfl
  | cons event rest ih =>
      obtain ⟨here, others⟩ := List.forall_mem_cons.mp plain
      rw [renderCodeFrom, ih others]
      exact fun language same => here ⟨language, same⟩

theorem renderCode_element {tag : Tag} (holds : tag.HoldsElements) {events : List Event}
    (closed : FencesClosed events) :
    renderCode highlighter theme (element tag events) = element tag (renderCode highlighter theme events) := by
  rw [element, renderCode, renderCodeFrom]
  · exact congrArg _ (closed.renderCode_append [.finish tag])
  · rintro language same
    cases same
    exact holds.elim

theorem renderCode_fenced (language : String) (texts : List String) :
    renderCode highlighter theme (element (.codeBlock (.fenced language)) (texts.map Event.text)) =
      [.html (codeHtml highlighter theme language (codeOf (texts.map Event.text)))] := by
  have proper : (Item.fenced language (texts.map Event.text) (.fenced language)).Proper := by
    simp [Item.Proper, Event.ClosesCode]
  rw [renderCode, ← List.append_nil (element _ _)]
  exact renderCodeFrom_item proper []

/-- Well nested events stay well nested when code is rendered. -/
theorem Nested.renderCode {events : List Event} (nested : Nested events) :
    Nested (renderCode highlighter theme events) := by
  induction nested with
  | nil => exact .nil
  | leaf isLeaf =>
      rw [renderCode_of_not_opensFence]
      · exact .leaf isLeaf
      · rintro event member ⟨language, rfl⟩
        obtain rfl := List.mem_singleton.mp member
        exact isLeaf.elim
  | append first _ ih ih' =>
      rw [first.fencesClosed.renderCode_append]
      exact ih.append ih'
  | element holds inner ih =>
      rw [renderCode_element holds inner.fencesClosed]
      exact .element holds ih
  | code kind texts =>
      cases kind with
      | indented =>
          rw [renderCode_of_not_opensFence]
          · exact .code .indented texts
          · simp +contextual [Markdown.element, Event.OpensFence, or_imp]
      | fenced language =>
          rw [renderCode_fenced]
          exact .leaf trivial

/-- The events that become the HTML of a document. They are well nested, and no fenced block is left among them. -/
theorem nested_renderCode_eventsOf (source : String) :
    Nested (renderCode highlighter theme (eventsOf source)) ∧
      ∀ event ∈ renderCode highlighter theme (eventsOf source), ¬ event.OpensFence :=
  ⟨(nested_eventsOf source).renderCode, (fencesClosed_eventsOf source).not_opensFence⟩

end Rendering

end StaticSite.Markdown
