import StaticSite.Path.Resolve
import StaticSite.Proofs.Path.Relative

/-!
Resolved paths. A path is resolved component by component, and what is resolved at any time is in normal form:
names behind the root, or names behind a leading run of `..`. A path in normal form can be read back from its
text, so the laws of resolving paths that are joined are laws of folding.
-/

namespace StaticSite.Path

open Location (Plain)

variable {p q base rel : Path} {components : List Component} {component : Component} {rooted : Bool}

/-! ## Normal form -/

/-- Components in normal form, of an absolute path or of a relative one. There is no `.`, and `..` stands only in
front of a relative path. -/
inductive Resolved : Bool → List Component → Prop
  | absolute {names : List String} (plain : Plain names) : Resolved true (.root :: names.map .name)
  | relative (ups : Nat) {names : List String} (plain : Plain names) :
    Resolved false (List.replicate ups .parent ++ names.map .name)

theorem resolved_start : ∀ rooted : Bool, Resolved rooted (if rooted then [.root] else [])
  | true => @Resolved.absolute [] (by simp [Plain])
  | false => @Resolved.relative 0 [] (by simp [Plain])

/-- A component that stands for itself wherever it is in a path. -/
def Component.IsStep (component : Component) : Prop :=
  component = .parent ∨ ∃ name, Proper name ∧ component = .name name

theorem isStep_of_mem_steps {text : List Char} (member : component ∈ steps (pieces text)) : component.IsStep := by
  obtain ⟨part, kept, rfl⟩ := List.mem_map.mp member
  obtain ⟨piece, filled⟩ := List.mem_filter.mp kept
  split
  case isTrue => exact .inl rfl
  case isFalse other =>
    refine .inr ⟨_, ⟨?_, ?_, ?_, ?_⟩, rfl⟩
    · rintro empty
      simp [← String.toList_inj] at empty
      simp [empty] at filled
    · rintro dot
      simp [← String.toList_inj] at dot
      simp [dot] at filled
    · rintro below
      simp [← String.toList_inj] at below
      exact other below
    · rw [String.toList_ofList]
      exact slash_not_mem_pieces text part piece

theorem resolveStep_name_parent (front : List Component) (name : String) :
    resolveStep (front ++ [.name name]) .parent = front := by
  rw [resolveStep, List.getLast?_concat]
  exact List.dropLast_concat

theorem resolveStep_parents_parent (ups : Nat) :
    resolveStep (List.replicate ups .parent) .parent = List.replicate (ups + 1) .parent := by
  rw [resolveStep, List.getLast?_replicate, List.replicate_succ']
  cases ups <;> rfl

/-- One more step on components in normal form. -/
theorem Resolved.step (resolved : Resolved rooted components) (isStep : component.IsStep) :
    Resolved rooted (resolveStep components component) := by
  obtain rfl | ⟨name, proper, rfl⟩ := isStep
  · cases resolved with
    | @absolute names plain =>
        rcases List.eq_nil_or_concat names with rfl | ⟨front, last, rfl⟩
        -- nothing is above the root
        · exact .absolute plain
        · rw [List.concat_eq_append] at plain ⊢
          rw [List.map_append, List.map_singleton, ← List.cons_append, resolveStep_name_parent]
          exact .absolute plain.front
    | @relative ups names plain =>
        rcases List.eq_nil_or_concat names with rfl | ⟨front, last, rfl⟩
        -- a run of `..` has no name to give up
        · rw [List.map_nil, List.append_nil, resolveStep_parents_parent, ← List.append_nil (List.replicate _ _)]
          exact .relative (ups + 1) plain
        · rw [List.concat_eq_append] at plain ⊢
          rw [List.map_append, List.map_singleton, ← List.append_assoc, resolveStep_name_parent]
          exact .relative ups plain.front
  · have alone : Plain [name] := by simpa [Plain] using proper
    cases resolved with
    | absolute plain =>
        rw [resolveStep, List.cons_append, ← List.map_singleton, ← List.map_append]
        exact .absolute (plain.append alone)
    | relative ups plain =>
        rw [resolveStep, List.append_assoc, ← List.map_singleton, ← List.map_append]
        exact .relative ups (plain.append alone)

/-- The steps of a path keep components in normal form. -/
theorem Resolved.foldl (resolved : Resolved rooted components) {more : List Component}
    (stepwise : ∀ component ∈ more, component.IsStep) :
    Resolved rooted (more.foldl resolveStep components) := by
  induction more generalizing components with
  | nil => exact resolved
  | cons component rest ih =>
      exact ih (resolved.step (stepwise component List.mem_cons_self)) fun c member =>
        stepwise c (List.mem_cons_of_mem component member)

theorem foldl_resolveStep_parents (ups more : Nat) :
    (List.replicate more .parent).foldl resolveStep (List.replicate ups .parent) =
      List.replicate (ups + more) .parent := by
  induction more generalizing ups with
  | zero => rfl
  | succ more ih =>
      rw [List.replicate_succ, List.foldl_cons, resolveStep_parents_parent, ih, Nat.add_right_comm]
      rfl

theorem foldl_resolveStep_names (components : List Component) (names : List String) :
    (names.map .name).foldl resolveStep components = components ++ names.map .name := by
  induction names generalizing components with
  | nil => exact (List.append_nil _).symm
  | cons name rest ih => rw [List.map_cons, List.foldl_cons, ih, resolveStep, List.append_assoc]; rfl

/-- What is in normal form stays as it is. -/
theorem Resolved.resolveComponents_eq (resolved : Resolved rooted components) :
    resolveComponents components = components := by
  cases resolved with
  | absolute plain => exact foldl_resolveStep_names [.root] _
  | relative ups plain =>
      have run := foldl_resolveStep_parents 0 ups
      rw [List.replicate_zero, Nat.zero_add] at run
      rw [resolveComponents, List.foldl_append, run, foldl_resolveStep_names]

/-! ## What a joined path adds -/

/-- A path resolves like the steps in its text, from the root if it is absolute. -/
theorem foldl_components (p : Path) (start : List Component) :
    p.components.foldl resolveStep start =
      (steps (pieces p.text.toList)).foldl resolveStep (if p.isAbsolute then [.root] else start) := by
  rw [components_eq, leadOf, isAbsolute]
  simp only [beq_iff_eq]
  split
  · rfl
  · split <;> rfl

theorem isAbsolute_join_of_relative (base : Path) (relative : rel.isAbsolute = false) :
    (base.join rel).isAbsolute = base.isAbsolute := by
  rw [isAbsolute, isAbsolute, toList_join base relative]
  obtain ⟨empty, opens⟩ | ⟨front, opens, some_char, text⟩ := opening_cases base
  · rw [opens, empty, List.nil_append]
    exact relative
  · have begins : ∃ more, opening base = base.text.toList ++ more := by
      obtain text | text := text
      · exact ⟨['/'], by rw [opens, text]⟩
      · exact ⟨[], by rw [opens, text, List.append_nil]⟩
    obtain ⟨more, begins⟩ := begins
    rw [begins, List.append_assoc, List.head?_append_of_ne_nil _ some_char]

theorem isAbsolute_join_eq (base rel : Path) :
    (base.join rel).isAbsolute = (base.isAbsolute || rel.isAbsolute) := by
  cases relative : rel.isAbsolute with
  | true => simp [join, relative]
  | false => rw [isAbsolute_join_of_relative base relative, Bool.or_false]

/-- A path that is joined on resolves by its own components, on top of what the base resolves to. -/
theorem foldl_join (base rel : Path) (start : List Component) :
    (base.join rel).components.foldl resolveStep start =
      rel.components.foldl resolveStep (base.components.foldl resolveStep start) := by
  cases relative : rel.isAbsolute with
  | true =>
      rw [join, if_pos relative, foldl_components, foldl_components rel, if_pos relative, if_pos relative]
  | false =>
      rw [foldl_components, foldl_components rel, foldl_components base, steps_join base relative,
        isAbsolute_join_of_relative base relative, relative, List.foldl_append]
      rfl

theorem resolved_resolveComponents (p : Path) : Resolved p.isAbsolute (resolveComponents p.components) := by
  rw [resolveComponents, foldl_components]
  exact (resolved_start p.isAbsolute).foldl fun component => isStep_of_mem_steps

/-! ## Writing components in normal form -/

/-- Components without slashes are written like names. -/
theorem ofComponents_eq_ofNames
    (whole : ∀ component ∈ components, component.text ≠ "" ∧ '/' ∉ component.text.toList) :
    ofComponents components = ofNames (components.map Component.text) := by
  induction components using List.reverseRecOn with
  | nil => rfl
  | append_singleton front last ih =>
      have shorter := ih fun c member => whole c (by simp [member])
      obtain ⟨-, unslashed⟩ := whole last (by simp)
      have relative : Path.isAbsolute ⟨last.text⟩ = false :=
        relative_iff.mpr fun first => unslashed (List.mem_of_head? first)
      rw [ofComponents, List.foldl_append, ← ofComponents, shorter, List.foldl_cons, List.foldl_nil, push,
        Path.mk.injEq, ← String.toList_inj, toList_join _ relative, List.map_append, List.map_singleton,
        toList_ofNames_append, List.append_cancel_right_eq]
      rcases List.eq_nil_or_concat front with rfl | ⟨before, next, rfl⟩
      · rfl
      · rw [List.concat_eq_append] at whole ⊢
        obtain ⟨some_char, unslashed⟩ := whole next (by simp)
        rw [List.map_append, List.map_singleton,
          opening_of_chars (by simpa using some_char) unslashed (toList_ofNames_append ..), toList_ofNames_append]
        simp [leading]

namespace Component.IsStep

theorem text (isStep : component.IsStep) :
    component.text.toList ≠ [] ∧ component.text.toList ≠ ['.'] ∧ '/' ∉ component.text.toList := by
  obtain rfl | ⟨name, proper, rfl⟩ := isStep
  · decide
  · exact ⟨proper.toList_ne.1, proper.toList_ne.2.1, proper.whole⟩

theorem steps_text (isStep : component.IsStep) : steps [component.text.toList] = [component] := by
  obtain rfl | ⟨name, proper, rfl⟩ := isStep
  · rfl
  · have single := steps_name proper
    rwa [pieces_of_not_mem proper.whole] at single

end Component.IsStep

/-- Steps can be read back from their texts. -/
theorem steps_texts (stepwise : ∀ component ∈ components, component.IsStep) :
    steps (components.map fun component => component.text.toList) = components := by
  induction components with
  | nil => rfl
  | cons component rest ih =>
      have first := (stepwise component List.mem_cons_self).steps_text
      rw [List.map_cons, ← List.singleton_append, steps_append, first,
        ih fun c member => stepwise c (List.mem_cons_of_mem component member)]
      rfl

/-- A path that is written from steps has them as its components. -/
theorem components_ofComponents_steps (stepwise : ∀ component ∈ components, component.IsStep) :
    (ofComponents components).isAbsolute = false ∧ (ofComponents components).components = components := by
  have whole : ∀ component ∈ components, component.text ≠ "" ∧ '/' ∉ component.text.toList := fun c member =>
    ⟨fun empty => (stepwise c member).text.1 (by rw [empty]; rfl), (stepwise c member).text.2.2⟩
  rw [ofComponents_eq_ofNames whole]
  cases components with
  | nil => exact ⟨rfl, rfl⟩
  | cons first rest =>
      obtain ⟨some_char, undotted, unslashed⟩ := (stepwise first List.mem_cons_self).text
      have split : pieces (ofNames ((first :: rest).map Component.text)).text.toList =
          first.text.toList :: rest.map fun component => component.text.toList := by
        rw [toList_ofNames, List.map_map, pieces_intercalate (by simp)]
        · rfl
        · intro part member
          obtain ⟨c, among, rfl⟩ := List.mem_map.mp member
          exact (whole c among).2
      refine ⟨relative_iff.mpr fun root => ?_, ?_⟩
      · obtain ⟨more, text⟩ := List.head?_eq_some_iff.mp root
        rw [text, pieces] at split
        exact some_char (List.cons.inj split).1.symm
      · rw [← ofChars_toList (ofNames _), components_steps split some_char undotted]
        exact steps_texts stepwise

theorem ofComponents_names {names : List String} (plain : Plain names) :
    ofComponents (.root :: names.map .name) = Location.path names := by
  induction names using List.reverseRecOn with
  | nil => rfl
  | append_singleton front name ih =>
      rw [List.map_append, ← List.cons_append, ofComponents, List.foldl_append, ← ofComponents,
        ih plain.front, List.map_singleton, List.foldl_cons, List.foldl_nil, push]
      exact Location.path_join_name plain.front plain.last

/-- What is in normal form can be read back from its text. -/
theorem Resolved.ofComponents (resolved : Resolved rooted components) :
    (ofComponents components).isAbsolute = rooted ∧ (ofComponents components).components = components := by
  cases resolved with
  | absolute plain =>
      rw [ofComponents_names plain]
      exact ⟨isAbsolute_location _, components_path plain⟩
  | @relative ups names plain =>
      refine components_ofComponents_steps fun component member => ?_
      obtain up | named := List.mem_append.mp member
      · exact .inl (List.eq_of_mem_replicate up)
      · obtain ⟨name, among, rfl⟩ := List.mem_map.mp named
        exact .inr ⟨name, plain name among, rfl⟩

/-! ## Resolved paths -/

/-- The components of a path that is resolved are what its own components make of those of the base. -/
theorem components_resolve (base rel : Path) :
    (base.resolve rel).components = rel.components.foldl resolveStep (resolveComponents base.components) := by
  rw [resolve, (resolved_resolveComponents _).ofComponents.2, resolveComponents, foldl_join]
  rfl

theorem isAbsolute_resolve (base rel : Path) :
    (base.resolve rel).isAbsolute = (base.isAbsolute || rel.isAbsolute) := by
  rw [resolve, (resolved_resolveComponents _).ofComponents.1, isAbsolute_join_eq]

theorem resolved_resolve (base rel : Path) :
    Resolved (base.resolve rel).isAbsolute (base.resolve rel).components := by
  rw [isAbsolute_resolve, ← isAbsolute_join_eq, resolve, (resolved_resolveComponents _).ofComponents.2]
  exact resolved_resolveComponents _

example : (⟨"a"⟩ : Path).resolve ⟨".././../b/c/../d/"⟩ = ⟨"../b/d"⟩ := rfl

/-- A resolved path is determined by its components. -/
theorem ofComponents_components_resolve (base rel : Path) :
    ofComponents (base.resolve rel).components = base.resolve rel := by
  rw [resolve, (resolved_resolveComponents _).ofComponents.2]

theorem resolve_eq_of_components (same : (base.resolve rel).components = (p.resolve q).components) :
    base.resolve rel = p.resolve q := by
  rw [← ofComponents_components_resolve, same, ofComponents_components_resolve]

theorem resolve_eq_of_same (same : p.same q) (rel : Path) : p.resolve rel = q.resolve rel := by
  refine resolve_eq_of_components ?_
  rw [components_resolve, components_resolve, eq_of_beq same]

/-- What is resolved against an absolute path is spelled by names alone. -/
theorem exists_resolve (absolute : base.isAbsolute) (rel : Path) :
    ∃ names, Plain names ∧ base.resolve rel = Location.path names := by
  have resolved := resolved_resolve base rel
  rw [isAbsolute_resolve, absolute, Bool.true_or] at resolved
  rw [← ofComponents_components_resolve]
  generalize (base.resolve rel).components = components at resolved ⊢
  cases resolved with
  | absolute plain => exact ⟨_, plain, ofComponents_names plain⟩

theorem resolve_resolve (base first second : Path) :
    (base.resolve first).resolve second = base.resolve (first.join second) := by
  refine resolve_eq_of_components ?_
  rw [components_resolve (base.resolve first), (resolved_resolve base first).resolveComponents_eq,
    components_resolve, components_resolve, foldl_join]

/-- An absolute path is resolved without a look at the base. -/
theorem resolve_of_isAbsolute (absolute : rel.isAbsolute) (base other : Path) :
    base.resolve rel = other.resolve rel := by
  rw [resolve, resolve, join, join, if_pos absolute, if_pos absolute]

theorem empty_resolve_resolve (base rel : Path) : empty.resolve (base.resolve rel) = base.resolve rel := by
  refine resolve_eq_of_components ?_
  rw [components_resolve]
  exact (resolved_resolve base rel).resolveComponents_eq

/-- Resolving is a normal form with the laws of joining: an absolute path starts anew, joined paths resolve one
after the other, and a resolved path stays as it is. -/
theorem resolve_laws (base first second : Path) :
    Resolved (base.resolve first).isAbsolute (base.resolve first).components ∧
      ((base.resolve first).isAbsolute ↔ base.isAbsolute ∨ first.isAbsolute) ∧
      (first.isAbsolute → ∀ other : Path, other.resolve first = base.resolve first) ∧
      (base.resolve first).resolve second = base.resolve (first.join second) ∧
      empty.resolve (base.resolve first) = base.resolve first ∧
      ((base.resolve first).isAbsolute →
        ∀ other : Path, other.resolve (base.resolve first) = base.resolve first) := by
  refine ⟨resolved_resolve base first, ?_, ?_, resolve_resolve base first second,
    empty_resolve_resolve base first, ?_⟩
  · rw [isAbsolute_resolve, Bool.or_eq_true]
  · intro absolute other
    exact resolve_of_isAbsolute absolute other base
  · intro absolute other
    rw [resolve_of_isAbsolute absolute other empty, empty_resolve_resolve]

/-- An absolute path that climbs above the root on its way. -/
theorem resolve_laws_detour :
    (⟨"/a/../../b//c/."⟩ : Path).isAbsolute ∧
      (∀ other : Path, other.resolve ⟨"/a/../../b//c/."⟩ = ⟨"/b/c"⟩) ∧
      (⟨"/b/c"⟩ : Path).resolve ⟨"../d"⟩ = (⟨"x/./y"⟩ : Path).resolve ⟨"/a/../../b//c/./../d"⟩ ∧
      ∀ other : Path, other.resolve ⟨"/b/c"⟩ = ⟨"/b/c"⟩ := by
  have here : (⟨"x/./y"⟩ : Path).resolve ⟨"/a/../../b//c/."⟩ = ⟨"/b/c"⟩ := rfl
  have joined : (⟨"/a/../../b//c/."⟩ : Path).join ⟨"../d"⟩ = ⟨"/a/../../b//c/./../d"⟩ := rfl
  obtain ⟨-, -, independent, composed, -, kept⟩ :=
    resolve_laws ⟨"x/./y"⟩ ⟨"/a/../../b//c/."⟩ ⟨"../d"⟩
  rw [here] at independent composed kept
  rw [joined] at composed
  exact ⟨rfl, independent rfl, composed, kept rfl⟩

end StaticSite.Path
