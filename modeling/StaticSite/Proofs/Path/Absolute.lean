import StaticSite.Proofs.FileSystem.Straight

/-!
Absolute paths. What their parents are and what lies below them is a matter of their components; so is where
they lead to, if they end in no slash.
-/

namespace StaticSite

open Location (Plain)

namespace Path

variable {p q base rel : Path}

theorem components_absolute (absolute : p.isAbsolute) :
    p.components = .root :: steps (pieces p.text.toList) := by
  obtain ⟨rest, chars⟩ := exists_of_isAbsolute absolute
  rw [components_of_isAbsolute absolute chars, chars, pieces]
  rfl

theorem steps_join (base : Path) (relative : rel.isAbsolute = false) :
    steps (pieces (base.join rel).text.toList) =
      steps (pieces base.text.toList) ++ steps (pieces rel.text.toList) := by
  rw [toList_join base relative]
  obtain ⟨empty, opens⟩ | ⟨front, opens, -, text | text⟩ := opening_cases base
  · rw [empty, opens]
    rfl
  · rw [opens, text, List.append_assoc, List.singleton_append, pieces_append_slash, steps_append]
  · rw [opens, text, List.append_assoc, List.singleton_append, pieces_append_slash, steps_append,
      pieces_append_slash, steps_append, show steps (pieces []) = [] from rfl, List.append_nil]

/-! ## Parents -/

theorem steps_trimTail (text : List Char) :
    steps (pieces (trimTail text).reverse) = steps (pieces text.reverse) := by
  fun_induction trimTail text with
  | case1 => rfl
  | case2 rest empty => rw [List.isEmpty_iff.mp empty]
  | case3 rest goesOn ih =>
      rw [ih, List.reverse_cons, pieces_append_slash, steps_append]
      simp [pieces, steps]
  | case4 rest ih =>
      rw [ih, List.reverse_cons, List.reverse_cons, List.reverse_cons, List.append_assoc,
        List.singleton_append, pieces_append_slash, pieces_append_slash, steps_append, steps_append]
      simp [pieces, steps]
  | case5 text => rfl

theorem getLast?_trimTail {text : List Char} (ends : text.getLast? = some '/') :
    (trimTail text).getLast? = some '/' := by
  fun_induction trimTail text with
  | case1 => exact ends
  | case2 rest empty => rfl
  | case3 rest goesOn ih =>
      refine ih ?_
      rwa [List.getLast?_cons_of_ne_nil (by simpa using goesOn)] at ends
  | case4 rest ih => exact ih (by simpa using ends)
  | case5 text => exact ends

/-- A text that was trimmed is a single slash, or it begins with a name. -/
theorem trimTail_cases (text : List Char) :
    trimTail text = [] ∨ trimTail text = ['/'] ∨
      (∀ rest, trimTail text ≠ '/' :: rest) ∧ ∀ rest, trimTail text ≠ '.' :: '/' :: rest := by
  fun_induction trimTail text with
  | case1 => exact .inl rfl
  | case2 rest empty => exact .inr (.inl rfl)
  | case3 rest goesOn ih => exact ih
  | case4 rest ih => exact ih
  | case5 text some_char other other' => exact .inr (.inr ⟨other, other'⟩)

/-- The parent of an absolute path has its components but the last. -/
theorem exists_parent? (absolute : p.isAbsolute) (named : p.names ≠ []) :
    ∃ above, p.parent? = some above ∧ above.isAbsolute ∧ above.components = p.components.dropLast := by
  obtain ⟨rest, chars⟩ := exists_of_isAbsolute absolute
  have whole := components_absolute absolute
  have trimmed := steps_trimTail p.text.toList.reverse
  have ends : (trimTail p.text.toList.reverse).getLast? = some '/' := getLast?_trimTail (by simp [chars])
  have cases := trimTail_cases p.text.toList.reverse
  rw [List.reverse_reverse] at trimmed
  rw [← trimmed] at whole
  unfold parent? splitLast
  dsimp only
  generalize trimTail p.text.toList.reverse = text at whole ends cases
  obtain rfl | rfl | ⟨unslashed, undotted⟩ := cases
  · cases ends
  · exact absurd (by simp [names, whole, pieces, steps]) named
  -- the text is a name with a slash behind it, both read backwards
  have split := List.takeWhile_append_dropWhile (p := (· != '/')) (l := text)
  have bare : '/' ∉ text.takeWhile (· != '/') := fun member => by simpa using List.mem_takeWhile_imp member
  have stops := List.head?_dropWhile_not (· != '/') text
  generalize text.takeWhile (· != '/') = last, text.dropWhile (· != '/') = before at split bare stops ⊢
  subst split
  cases before with
  | nil =>
      rw [List.append_nil] at ends
      exact absurd (List.mem_of_getLast? ends) bare
  | cons c above =>
      obtain rfl : c = '/' := by simpa using stops
      have some_char : last ≠ [] := by
        rintro rfl
        exact unslashed above rfl
      have named : last ≠ ['.'] := by
        rintro rfl
        exact undotted above rfl
      have ends' : ('/' :: above).getLast? = some '/' := by
        rwa [List.getLast?_append_of_ne_nil _ (by simp)] at ends
      have absolute' : Path.isAbsolute ⟨String.ofList (trimTail ('/' :: above)).reverse⟩ = true := by
        have first := getLast?_trimTail ends'
        simp [isAbsolute, first]
      have single : ∃ component, steps [last.reverse] = [component] := by
        have kept : (last.reverse != [] && last.reverse != ['.']) = true := by
          simpa [List.reverse_eq_iff] using ⟨some_char, named⟩
        simp only [steps, List.filter_cons, kept, if_true, List.filter_nil, List.map_singleton]
        exact ⟨_, rfl⟩
      obtain ⟨component, single⟩ := single
      have behind : pieces last.reverse = [last.reverse] := pieces_of_not_mem (by simpa using bare)
      rw [if_neg (by simpa using some_char)]
      refine ⟨_, rfl, absolute', ?_⟩
      rw [components_absolute absolute', whole, String.toList_ofList, steps_trimTail, List.reverse_append,
        List.reverse_cons, List.append_assoc, List.singleton_append, pieces_append_slash,
        pieces_append_slash, steps_append, steps_append, behind, single,
        show steps (pieces []) = [] from rfl, List.append_nil, ← List.cons_append, List.dropLast_concat]

/-! ## Spellings -/

/-- An absolute path that no slash ends, or the root. -/
def Tidy (p : Path) : Prop := p.isAbsolute ∧ (FileSystem.endsInSlash p = false ∨ p = ⟨"/"⟩)

/-- One more slash in front. -/
def slashed (p : Path) : Path := ⟨"/" ++ p.text⟩

theorem tidy_path {location : Location} (plain : Plain location) : Tidy (Location.path location) := by
  refine ⟨isAbsolute_location location, ?_⟩
  by_cases root : location = []
  · exact .inr (root ▸ rfl)
  · exact .inl (Location.endsInSlash_path plain root)

theorem toList_slashed (p : Path) : p.slashed.text.toList = '/' :: p.text.toList := by
  simp [slashed]

theorem isAbsolute_slashed (p : Path) : p.slashed.isAbsolute := by
  rw [isAbsolute, toList_slashed]
  rfl

theorem components_slashed (absolute : p.isAbsolute) : p.slashed.components = p.components := by
  rw [components_absolute (isAbsolute_slashed p), components_absolute absolute, toList_slashed, pieces]
  rfl

theorem steps_names (absolute : p.isAbsolute) : steps (p.names.map String.toList) = p.components.tail := by
  obtain ⟨rest, chars⟩ := exists_of_isAbsolute absolute
  have whole := components_of_isAbsolute absolute chars
  have spelled : p.names.map String.toList =
      (pieces rest).filter fun part => part != [] && part != ['.'] := by
    rw [names, whole, List.tail_cons, text_steps, List.map_map]
    exact List.map_id'' (fun part => String.toList_ofList) _
  rw [spelled, whole, List.tail_cons, steps, steps, List.filter_filter]
  simp only [Bool.and_self]

theorem isAbsolute_plain (p : Path) : p.plain.isAbsolute := isAbsolute_location _

theorem components_plain (absolute : p.isAbsolute) : p.plain.components = p.components := by
  obtain ⟨rest, chars⟩ := exists_of_isAbsolute absolute
  have text : p.plain.text.toList = '/' :: (ofNames p.names).text.toList := Location.toList_path _
  rw [components_of_isAbsolute (isAbsolute_plain p) text, components_of_isAbsolute absolute chars]
  have same := steps_names absolute
  rw [components_of_isAbsolute absolute chars, List.tail_cons] at same
  by_cases nameless : p.names = []
  · rw [nameless] at same ⊢
    exact congrArg _ same
  · rw [toList_ofNames, pieces_intercalate (by simpa using nameless), same]
    intro part member
    obtain ⟨name, among, rfl⟩ := List.mem_map.mp member
    exact (slash_not_mem_name absolute among).1

theorem components_path {location : Location} (plain : Plain location) :
    (Location.path location).components = .root :: location.map .name := by
  rw [components_of_isAbsolute (isAbsolute_location location) (Location.toList_path location)]
  by_cases root : location = []
  · rw [root]
    rfl
  · rw [pieces_ofNames root plain, steps_proper plain]

theorem names_path {location : Location} (plain : Plain location) :
    (Location.path location).names = location := by
  rw [names, components_path plain, List.tail_cons, List.map_map]
  exact List.map_id'' (fun name => rfl) _

/-- What names look like behind a slash. -/
theorem toList_foldl_push {front : List Char} {components : List Component}
    (whole : ∀ component ∈ components, component.text ≠ "" ∧ '/' ∉ component.text.toList) :
    (components.foldl push ⟨String.ofList (front ++ ['/'])⟩).text.toList =
      front ++ '/' :: (ofNames (components.map Component.text)).text.toList := by
  induction components using List.reverseRecOn with
  | nil => simp [ofNames]
  | append_singleton before component ih =>
      have shorter := ih fun c member => whole c (by simp [member])
      obtain ⟨some_char, unslashed⟩ := whole component (by simp)
      have relative : Path.isAbsolute ⟨component.text⟩ = false := by
        rw [isAbsolute, beq_eq_false_iff_ne]
        exact fun first => unslashed (List.mem_of_head? first)
      rw [List.foldl_append, List.foldl_cons, List.foldl_nil, push, toList_join _ relative, List.map_append,
        List.map_singleton, toList_ofNames_append]
      rcases List.eq_nil_or_concat before with rfl | ⟨first, last, rfl⟩
      · simp [opening, leading]
      · rw [List.concat_eq_append] at *
        obtain ⟨some_char', unslashed'⟩ := whole last (by simp)
        rw [List.map_append, List.map_singleton, toList_ofNames_append, ← List.cons_append,
          ← List.append_assoc] at shorter
        rw [opening_of_chars (by simpa using some_char') unslashed' shorter, shorter]
        simp [leading]

/-- An absolute path that no slash ends is spelled by its names, but for a slash. -/
theorem absolute_cases (tidy : p.Tidy) (here : Path) :
    p.absolute here = p.plain ∨ p.absolute here = p.plain.slashed := by
  obtain ⟨absolute, open_end | rfl⟩ := tidy
  · obtain ⟨rest, chars⟩ := exists_of_isAbsolute absolute
    have whole := components_of_isAbsolute absolute chars
    have named : ∀ component ∈ steps (pieces rest), component.text ≠ "" ∧ '/' ∉ component.text.toList := by
      intro component member
      have among : component.text ∈ p.names := by
        rw [names, whole, List.tail_cons]
        exact List.mem_map_of_mem member
      have filled := slash_not_mem_name absolute among
      exact ⟨filled.2.1, filled.1⟩
    have names_eq : (steps (pieces rest)).map Component.text = p.names := by rw [names, whole, List.tail_cons]
    have text : p.plain.text.toList = '/' :: (ofNames p.names).text.toList := Location.toList_path _
    unfold Path.absolute
    rw [FileSystem.endsInSlash] at open_end
    simp only [absolute, Bool.not_true, Bool.false_eq_true, if_false, open_end, stripPrefix?_dot absolute,
      Option.getD_none]
    split
    case isTrue =>
      right
      have pushed := @toList_foldl_push ['/'] _ named
      rw [names_eq] at pushed
      rw [if_pos (by decide), whole, List.drop_succ_cons, List.drop_zero, Path.mk.injEq, ← String.toList_inj,
        toList_slashed, text]
      exact pushed
    case isFalse =>
      left
      have pushed := @toList_foldl_push [] _ named
      rw [names_eq] at pushed
      rw [if_neg (by decide), whole, List.foldl_cons, Path.mk.injEq, ← String.toList_inj, text]
      exact pushed
  · left
    have root : Path.isAbsolute ⟨"/"⟩ = true := rfl
    simp only [Path.absolute, root, stripPrefix?_dot root, Bool.not_true, Bool.false_eq_true, if_false,
      Option.getD_none]
    decide

theorem components_of_tidy (tidy : p.Tidy) (here : Path) : (p.absolute here).components = p.components := by
  obtain same | same := absolute_cases tidy here
  · rw [same, components_plain tidy.1]
  · rw [same, components_slashed (isAbsolute_plain p), components_plain tidy.1]

end Path

namespace FileSystem

variable {fs : FileSystem} {follow : Bool} {p q : Path}

theorem walk_slashed (absolute : p.isAbsolute) : fs.walk follow p.slashed = fs.walk follow p := by
  obtain ⟨rest, chars⟩ := Path.exists_of_isAbsolute absolute
  have slashed := Path.isAbsolute_slashed p
  have some_part : (Path.pieces p.text.toList).map String.ofList ≠ [] := by simpa using pieces_ne_nil _
  have todo_eq : todo p.slashed = todo p := by
    rw [todo, todo, Path.toList_slashed, Path.pieces, List.map_cons,
      List.filter_cons_of_neg (by simp), List.getLast?_cons_of_ne_nil some_part]
  rw [walk, walk, isEmpty_text slashed, isEmpty_text absolute, if_pos slashed, if_pos absolute, todo_eq]

/-- Where an absolute path leads to is a matter of its names, if it ends in no slash. -/
theorem find_absolute (tidy : p.Tidy) (here : Path) :
    fs.find follow (p.absolute here) = fs.find follow p.plain := by
  obtain same | same := Path.absolute_cases tidy here
  · rw [same]
  · rw [same, find, find, walk_slashed (Path.isAbsolute_plain p)]

end FileSystem

end StaticSite
