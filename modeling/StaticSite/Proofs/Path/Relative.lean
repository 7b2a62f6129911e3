import StaticSite.Proofs.Path.Absolute

/-!
Relative paths. What their parents are and what lies below them is a matter of their components, however the paths
are spelled.
-/

namespace StaticSite.Path

variable {p base : Path}

/-! ## Components -/

/-- The component that a text begins with and that stands for no name. -/
def leadOf (text : List Char) : List Component :=
  if text.head? = some '/' then [.root]
  else if text.takeWhile (· != '/') = ['.'] then [.current]
  else []

theorem leadOf_append_slash {text : List Char} (some_char : text ≠ []) (rest : List Char) :
    leadOf (text ++ '/' :: rest) = leadOf text := by
  have first : (text ++ '/' :: rest).takeWhile (· != '/') = text.takeWhile (· != '/') := by
    rw [List.takeWhile_append]
    split
    next whole => simp [(List.takeWhile_prefix _).eq_of_length whole]
    · rfl
  rw [leadOf, leadOf, List.head?_append_of_ne_nil _ some_char, first]

theorem exists_pieces (text : List Char) : ∃ rest, pieces text = text.takeWhile (· != '/') :: rest := by
  fun_induction pieces text with
  | case1 => exact ⟨[], rfl⟩
  | case2 text ih => exact ⟨_, rfl⟩
  | case3 c text different first more split ih =>
      obtain ⟨rest, same⟩ := ih
      obtain ⟨rfl, rfl⟩ := List.cons.inj (split.symm.trans same)
      exact ⟨more, by rw [List.takeWhile_cons_of_pos (by simpa using different)]⟩
  | case4 c text different split ih => exact absurd split (FileSystem.pieces_ne_nil text)

theorem components_eq (p : Path) : p.components = leadOf p.text.toList ++ steps (pieces p.text.toList) := by
  by_cases absolute : p.isAbsolute
  · obtain ⟨rest, chars⟩ := exists_of_isAbsolute absolute
    rw [components_absolute absolute, chars]
    rfl
  · have head : p.text.toList.head? ≠ some '/' := by simpa [isAbsolute] using absolute
    obtain ⟨rest, split⟩ := exists_pieces p.text.toList
    rw [← ofChars_toList p, leadOf, ofChars, String.toList_ofList, if_neg head, ← ofChars]
    by_cases empty : p.text.toList.takeWhile (· != '/') = []
    · have nothing : p.text.toList = [] := by
        cases text : p.text.toList with
        | nil => rfl
        | cons c more =>
            rw [text] at empty head
            rw [List.takeWhile_cons_of_pos (by simpa using head)] at empty
            cases empty
      rw [nothing]
      rfl
    · by_cases dot : p.text.toList.takeWhile (· != '/') = ['.']
      · rw [if_pos dot, components_current (dot ▸ split), split, dot]
        rfl
      · rw [if_neg dot, components_steps split empty dot, split, List.nil_append]

/-! ## Trimmed texts -/

theorem trimTail_ne_nil {text : List Char} (some_char : text ≠ []) : trimTail text ≠ [] := by
  fun_induction trimTail text with
  | case1 => exact some_char
  | case2 rest empty => simp
  | case3 rest goesOn ih => exact ih (by simpa using goesOn)
  | case4 rest ih => exact ih (by simp)
  | case5 text other => exact some_char

/-- What is trimmed away ends in a slash, read backwards, unless nothing but the root is left. -/
theorem exists_trimmed (text : List Char) :
    ∃ away, text = away ++ trimTail text ∧ (away = [] ∨ away.getLast? = some '/' ∨ trimTail text = ['/']) := by
  fun_induction trimTail text with
  | case1 => exact ⟨[], rfl, .inl rfl⟩
  | case2 rest empty => exact ⟨[], by rw [List.isEmpty_iff.mp empty]; rfl, .inl rfl⟩
  | case3 rest goesOn ih =>
      obtain ⟨away, split, ends⟩ := ih
      refine ⟨'/' :: away, congrArg ('/' :: ·) split, .inr ?_⟩
      obtain rfl | ends | root := ends
      · exact .inl rfl
      · exact .inl (by rw [List.getLast?_cons, ends]; rfl)
      · exact .inr root
  | case4 rest ih =>
      obtain ⟨away, split, ends⟩ := ih
      refine ⟨'.' :: away, congrArg ('.' :: ·) split, .inr ?_⟩
      obtain rfl | ends | root := ends
      · refine .inr ?_
        have begins : trimTail ('/' :: rest) = '/' :: rest := split.symm
        obtain empty | root | ⟨unslashed, -⟩ := trimTail_cases ('/' :: rest)
        · rw [begins] at empty
          cases empty
        · exact root
        · exact absurd begins (unslashed rest)
      · exact .inl (by rw [List.getLast?_cons, ends]; rfl)
      · exact .inr root
  | case5 text other => exact ⟨[], rfl, .inl rfl⟩

/-- Trimming a relative path leaves it relative, with its components. -/
theorem trimmed_relative {text : List Char} (relative : text.head? ≠ some '/') :
    (trimTail text.reverse).reverse.head? ≠ some '/' ∧
      (ofChars (trimTail text.reverse).reverse).components = (ofChars text).components := by
  by_cases empty : text = []
  · subst empty
    rw [List.reverse_nil, trimTail]
    exact ⟨by simp, rfl⟩
  have backwards : text.reverse ≠ [] := by simpa using empty
  have some_char : (trimTail text.reverse).reverse ≠ [] := by simpa using trimTail_ne_nil backwards
  have trimmed := steps_trimTail text.reverse
  obtain ⟨away, split, ends⟩ := exists_trimmed text.reverse
  generalize trimTail text.reverse = left at *
  rw [List.reverse_reverse] at trimmed
  obtain rfl : text = left.reverse ++ away.reverse := by
    rw [← List.reverse_append, ← split, List.reverse_reverse]
  rw [List.head?_append_of_ne_nil _ some_char] at relative
  refine ⟨relative, ?_⟩
  rw [components_eq, components_eq, ofChars, ofChars, String.toList_ofList, String.toList_ofList, trimmed]
  obtain rfl | ends | rfl := ends
  · simp
  · obtain ⟨front, rfl⟩ := List.getLast?_eq_some_iff.mp ends
    rw [List.reverse_append, List.reverse_singleton, List.singleton_append, leadOf_append_slash some_char]
  · exact absurd rfl relative

/-! ## Parents -/

theorem relative_iff : p.isAbsolute = false ↔ p.text.toList.head? ≠ some '/' := by
  rw [isAbsolute, beq_eq_false_iff_ne]

/-- A piece that is neither empty nor a dot is one component. -/
theorem exists_steps_singleton {piece : List Char} (some_char : piece ≠ []) (undotted : piece ≠ ['.']) :
    ∃ component, steps [piece] = [component] := by
  have kept : (piece != [] && piece != ['.']) = true := by simpa using ⟨some_char, undotted⟩
  simp only [steps, List.filter_cons, kept, if_true, List.filter_nil, List.map_singleton]
  exact ⟨_, rfl⟩

/-- The parent of a relative path has its components but the last. -/
theorem exists_parent?_of_relative (relative : p.isAbsolute = false) (some_component : p.components ≠ []) :
    ∃ above, p.parent? = some above ∧ above.isAbsolute = false ∧ above.components = p.components.dropLast := by
  obtain ⟨unrooted, same⟩ := trimmed_relative (relative_iff.mp relative)
  have cases := trimTail_cases p.text.toList.reverse
  rw [ofChars_toList] at same
  rw [← same] at some_component ⊢
  unfold parent? splitLast
  dsimp only
  generalize trimTail p.text.toList.reverse = text at *
  obtain rfl | rfl | ⟨unslashed, undotted⟩ := cases
  · exact absurd rfl some_component
  · exact absurd rfl unrooted
  -- the text is a name, perhaps with a slash behind it, both read backwards
  have split := List.takeWhile_append_dropWhile (p := (· != '/')) (l := text)
  have bare : '/' ∉ text.takeWhile (· != '/') := fun member => by simpa using List.mem_takeWhile_imp member
  have stops := List.head?_dropWhile_not (· != '/') text
  generalize text.takeWhile (· != '/') = last, text.dropWhile (· != '/') = before at split bare stops ⊢
  subst split
  have behind : pieces last.reverse = [last.reverse] := pieces_of_not_mem (by simpa using bare)
  cases before with
  | nil =>
      rw [List.append_nil] at some_component unrooted ⊢
      have some_char : last ≠ [] := by
        rintro rfl
        exact some_component rfl
      rw [if_neg (by simpa using some_char), trimTail]
      refine ⟨_, rfl, rfl, ?_⟩
      rw [components_eq (ofChars last.reverse), ofChars, String.toList_ofList, behind, leadOf, if_neg unrooted]
      by_cases dot : last.reverse = ['.']
      · rw [dot]
        rfl
      · obtain ⟨component, single⟩ := exists_steps_singleton (by simpa using some_char) dot
        have first : last.reverse.takeWhile (· != '/') = last.reverse :=
          List.takeWhile_eq_self_iff.mpr fun c member => bne_iff_ne.mpr fun same => bare (by simpa [same] using member)
        rw [first, if_neg dot, single]
        rfl
  | cons c above =>
      obtain rfl : c = '/' := by simpa using stops
      have some_char : last ≠ [] := by
        rintro rfl
        exact unslashed above rfl
      have named : last ≠ ['.'] := by
        rintro rfl
        exact undotted above rfl
      have text : (last ++ '/' :: above).reverse = above.reverse ++ '/' :: last.reverse := by simp
      rw [text] at unrooted ⊢
      have some_above : above.reverse ≠ [] := by
        intro empty
        rw [empty] at unrooted
        exact unrooted rfl
      rw [List.head?_append_of_ne_nil _ some_above] at unrooted
      have front : ('/' :: above).reverse = above.reverse ++ ['/'] := by simp
      have unrooted' : (above.reverse ++ ['/']).head? ≠ some '/' := by
        rwa [List.head?_append_of_ne_nil _ some_above]
      obtain ⟨relative', kept⟩ := trimmed_relative unrooted'
      rw [← front, List.reverse_reverse] at relative' kept
      rw [if_neg (by simpa using some_char)]
      refine ⟨_, rfl, relative_iff.mpr (by simpa using relative'), ?_⟩
      obtain ⟨component, single⟩ : ∃ component, steps [last.reverse] = [component] :=
        exists_steps_singleton (by simpa using some_char) (by simpa [List.reverse_eq_iff] using named)
      refine kept.trans ?_
      rw [front, components_eq, components_eq, ofChars, ofChars, String.toList_ofList, String.toList_ofList,
        leadOf_append_slash some_above, leadOf_append_slash some_above, pieces_append_slash, pieces_append_slash,
        steps_append, steps_append, behind, single, show steps (pieces []) = [] from rfl, List.append_nil,
        ← List.append_assoc, List.dropLast_concat]

/-- Only the empty path has no components, and it has no parent. -/
theorem parent?_of_components_nil (relative : p.isAbsolute = false) (nothing : p.components = []) :
    p.parent? = none := by
  have empty : p.text.toList = [] := by
    by_contra some_char
    have unslashed := relative_iff.mp relative
    obtain ⟨rest, split⟩ := exists_pieces p.text.toList
    rw [components_eq, leadOf, if_neg unslashed, split] at nothing
    obtain ⟨c, more, text⟩ := List.exists_cons_of_ne_nil some_char
    have some_piece : p.text.toList.takeWhile (· != '/') ≠ [] := by
      rw [text] at unslashed ⊢
      rw [List.takeWhile_cons_of_pos (by simpa using unslashed)]
      simp
    by_cases dot : p.text.toList.takeWhile (· != '/') = ['.']
    · rw [if_pos dot] at nothing
      cases nothing
    · obtain ⟨component, single⟩ := exists_steps_singleton some_piece dot
      rw [if_neg dot, ← List.singleton_append, steps_append, single] at nothing
      cases nothing
  rw [parent?, splitLast, empty, List.reverse_nil, trimTail]
  rfl

theorem leadOf_of_proper {name : String} (proper : Proper name) : leadOf name.toList = [] := by
  have whole : name.toList.takeWhile (· != '/') = name.toList :=
    List.takeWhile_eq_self_iff.mpr fun c member => bne_iff_ne.mpr fun same => proper.whole (same ▸ member)
  have unslashed : name.toList.head? ≠ some '/' := fun same => proper.whole (List.mem_of_head? same)
  rw [leadOf, if_neg unslashed, whole, if_neg proper.toList_ne.2.1]

/-! ## Names below a path -/

theorem steps_name {name : String} (proper : Proper name) : steps (pieces name.toList) = [.name name] := by
  have single : ∀ other ∈ [name], Proper other := by simpa using proper
  rw [pieces_of_not_mem proper.whole]
  exact steps_proper single

/-- A name below a relative path is one more component. -/
theorem components_join_name {name : String} (relative : base.isAbsolute = false) (proper : Proper name) :
    (base.join ⟨name⟩).components = base.components ++ [.name name] := by
  have unslashed : (⟨name⟩ : Path).isAbsolute = false :=
    relative_iff.mpr fun same => proper.whole (List.mem_of_head? same)
  rw [components_eq, components_eq, toList_join base unslashed]
  obtain ⟨empty, opens⟩ | ⟨front, opens, some_char, text⟩ := opening_cases base
  · rw [empty, opens, List.nil_append, leadOf_of_proper proper, steps_name proper]
    rfl
  · rw [opens, List.append_assoc, List.singleton_append, pieces_append_slash, steps_append, steps_name proper]
    obtain text | text := text
    · rw [text] at some_char ⊢
      rw [leadOf_append_slash some_char, List.append_assoc]
    · have some_front : front ≠ [] := by
        rintro rfl
        rw [relative_iff, text] at relative
        exact relative rfl
      rw [text, leadOf_append_slash some_front, leadOf_append_slash some_front, pieces_append_slash, steps_append,
        show steps (pieces []) = [] from rfl, List.append_nil, List.append_assoc]

/-- A path whose text ends in a character that belongs to a name has a last name. -/
theorem exists_last_name {c : Char} (ends : p.text.toList.getLast? = some c) (unslashed : c ≠ '/') (undotted : c ≠ '.') :
    ∃ (directory : Path) (name : String), Proper name ∧ p = directory.join ⟨name⟩ ∧ p.fileName? = some name := by
  obtain ⟨front, text⟩ := List.getLast?_eq_some_iff.mp ends
  have begins : p.text.toList.reverse = c :: front.reverse := by simp [text]
  have trimmed : trimTail (c :: front.reverse) = c :: front.reverse := by
    unfold trimTail
    split
    next same => cases same
    next same => exact absurd (List.cons.inj same).1 unslashed
    next same => exact absurd (List.cons.inj same).1 undotted
    · rfl
  have split := List.takeWhile_append_dropWhile (p := (· != '/')) (l := c :: front.reverse)
  have bare : '/' ∉ (c :: front.reverse).takeWhile (· != '/') :=
    fun member => by simpa using List.mem_takeWhile_imp member
  have stops := List.head?_dropWhile_not (· != '/') (c :: front.reverse)
  have first : ((c :: front.reverse).takeWhile (· != '/')).head? = some c := by
    rw [List.takeWhile_cons_of_pos (by simpa using unslashed), List.head?_cons]
  have file : p.fileName? = some (String.ofList ((c :: front.reverse).takeWhile (· != '/')).reverse) := by
    rw [fileName?, splitLast, begins, trimmed]
    generalize (c :: front.reverse).takeWhile (· != '/') = last at first
    obtain ⟨more, rfl⟩ : ∃ more, last = c :: more := by
      cases last with
      | nil => cases first
      | cons d more => exact ⟨more, by rw [List.head?_cons, Option.some.injEq] at first; rw [first]⟩
    simp [undotted]
  generalize (c :: front.reverse).takeWhile (· != '/') = last,
    (c :: front.reverse).dropWhile (· != '/') = before at *
  have proper : Proper (String.ofList last.reverse) := by
    refine ⟨?_, ?_, ?_, by simpa using bare⟩
    all_goals
      intro same
      have chars := congrArg (List.reverse ∘ String.toList) same
      simp at chars
      rw [chars] at first
      simp [Ne.symm undotted] at first
  refine ⟨⟨String.ofList before.reverse⟩, _, proper, ?_, file⟩
  have whole : p.text.toList = before.reverse ++ last.reverse := by
    rw [← List.reverse_append, split, ← begins, List.reverse_reverse]
  have relative : (⟨String.ofList last.reverse⟩ : Path).isAbsolute = false :=
    relative_iff.mpr fun same => proper.whole (List.mem_of_head? same)
  have same : p.text.toList = ((⟨String.ofList before.reverse⟩ : Path).join ⟨String.ofList last.reverse⟩).text.toList := by
    rw [toList_join _ relative, whole, opening, String.toList_ofList, String.toList_ofList]
    cases before with
    | nil => rfl
    | cons d above =>
        obtain rfl : d = '/' := by simpa using stops
        simp
  cases p
  exact congrArg Path.mk (String.toList_inj.mp same)

end StaticSite.Path
