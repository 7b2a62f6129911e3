import Mathlib.Logic.Relation
import StaticSite.Proofs.Path.Relative

/-!
The parent of a path that ends in a name. The path consists of its parent and the name, but for slashes and dots
between them, however it is spelled.
-/

namespace StaticSite

namespace Path

variable {p above : Path} {name : String}

/-! ## The names in a text -/

/-- What stands between the slashes of a text. -/
def filled (text : List Char) : List String := ((pieces text).map String.ofList).filter (· != "")

theorem filled_append_slash (text rest : List Char) :
    filled (text ++ '/' :: rest) = filled text ++ filled rest := by
  rw [filled, pieces_append_slash, List.map_append, List.filter_append]
  rfl

theorem filled_of_proper (proper : Proper name) : filled name.toList = [name] := by
  rw [filled, pieces_of_not_mem proper.whole]
  simpa using proper.nonempty

theorem unslashed_reverse (proper : Proper name) : ∀ c ∈ name.toList.reverse, (c != '/') = true := by
  intro c member
  rw [bne_iff_ne]
  rintro rfl
  exact proper.whole (by simpa using member)

/-- Slashes and dots are trimmed off the end of a text. -/
theorem exists_filled_trimTail (text : List Char) :
    ∃ dots, (∀ dot ∈ dots, dot = ".") ∧ filled text.reverse = filled (trimTail text).reverse ++ dots := by
  fun_induction trimTail text with
  | case1 => exact ⟨[], by simp, rfl⟩
  | case2 rest empty => exact ⟨[], by simp, by rw [List.isEmpty_iff.mp empty]; rfl⟩
  | case3 rest goesOn ih =>
      obtain ⟨dots, dotted, same⟩ := ih
      refine ⟨dots, dotted, ?_⟩
      rw [List.reverse_cons, filled_append_slash, same]
      exact List.append_nil _
  | case4 rest ih =>
      obtain ⟨dots, dotted, same⟩ := ih
      refine ⟨dots ++ ["."], by simpa [or_imp, forall_and] using dotted, ?_⟩
      rw [List.reverse_cons, filled_append_slash] at same
      rw [List.reverse_cons, List.reverse_cons, List.append_assoc, List.singleton_append, filled_append_slash,
        ← List.append_assoc, ← same]
      exact congrArg (· ++ _) (List.append_nil _).symm
  | case5 text other => exact ⟨[], by simp, (List.append_nil _).symm⟩

theorem exists_last_piece (text : List Char) :
    '/' ∉ text ∨ ∃ lead last, text = lead ++ '/' :: last ∧ '/' ∉ last := by
  obtain absent | ⟨part, rest, same, absent⟩ := exists_first_piece text.reverse
  · exact .inl (by simpa using absent)
  · refine .inr ⟨rest.reverse, part.reverse, ?_, by simpa using absent⟩
    rw [← List.reverse_reverse text, same]
    simp

/-! ## Paths that end in a name -/

/-- A path whose last piece is a name that stands for itself. -/
structure EndsIn (p : Path) (name : String) : Prop where
  proper : Proper name
  last : (pieces p.text.toList).getLast? = some name.toList

namespace EndsIn

theorem text_cases (ends : p.EndsIn name) :
    p.text.toList = name.toList ∨ ∃ lead, p.text.toList = lead ++ '/' :: name.toList := by
  have last := ends.last
  obtain absent | ⟨lead, piece, text, absent⟩ := exists_last_piece p.text.toList
  · rw [pieces_of_not_mem absent] at last
    exact .inl (Option.some.inj last)
  · rw [text, pieces_append_slash, pieces_of_not_mem absent, List.getLast?_concat] at last
    exact .inr ⟨lead, by rw [text, Option.some.inj last]⟩

theorem parent?_single (ends : p.EndsIn name) (text : p.text.toList = name.toList) :
    p.parent? = some Path.empty := by
  have whole := trimTail_of_proper ends.proper []
  rw [List.append_nil] at whole
  have absent := unslashed_reverse ends.proper
  rw [parent?, splitLast, text, whole]
  dsimp only
  rw [List.takeWhile_eq_self_iff.mpr absent, List.dropWhile_eq_nil_iff.mpr absent,
    if_neg (by simpa using ends.proper.toList_ne.1), trimTail]
  rfl

theorem parent?_behind (ends : p.EndsIn name) {lead : List Char}
    (text : p.text.toList = lead ++ '/' :: name.toList) :
    p.parent? = some (ofChars (trimTail ('/' :: lead.reverse)).reverse) := by
  have absent := unslashed_reverse ends.proper
  have backwards : p.text.toList.reverse = name.toList.reverse ++ '/' :: lead.reverse := by simp [text]
  rw [parent?, splitLast, backwards, trimTail_of_proper ends.proper]
  dsimp only
  rw [List.takeWhile_append_of_pos absent, List.dropWhile_append_of_pos absent,
    List.takeWhile_cons_of_neg (by simp), List.dropWhile_cons_of_neg (by simp), List.append_nil,
    if_neg (by simpa using ends.proper.toList_ne.1)]
  rfl

/-- A path is its parent and its last name, with slashes and dots between them. -/
theorem exists_parent (ends : p.EndsIn name) :
    ∃ above dots, p.parent? = some above ∧ (∀ dot ∈ dots, dot = ".") ∧
      filled p.text.toList = filled above.text.toList ++ (dots ++ [name]) ∧
      (above.text.isEmpty = true ∧ dots = [] ∧ p.isAbsolute = false ∨
        above.text.isEmpty = false ∧ above.isAbsolute = p.isAbsolute) := by
  obtain text | ⟨lead, text⟩ := ends.text_cases
  · refine ⟨Path.empty, [], ends.parent?_single text, by simp, ?_, .inl ⟨rfl, rfl, ?_⟩⟩
    · rw [text, filled_of_proper ends.proper]
      rfl
    · rw [isAbsolute, text, beq_eq_false_iff_ne]
      exact fun first => ends.proper.whole (List.mem_of_head? first)
  · obtain ⟨dots, dotted, same⟩ := exists_filled_trimTail ('/' :: lead.reverse)
    obtain ⟨away, split, -⟩ := exists_trimmed ('/' :: lead.reverse)
    have some_char : trimTail ('/' :: lead.reverse) ≠ [] := trimTail_ne_nil (by simp)
    refine ⟨_, dots, ends.parent?_behind text, dotted, ?_, .inr ⟨?_, ?_⟩⟩
    · rw [List.reverse_cons, List.reverse_reverse, filled_append_slash] at same
      rw [ofChars, String.toList_ofList, text, filled_append_slash, filled_of_proper ends.proper,
        ← List.append_assoc, ← same]
      exact congrArg (· ++ _) (List.append_nil _).symm
    · simpa [ofChars, ← Bool.not_eq_true, String.isEmpty_iff, ← String.toList_inj] using some_char
    · have front : lead ++ '/' :: name.toList =
          (trimTail ('/' :: lead.reverse)).reverse ++ (away.reverse ++ name.toList) := by
        rw [← List.append_assoc, ← List.reverse_append, ← split]
        simp
      rw [isAbsolute, isAbsolute, ofChars, String.toList_ofList, text, front,
        List.head?_append_of_ne_nil _ (by simpa using some_char)]

end EndsIn

/-! ## Ancestors -/

/-- A parent of a path, or a parent of its parent, and so on. -/
def Ancestor (p above : Path) : Prop := Relation.TransGen (fun p above => p.parent? = some above) p above

theorem ancestor_iff {next : Path} (parent : p.parent? = some next) :
    Ancestor p above ↔ above = next ∨ Ancestor next above := by
  rw [Ancestor, Relation.TransGen.head'_iff, parent]
  simp only [Option.some.injEq, exists_eq_left', Relation.reflTransGen_iff_eq_or_transGen]
  rfl

theorem not_ancestor (parent : p.parent? = none) : ¬Ancestor p above := by
  simp [Ancestor, Relation.TransGen.head'_iff, parent]

/-- A parent that is not empty ends in no slash, unless it is the root. -/
theorem parent?_open (parent : p.parent? = some above) :
    above.text.isEmpty = true ∨ above = ⟨"/"⟩ ∨ FileSystem.endsInSlash above = false := by
  unfold parent? at parent
  dsimp only at parent
  split at parent
  · cases parent
  · cases parent
    obtain empty | root | ⟨unslashed, -⟩ := trimTail_cases (splitLast p).2
    · exact .inl (by rw [empty]; rfl)
    · exact .inr (.inl (by rw [root]; rfl))
    · refine .inr (.inr ?_)
      rw [FileSystem.endsInSlash, String.toList_ofList, List.getLast?_reverse, beq_eq_false_iff_ne]
      intro first
      obtain ⟨rest, same⟩ := List.head?_eq_some_iff.mp first
      exact unslashed rest same

theorem length_parent? (parent : p.parent? = some above) : above.text.length < p.text.length := by
  have shorter (text : List Char) : (trimTail text).length ≤ text.length := by
    obtain ⟨away, split, -⟩ := exists_trimmed text
    rw [congrArg List.length split, List.length_append]
    omega
  have whole := List.takeWhile_append_dropWhile (p := (· != '/')) (l := trimTail p.text.toList.reverse)
  have bound := shorter p.text.toList.reverse
  unfold parent? at parent
  dsimp only at parent
  split at parent
  · cases parent
  case isFalse some_char =>
    cases parent
    have rest := shorter (splitLast p).2
    have last : 0 < (splitLast p).1.length := List.length_pos_iff.mpr (by simpa using some_char)
    rw [← congrArg List.length whole, List.length_append, List.length_reverse, String.length_toList] at bound
    rw [String.length_ofList, List.length_reverse]
    unfold splitLast at rest last
    dsimp only at rest last
    unfold splitLast
    dsimp only
    omega

/-- A path that ends in no slash ends in a name, if there are only names in it. -/
theorem exists_endsIn (filled_text : p.text.isEmpty = false) (open_end : FileSystem.endsInSlash p = false)
    (proper : ∀ name ∈ filled p.text.toList, Proper name) : ∃ name, p.EndsIn name := by
  have some_piece := List.getLast?_eq_some_getLast (FileSystem.pieces_ne_nil p.text.toList)
  generalize (pieces p.text.toList).getLast _ = last at some_piece
  have some_char : last ≠ [] := by
    rintro rfl
    obtain absent | ⟨lead, piece, text, absent⟩ := exists_last_piece p.text.toList
    · rw [pieces_of_not_mem absent] at some_piece
      have empty : p.text.toList = [] := Option.some.inj some_piece
      rw [← Bool.not_eq_true, String.isEmpty_iff, ← String.toList_inj, empty] at filled_text
      exact filled_text rfl
    · rw [text, pieces_append_slash, pieces_of_not_mem absent, List.getLast?_concat] at some_piece
      rw [FileSystem.endsInSlash, text, Option.some.inj some_piece, List.getLast?_concat] at open_end
      simp at open_end
  refine ⟨String.ofList last, proper _ (List.mem_filter.mpr ⟨?_, ?_⟩), by rw [some_piece, String.toList_ofList]⟩
  · exact List.mem_map_of_mem (List.mem_of_getLast? some_piece)
  · simpa [← String.toList_inj] using some_char

/-- A path without `.` and `..`. -/
def Dotless (p : Path) : Prop := ∀ part ∈ pieces p.text.toList, part ≠ ['.'] ∧ part ≠ ['.', '.']

instance (p : Path) : Decidable p.Dotless :=
  inferInstanceAs (Decidable (∀ part ∈ pieces p.text.toList, part ≠ ['.'] ∧ part ≠ ['.', '.']))

theorem Dotless.proper (dotless : p.Dotless) : ∀ name ∈ filled p.text.toList, Proper name := by
  intro name member
  obtain ⟨among, some_char⟩ := List.mem_filter.mp member
  obtain ⟨part, piece, rfl⟩ := List.mem_map.mp among
  obtain ⟨undotted, lower⟩ := dotless part piece
  refine ⟨by simpa using some_char, ?_, ?_, ?_⟩
  · simpa [← String.toList_inj] using undotted
  · simpa [← String.toList_inj] using lower
  · rw [String.toList_ofList]
    exact slash_not_mem_pieces _ part piece

/-- The ancestors of an absolute path without dots end in names, but for the root. -/
theorem Ancestor.endsIn (ancestor : Ancestor p above) (absolute : p.isAbsolute)
    (proper : ∀ name ∈ filled p.text.toList, Proper name) (ends : p.EndsIn name) :
    above = ⟨"/"⟩ ∨ ∃ name, above.EndsIn name := by
  have single {p above : Path} {name : String} (parent : p.parent? = some above) (absolute : p.isAbsolute)
      (proper : ∀ name ∈ filled p.text.toList, Proper name) (ends : p.EndsIn name) :
      above.isAbsolute ∧ (∀ name ∈ filled above.text.toList, Proper name) ∧
        (above = ⟨"/"⟩ ∨ ∃ name, above.EndsIn name) := by
    obtain ⟨_, dots, same, -, names, ⟨-, -, relative⟩ | ⟨some_char, rooted⟩⟩ := ends.exists_parent
    · rw [absolute] at relative
      cases relative
    · rw [parent] at same
      cases same
      have proper' : ∀ name ∈ filled above.text.toList, Proper name := fun name member =>
        proper name (by rw [names]; exact List.mem_append_left _ member)
      refine ⟨rooted.trans absolute, proper', ?_⟩
      obtain empty | root | open_end := parent?_open parent
      · rw [some_char] at empty
        cases empty
      · exact .inl root
      · exact .inr (exists_endsIn some_char open_end proper')
  unfold Ancestor at ancestor
  induction ancestor using Relation.TransGen.head_induction_on generalizing name with
  | single parent => exact (single parent absolute proper ends).2.2
  | head parent further ih =>
      obtain ⟨absolute', proper', root | ⟨name, ends'⟩⟩ := single parent absolute proper ends
      · rw [root] at further
        obtain ⟨next, first, -⟩ := Relation.TransGen.head'_iff.mp further
        simp [parent?, splitLast, trimTail] at first
      · exact ih absolute' proper' ends'

end Path

namespace FileSystem

/-- What is left to walk of a path are its names, and a dot behind a slash at the end. -/
theorem todo_cases (p : Path) :
    todo p = Path.filled p.text.toList ∨ todo p = Path.filled p.text.toList ++ ["."] := by
  rw [todo]
  split
  · exact .inr rfl
  · exact .inl (List.append_nil _)

theorem todo_of_endsIn {p : Path} {name : String} (ends : p.EndsIn name) :
    todo p = Path.filled p.text.toList := by
  have last : ((Path.pieces p.text.toList).map String.ofList).getLast? = some name := by
    rw [List.getLast?_map, ends.last, Option.map_some, String.ofList_toList]
  rw [todo, last, if_neg (by simpa using ends.proper.nonempty), List.append_nil]
  rfl

end FileSystem

end StaticSite
