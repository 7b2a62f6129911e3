import Mathlib.Data.List.Basic
import Mathlib.Data.List.TakeWhile
import StaticSite.Proofs.FileSystem.Spelling
import StaticSite.Proofs.FileSystem.Writing

/-!
Paths that are names with slashes between them, by themselves and below any base: taking such a path
apart gives its names back, whatever the names contain but slashes.
-/

namespace StaticSite.Path

/-- A name that stands for itself in a path. -/
structure Proper (name : String) : Prop where
  nonempty : name ≠ ""
  apart : name ≠ "."
  below : name ≠ ".."
  whole : '/' ∉ name.toList

theorem proper_iff {name : String} :
    Proper name ↔ name ≠ "" ∧ name ≠ "." ∧ name ≠ ".." ∧ '/' ∉ name.toList :=
  ⟨fun proper => ⟨proper.nonempty, proper.apart, proper.below, proper.whole⟩,
    fun ⟨nonempty, apart, below, whole⟩ => ⟨nonempty, apart, below, whole⟩⟩

instance (name : String) : Decidable (Proper name) := decidable_of_iff _ proper_iff.symm

/-- The relative path of names. -/
def ofNames (names : List String) : Path := ⟨"/".intercalate names⟩

/-- The text of names that go before another one. -/
def leading (names : List String) : List Char := names.flatMap fun name => name.toList ++ ['/']

variable {names : List String} {name : String}

theorem toList_ofNames (names : List String) :
    (ofNames names).text.toList = ['/'].intercalate (names.map String.toList) := by
  simp [ofNames, String.toList_intercalate]

theorem toList_ofNames_append (names : List String) (name : String) :
    (ofNames (names ++ [name])).text.toList = leading names ++ name.toList := by
  rw [toList_ofNames, leading]
  induction names with
  | nil => simp
  | cons first rest ih =>
      obtain ⟨next, others, same⟩ : ∃ next others, rest ++ [name] = next :: others :=
        List.exists_cons_of_ne_nil (by simp)
      rw [List.cons_append, List.map_cons, same, List.map_cons, List.intercalate_cons_cons,
        ← List.map_cons, ← same, ih]
      simp

/-- What leads to a name is nothing, or ends in a slash. -/
theorem leading_cases (names : List String) :
    names = [] ∧ leading names = [] ∨ ∃ front, leading names = front ++ ['/'] := by
  rcases List.eq_nil_or_concat names with rfl | ⟨front, last, rfl⟩
  · exact .inl ⟨rfl, rfl⟩
  · exact .inr ⟨leading front ++ last.toList, by simp [leading]⟩

theorem pieces_ofNames (some_name : names ≠ []) (proper : ∀ name ∈ names, Proper name) :
    pieces (ofNames names).text.toList = names.map String.toList := by
  rw [toList_ofNames]
  refine pieces_intercalate (by simpa using some_name) ?_
  intro part member
  obtain ⟨name, among, rfl⟩ := List.mem_map.mp member
  exact (proper name among).whole

/-- Names can be read back from their path. -/
theorem ofNames_injective {others : List String} (some_name : names ≠ []) (some_other : others ≠ [])
    (proper : ∀ name ∈ names, Proper name) (proper' : ∀ name ∈ others, Proper name)
    (same : ofNames names = ofNames others) : names = others := by
  have parts := pieces_ofNames some_name proper
  rw [same, pieces_ofNames some_other proper'] at parts
  have strings := congrArg (List.map String.ofList) parts
  simpa using strings.symm

theorem Proper.toList_ne (proper : Proper name) :
    name.toList ≠ [] ∧ name.toList ≠ ['.'] ∧ name.toList ≠ ['.', '.'] := by
  refine ⟨fun same => proper.nonempty ?_, fun same => proper.apart ?_, fun same => proper.below ?_⟩ <;>
    exact String.toList_inj.mp same

theorem steps_proper (proper : ∀ name ∈ names, Proper name) :
    steps (names.map String.toList) = names.map .name := by
  rw [steps, List.filter_eq_self.mpr, List.map_map]
  · refine List.map_congr_left fun name member => ?_
    rw [Function.comp_apply, if_neg (proper name member).toList_ne.2.2, String.ofList_toList]
  · intro part member
    obtain ⟨name, among, rfl⟩ := List.mem_map.mp member
    simp [(proper name among).toList_ne]

/-! ## Taking off the last name -/

/-- A text does not change when what follows its last name is trimmed, if nothing follows it. -/
theorem trimTail_of_proper (proper : Proper name) (front : List Char) :
    trimTail (name.toList.reverse ++ front) = name.toList.reverse ++ front := by
  have some_char : name.toList.reverse ≠ [] := by simpa using proper.toList_ne.1
  have absent : '/' ∉ name.toList.reverse := by simpa using proper.whole
  have undotted : name.toList.reverse ≠ ['.'] := fun same =>
    proper.toList_ne.2.1 (by simpa using congrArg List.reverse same)
  generalize name.toList.reverse = chars at *
  unfold trimTail
  split
  · exact Eq.symm ‹_›
  · rename_i same
    cases chars with
    | nil => exact absurd rfl some_char
    | cons c chars =>
        cases same
        simp at absent
  · rename_i same
    cases chars with
    | nil => exact absurd rfl some_char
    | cons c chars =>
        cases chars with
        | nil =>
            cases same
            exact absurd rfl undotted
        | cons d chars =>
            cases same
            simp at absent
  · rfl

theorem splitLast_ofNames (proper : Proper name) (names : List String) :
    splitLast (ofNames (names ++ [name])) = (name.toList.reverse, (leading names).reverse) := by
  have absent : ∀ c ∈ name.toList.reverse, (c != '/') = true := by
    intro c member
    rw [bne_iff_ne]
    rintro rfl
    exact proper.whole (by simpa using member)
  have stops : (leading names).reverse.takeWhile (· != '/') = [] ∧
      (leading names).reverse.dropWhile (· != '/') = (leading names).reverse := by
    obtain ⟨-, empty⟩ | ⟨front, ends⟩ := leading_cases names
    · simp [empty]
    · simp [ends]
  rw [splitLast, toList_ofNames_append, List.reverse_append, trimTail_of_proper proper]
  rw [List.takeWhile_append_of_pos absent, List.dropWhile_append_of_pos absent, stops.1, stops.2,
    List.append_nil]

theorem fileName?_ofNames (proper : Proper name) (names : List String) :
    (ofNames (names ++ [name])).fileName? = some name := by
  have distinct := proper.toList_ne
  have undotted : name.toList.reverse ≠ ['.'] := fun same =>
    distinct.2.1 (by simpa using congrArg List.reverse same)
  have lower : name.toList.reverse ≠ ['.', '.'] := fun same =>
    distinct.2.2 (by simpa using congrArg List.reverse same)
  rw [fileName?, splitLast_ofNames proper]
  dsimp only
  rw [if_neg (by simp [distinct, undotted, lower]), List.reverse_reverse, String.ofList_toList]

theorem isEmpty_reverse_toList (proper : Proper name) : name.toList.reverse.isEmpty = false := by
  simpa using proper.toList_ne.1

theorem trimTail_reverse_ofNames (proper : ∀ name ∈ names, Proper name) :
    trimTail (ofNames names).text.toList.reverse = (ofNames names).text.toList.reverse := by
  rcases List.eq_nil_or_concat names with rfl | ⟨front, last, rfl⟩
  · simp [ofNames, trimTail]
  · rw [List.concat_eq_append, toList_ofNames_append, List.reverse_append,
      trimTail_of_proper (proper last (by simp))]

theorem parent?_ofNames (proper : Proper name) (above : ∀ name ∈ names, Proper name) :
    (ofNames (names ++ [name])).parent? = some (ofNames names) := by
  rw [parent?, splitLast_ofNames proper]
  dsimp only
  rw [if_neg (by simp [isEmpty_reverse_toList proper])]
  rcases List.eq_nil_or_concat names with rfl | ⟨front, last, rfl⟩
  · simp [leading, ofNames, trimTail]
  · have last_proper := above last (by simp)
    have text : (leading (front.concat last)).reverse =
        '/' :: (last.toList.reverse ++ (leading front).reverse) := by simp [leading]
    have some_char : (last.toList.reverse ++ (leading front).reverse).isEmpty = false := by
      simp [last_proper.toList_ne.1]
    rw [text, trimTail, if_neg (by simp [some_char]), trimTail_of_proper last_proper,
      List.concat_eq_append, ← List.reverse_append, ← toList_ofNames_append, List.reverse_reverse,
      String.ofList_toList]

theorem isAbsolute_ofNames (proper : ∀ name ∈ names, Proper name) :
    (ofNames names).isAbsolute = false := by
  cases names with
  | nil => rfl
  | cons first rest =>
      have parts := pieces_ofNames (by simp) proper
      unfold isAbsolute
      cases text : (ofNames (first :: rest)).text.toList with
      | nil => rfl
      | cons c chars =>
          rw [text] at parts
          have different : c ≠ '/' := by
            rintro rfl
            rw [pieces, List.map_cons] at parts
            exact (proper first (by simp)).toList_ne.1 (List.cons.inj parts).1.symm
          simpa using different

/-! ## Extensions -/

/-- A name without its extension. -/
def stem (name : String) : String :=
  match cutExtension? name.toList.reverse with
  | some (_, stem) => String.ofList stem.reverse
  | none => name

/-- The extension of a name with its dot. -/
theorem cutExtension?_eq_some {chars extension stem : List Char}
    (cut : cutExtension? chars = some (extension, stem)) :
    chars = extension ++ '.' :: stem ∧ stem ≠ [] ∧ '.' ∉ extension := by
  unfold cutExtension? at cut
  split at cut
  · rename_i rest behind
    split at cut
    · cases cut
    · rename_i some_stem
      cases cut
      refine ⟨?_, by simpa using some_stem, ?_⟩
      · rw [← behind, List.takeWhile_append_dropWhile]
      · intro member
        simpa using List.mem_takeWhile_imp member
  · cases cut

/-- A name that does not begin with a dot is its stem, or its stem with an extension. -/
theorem stem_cases (name : String) :
    cutExtension? name.toList.reverse = none ∧ stem name = name ∨
      ∃ extension, name.toList = (stem name).toList ++ '.' :: extension ∧
        (stem name).toList ≠ [] ∧ '.' ∉ extension ∧
        cutExtension? name.toList.reverse = some (extension.reverse, (stem name).toList.reverse) := by
  cases cut : cutExtension? name.toList.reverse with
  | none => exact .inl ⟨rfl, by rw [stem, cut]⟩
  | some parts =>
      obtain ⟨extension, stem'⟩ := parts
      obtain ⟨whole, some_stem, undotted⟩ := cutExtension?_eq_some cut
      have same : (stem name).toList = stem'.reverse := by rw [stem, cut, String.toList_ofList]
      refine .inr ⟨extension.reverse, ?_, by rw [same]; simpa using some_stem, by simpa using undotted,
        by rw [same]; simp⟩
      have reversed := congrArg List.reverse whole
      simpa [same] using reversed

/-- A name of a file that is not hidden. -/
structure Visible (name : String) : Prop extends Proper name where
  undotted : name.toList.head? ≠ some '.'

theorem visible_of_toList {name : String} (some_char : name.toList ≠ []) (whole : '/' ∉ name.toList)
    (undotted : name.toList.head? ≠ some '.') : Visible name := by
  refine ⟨⟨?_, ?_, ?_, whole⟩, undotted⟩
  · rintro rfl
    exact some_char rfl
  · rintro rfl
    exact undotted rfl
  · rintro rfl
    exact undotted rfl

theorem Visible.stem (visible : Visible name) : Visible (stem name) := by
  obtain ⟨-, same⟩ | ⟨extension, whole, some_char, -, -⟩ := stem_cases name
  · rwa [same]
  · have absent := visible.whole
    have undotted := visible.undotted
    rw [whole] at absent undotted
    refine visible_of_toList some_char (fun member => absent (by simp [member])) ?_
    rwa [List.head?_append_of_ne_nil _ some_char] at undotted

theorem Visible.append (visible : Visible name) (more : String) (whole : '/' ∉ more.toList) :
    Visible (name ++ more) := by
  have some_char := visible.toList_ne.1
  refine visible_of_toList ?_ ?_ ?_
  · simp [some_char]
  · simp [visible.whole, whole]
  · rw [String.toList_append, List.head?_append_of_ne_nil _ some_char]
    exact visible.undotted

/-- An extension with its dot; the empty one is written without. -/
def dotted (extension : String) : String := if extension.isEmpty then "" else "." ++ extension

theorem toList_dotted (extension : String) :
    (dotted extension).toList = if extension.isEmpty then [] else '.' :: extension.toList := by
  unfold dotted
  split <;> simp

theorem ofList_eq_ofNames {text : List Char} {names : List String}
    (same : text = (ofNames names).text.toList) : (⟨String.ofList text⟩ : Path) = ofNames names := by
  rw [same, String.ofList_toList]

/-- What is left of a reversed name when its extension is cut off. -/
theorem toList_stem (name : String) :
    ((cutExtension? name.toList.reverse).elim name.toList.reverse Prod.snd).reverse =
      (stem name).toList := by
  unfold stem
  cases cutExtension? name.toList.reverse <;> simp

theorem setExtension_ofNames (proper : Proper name) (names : List String) (extension : String) :
    (ofNames (names ++ [name])).setExtension extension =
      ofNames (names ++ [stem name ++ dotted extension]) := by
  have kept := toList_stem name
  rw [setExtension, fileName?_ofNames proper, splitLast_ofNames proper, if_neg (by simp)]
  refine ofList_eq_ofNames ?_
  rw [toList_ofNames_append, String.toList_append, toList_dotted, ← kept]
  cases cutExtension? name.toList.reverse <;> dsimp only <;> split <;> simp

theorem stem_append_dot (some_char : name.toList ≠ []) : stem (name ++ ".") = name := by
  have cut : cutExtension? (name ++ ".").toList.reverse = some ([], name.toList.reverse) := by
    simp [cutExtension?, some_char]
  rw [stem, cut]
  simp

/-- Another extension takes the place of the last one of a name. -/
theorem withExtension_ofNames (visible : Visible name) (names : List String) (extension : String) :
    (ofNames (names ++ [name])).withExtension extension =
      ofNames (names ++ [stem name ++ dotted extension]) := by
  obtain ⟨uncut, -⟩ | ⟨old, whole, some_char, -, cut⟩ := stem_cases name
  · have none_old : (ofNames (names ++ [name])).extension? = none := by
      rw [extension?, fileName?_ofNames visible.toProper]
      simp [uncut]
    rw [withExtension, none_old]
    exact setExtension_ofNames visible.toProper names extension
  · have some_old : (ofNames (names ++ [name])).extension? = some (String.ofList old) := by
      rw [extension?, fileName?_ofNames visible.toProper]
      simp [cut]
    have shorter : (⟨String.ofList ((ofNames (names ++ [name])).text.toList.take
        ((ofNames (names ++ [name])).text.length - (String.ofList old).length))⟩ : Path) =
          ofNames (names ++ [stem name ++ "."]) := by
      have text : (ofNames (names ++ [name])).text.toList =
          (ofNames (names ++ [stem name ++ "."])).text.toList ++ old := by
        rw [toList_ofNames_append, toList_ofNames_append, whole]
        simp
      refine ofList_eq_ofNames ?_
      rw [← String.length_toList, text, List.take_left']
      simp
    rw [withExtension, some_old]
    dsimp only
    rw [shorter, setExtension_ofNames (visible.stem.append "." (by simp)).toProper,
      stem_append_dot some_char]

/-! ## Names below a base -/

/-- The text of a base that names follow. -/
def opening (base : Path) : List Char :=
  if base.text.isEmpty || base.text.toList.getLast? == some '/' then base.text.toList
  else base.text.toList ++ ['/']

theorem toList_join (base : Path) {rel : Path} (relative : rel.isAbsolute = false) :
    (base.join rel).text.toList = opening base ++ rel.text.toList := by
  unfold join opening
  rw [relative, if_neg (by simp)]
  split <;> simp

/-- A base is empty, or a text and a slash lead to what is below it. -/
theorem opening_cases (base : Path) :
    base.text.toList = [] ∧ opening base = [] ∨
      ∃ front, opening base = front ++ ['/'] ∧ base.text.toList ≠ [] ∧
        (base.text.toList = front ∨ base.text.toList = front ++ ['/']) := by
  unfold opening
  by_cases empty : base.text.toList = []
  · have isEmpty : base.text.isEmpty = true := by
      rw [String.isEmpty_iff, ← String.toList_inj]
      exact empty
    refine .inl ⟨empty, ?_⟩
    rw [isEmpty, Bool.true_or, if_pos rfl, empty]
  · have isEmpty : base.text.isEmpty = false := by
      rw [← Bool.not_eq_true, String.isEmpty_iff, ← String.toList_inj]
      exact empty
    rw [isEmpty, Bool.false_or]
    split
    · rename_i ends
      obtain ⟨front, same⟩ := List.getLast?_eq_some_iff.mp (beq_iff_eq.mp ends)
      exact .inr ⟨front, same, empty, .inr same⟩
    · exact .inr ⟨base.text.toList, rfl, empty, .inl rfl⟩

theorem pieces_append_slash (text rest : List Char) :
    pieces (text ++ '/' :: rest) = pieces text ++ pieces rest := by
  fun_induction pieces text with
  | case1 => rfl
  | case2 text ih => rw [List.cons_append, pieces, ih]; rfl
  | case3 c text different first more split ih =>
      rw [split] at ih
      rw [List.cons_append, pieces_cons different (ih.trans (List.cons_append ..))]
      rfl
  | case4 c text different split ih =>
      exact absurd split (FileSystem.pieces_ne_nil text)

theorem steps_append (parts more : List (List Char)) :
    steps (parts ++ more) = steps parts ++ steps more := by
  rw [steps, List.filter_append, List.map_append]
  rfl

theorem exists_first_piece (text : List Char) :
    '/' ∉ text ∨ ∃ part rest, text = part ++ '/' :: rest ∧ '/' ∉ part := by
  by_cases absent : '/' ∈ text
  · obtain ⟨part, rest, same, whole⟩ := List.eq_append_cons_of_mem absent
    exact .inr ⟨part, rest, same, whole⟩
  · exact .inl absent

theorem dropSteps_slash (count : Nat) (rest : List Char) :
    dropSteps count ('/' :: rest) = dropSteps count rest := by
  cases count <;> rw [dropSteps]

theorem dropSteps_dot (count : Nat) (rest : List Char) :
    dropSteps count ('.' :: '/' :: rest) = dropSteps count rest := by
  cases count <;> rw [dropSteps]

/-- A name is mistaken neither for a slash nor for a dot before one. -/
theorem append_ne_of_name {part : List Char} (some_char : part ≠ []) (undotted : part ≠ ['.'])
    (whole : '/' ∉ part) (rest more : List Char) :
    part ++ rest ≠ '/' :: more ∧ part ++ rest ≠ '.' :: '/' :: more := by
  cases part with
  | nil => exact absurd rfl some_char
  | cons c part =>
      refine ⟨fun same => ?_, fun same => ?_⟩
      · cases same
        simp at whole
      · cases part with
        | nil =>
            cases same
            exact undotted rfl
        | cons d part =>
            cases same
            simp at whole

theorem dropSteps_zero {part : List Char} (some_char : part ≠ []) (undotted : part ≠ ['.'])
    (whole : '/' ∉ part) (rest : List Char) : dropSteps 0 (part ++ rest) = part ++ rest := by
  have apart := append_ne_of_name some_char undotted whole rest
  rw [dropSteps.eq_def]
  dsimp only
  split
  · exact absurd ‹_› (apart _).1
  · exact absurd ‹_› (apart _).2
  · rename_i same
    cases part with
    | nil => exact absurd rfl some_char
    | cons c part =>
        obtain ⟨rfl, rest_nil⟩ := List.cons.inj same
        exact absurd (by rw [(List.append_eq_nil_iff.mp rest_nil).1]) undotted
  · rfl

theorem dropSteps_name {part : List Char} (some_char : part ≠ []) (undotted : part ≠ ['.'])
    (whole : '/' ∉ part) (count : Nat) (rest : List Char) :
    dropSteps (count + 1) (part ++ '/' :: rest) = dropSteps count rest := by
  have apart := append_ne_of_name some_char undotted whole ('/' :: rest)
  have named : ∀ c ∈ part, (c != '/') = true := by
    intro c member
    rw [bne_iff_ne]
    rintro rfl
    exact whole member
  rw [dropSteps.eq_def]
  dsimp only
  split
  · exact absurd ‹_› (apart _).1
  · exact absurd ‹_› (apart _).2
  · rw [List.dropWhile_append_of_pos named, List.dropWhile_cons_of_neg (by simp), dropSteps_slash]

/-- A piece of a text and the slash behind it make at most one step. -/
theorem dropSteps_piece {part : List Char} (whole : '/' ∉ part) (count : Nat) (rest : List Char) :
    dropSteps ((steps [part]).length + count) (part ++ '/' :: rest) = dropSteps count rest := by
  by_cases some_char : part = []
  · subst some_char
    rw [show (steps [[]]).length = 0 from rfl, Nat.zero_add]
    exact dropSteps_slash count rest
  by_cases undotted : part = ['.']
  · subst undotted
    rw [show (steps [['.']]).length = 0 from rfl, Nat.zero_add]
    exact dropSteps_dot count rest
  · have one : (steps [part]).length = 1 := by simp [steps, some_char, undotted]
    rw [one, Nat.add_comm]
    exact dropSteps_name some_char undotted whole count rest

/-- The steps of a text are dropped with it. -/
theorem dropSteps_append (text tail : List Char) :
    dropSteps (steps (pieces text)).length (text ++ '/' :: tail) = dropSteps 0 tail := by
  obtain ⟨n, bound⟩ : ∃ n, text.length < n := ⟨_, Nat.lt_succ_self _⟩
  induction n generalizing text with
  | zero => omega
  | succ n ih =>
      obtain whole | ⟨part, rest, rfl, whole⟩ := exists_first_piece text
      · rw [pieces_of_not_mem whole]
        exact dropSteps_piece whole 0 tail
      · have shorter : rest.length < n := by
          simp only [List.length_append, List.length_cons] at bound
          omega
        have more := steps_append [part] (pieces rest)
        rw [List.singleton_append] at more
        rw [pieces_append whole, more, List.length_append, List.append_assoc, List.cons_append,
          dropSteps_piece whole, ih rest shorter]

/-- A path in text. -/
def ofChars (text : List Char) : Path := ⟨String.ofList text⟩

theorem ofChars_toList (p : Path) : ofChars p.text.toList = p := by rw [ofChars, String.ofList_toList]

theorem components_root (rest : List Char) :
    (ofChars ('/' :: rest)).components = .root :: steps (pieces rest) :=
  components_of_isAbsolute (by simp [ofChars, isAbsolute]) (by simp [ofChars])

theorem components_current {text : List Char} {rest : List (List Char)}
    (split : pieces text = ['.'] :: rest) : (ofChars text).components = .current :: steps rest := by
  rw [components, ofChars, String.toList_ofList, split]
  rfl

theorem components_steps {text first : List Char} {rest : List (List Char)}
    (split : pieces text = first :: rest) (some_char : first ≠ []) (undotted : first ≠ ['.']) :
    (ofChars text).components = steps (first :: rest) := by
  rw [components, ofChars, String.toList_ofList, split]
  split
  · rename_i same; cases same
  · rename_i same; exact absurd (List.cons.inj same).1 some_char
  · rename_i same; exact absurd (List.cons.inj same).1 undotted
  · rfl

/-- The part of a text up to a slash, as the beginning of a path: a root or a dot of its own, if it has
one, and the steps behind it. -/
structure Leads (front : List Char) (first : List Component) (parts : List (List Char)) : Prop where
  components : ∀ tail, (ofChars (front ++ '/' :: tail)).components =
    first ++ steps parts ++ steps (pieces tail)
  alone : front ≠ [] → (ofChars front).components = first ++ steps parts
  begins : first = [.root] ∨ first = [.current] ∨ first = [] ∧ steps parts ≠ []
  dropped : ∀ tail, dropSteps (steps parts).length
    (if first = [.current] then (front ++ '/' :: tail).drop 1 else front ++ '/' :: tail) =
      dropSteps 0 tail

theorem leads_root (rest : List Char) : Leads ('/' :: rest) [.root] (pieces rest) where
  components tail := by
    rw [List.cons_append, components_root, pieces_append_slash, steps_append]
    rfl
  alone _ := components_root rest
  begins := .inl rfl
  dropped tail := by
    rw [if_neg (by simp), List.cons_append, dropSteps_slash, dropSteps_append]

theorem leads_current {rest : List Char} {more : List (List Char)} (split : pieces rest = [] :: more) :
    Leads ('.' :: rest) [.current] more where
  components tail := by
    have whole : pieces (('.' :: rest) ++ '/' :: tail) = ['.'] :: (more ++ pieces tail) := by
      rw [pieces_append_slash, pieces_cons (by decide) split]
      rfl
    rw [components_current whole, steps_append]
    rfl
  alone _ := components_current (pieces_cons (by decide) split)
  begins := .inr (.inl rfl)
  dropped tail := by
    rw [if_pos rfl, List.cons_append, List.drop_one, List.tail_cons]
    obtain whole | ⟨part, others, rfl, whole⟩ := exists_first_piece rest
    · rw [pieces_of_not_mem whole] at split
      obtain ⟨rfl, rfl⟩ := List.cons.inj split
      exact dropSteps_slash 0 tail
    · rw [pieces_append whole] at split
      obtain ⟨rfl, rfl⟩ := List.cons.inj split
      rw [List.nil_append, List.cons_append, dropSteps_slash, dropSteps_append]

theorem leads_steps {front first : List Char} {more : List (List Char)}
    (split : pieces front = first :: more) (some_char : first ≠ []) (undotted : first ≠ ['.']) :
    Leads front [] (pieces front) where
  components tail := by
    have whole : pieces (front ++ '/' :: tail) = first :: (more ++ pieces tail) := by
      rw [pieces_append_slash, split]
      rfl
    rw [components_steps whole some_char undotted, ← List.cons_append, ← split, steps_append]
    rfl
  alone _ := by
    rw [components_steps split some_char undotted, split]
    rfl
  begins := by
    refine .inr (.inr ⟨rfl, ?_⟩)
    rw [split]
    simp [steps, some_char, undotted]
  dropped tail := by rw [if_neg (by simp), dropSteps_append]

theorem leads_empty : Leads [] [.root] [] where
  components tail := components_root tail
  alone some_char := absurd rfl some_char
  begins := .inl rfl
  dropped tail := dropSteps_slash 0 tail

theorem exists_leads (front : List Char) : ∃ first parts, Leads front first parts := by
  cases front with
  | nil => exact ⟨_, _, leads_empty⟩
  | cons c rest =>
      by_cases root : c = '/'
      · subst root
        exact ⟨_, _, leads_root rest⟩
      obtain ⟨first, more, split⟩ := List.exists_cons_of_ne_nil (FileSystem.pieces_ne_nil rest)
      have whole := pieces_cons root split
      by_cases current : c :: first = ['.']
      · cases current
        exact ⟨_, _, leads_current split⟩
      · exact ⟨_, _, leads_steps whole (by simp) current⟩

/-- Steps are neither roots nor dots of their own. -/
theorem not_mem_steps (parts : List (List Char)) : .root ∉ steps parts ∧ .current ∉ steps parts := by
  constructor <;> intro member <;> obtain ⟨part, -, same⟩ := List.mem_map.mp member <;>
    split at same <;> cases same

theorem Leads.filter {front : List Char} {first : List Component} {parts : List (List Char)}
    (leads : Leads front first parts) :
    (first ++ steps parts).filter (fun c => c != .root && c != .current) = steps parts := by
  obtain ⟨unrooted, undotted⟩ := not_mem_steps parts
  have kept : (steps parts).filter (fun c => c != .root && c != .current) = steps parts := by
    rw [List.filter_eq_self]
    intro c member
    rw [Bool.and_eq_true, bne_iff_ne, bne_iff_ne]
    exact ⟨fun same => unrooted (same ▸ member), fun same => undotted (same ▸ member)⟩
  obtain rfl | rfl | ⟨rfl, -⟩ := leads.begins
  · exact kept
  · exact kept
  · exact kept

theorem Leads.head? {front : List Char} {first : List Component} {parts : List (List Char)}
    (leads : Leads front first parts) :
    ((first ++ steps parts).head? == some .current) = decide (first = [.current]) := by
  obtain rfl | rfl | ⟨rfl, some_step⟩ := leads.begins
  · rfl
  · rfl
  · obtain ⟨step, more, same⟩ := List.exists_cons_of_ne_nil some_step
    have undotted := (not_mem_steps parts).2
    rw [same] at undotted ⊢
    simpa using fun here => undotted (by simp [here])

theorem dropSteps_ofNames (some_name : names ≠ []) (proper : ∀ name ∈ names, Proper name) :
    dropSteps 0 (ofNames names).text.toList = (ofNames names).text.toList := by
  obtain ⟨first, rest, rfl⟩ := List.exists_cons_of_ne_nil some_name
  have first_proper := proper first (by simp)
  have begins : ∃ more, (ofNames (first :: rest)).text.toList = first.toList ++ more := by
    rw [toList_ofNames]
    cases rest with
    | nil => exact ⟨[], by simp⟩
    | cons next rest => exact ⟨_, by rw [List.map_cons, List.map_cons, List.intercalate_cons_cons,
        List.append_assoc]⟩
  obtain ⟨more, same⟩ := begins
  rw [same]
  exact dropSteps_zero first_proper.toList_ne.1 first_proper.toList_ne.2.1 first_proper.whole more

/-- What lies below a base has its names, as seen from the base. -/
theorem relativeTo_join (base : Path) (some_name : names ≠ []) (proper : ∀ name ∈ names, Proper name) :
    (base.join (ofNames names)).relativeTo base = ofNames names := by
  have relative := isAbsolute_ofNames proper
  have text := toList_join base relative
  have trimmed : (⟨String.ofList (trimTail (ofNames names).text.toList.reverse).reverse⟩ : Path) =
      ofNames names := by
    rw [trimTail_reverse_ofNames proper, List.reverse_reverse, String.ofList_toList]
  -- an empty base puts nothing in front; any other one ends in a slash there, and its own steps are dropped
  obtain ⟨empty, opens⟩ | ⟨front, opens, some_char, ends⟩ := opening_cases base
  · have bare : base.components = [] := by
      rw [← ofChars_toList base, empty]
      rfl
    rw [opens, List.nil_append] at text
    rw [relativeTo, stripPrefix?, bare, text]
    simp only [List.isPrefixOf_nil_left, List.isEmpty_nil, Bool.not_true, Bool.false_eq_true, if_false,
      if_true, Option.getD_some]
    exact trimmed
  · obtain ⟨first, parts, leads⟩ := exists_leads front
    have lead : base.components = first ++ steps parts := by
      rw [← ofChars_toList base]
      obtain same | same := ends
      · rw [same] at some_char ⊢
        exact leads.alone some_char
      · rw [same, leads.components []]
        exact List.append_nil _
    rw [opens, List.append_assoc, List.singleton_append] at text
    have whole : (base.join (ofNames names)).components =
        first ++ steps parts ++ steps (pieces (ofNames names).text.toList) := by
      rw [← ofChars_toList (base.join _), text, leads.components]
    have inside : (first ++ steps parts).isPrefixOf (base.join (ofNames names)).components = true := by
      rw [List.isPrefixOf_iff_prefix, whole]
      exact List.prefix_append _ _
    have some_lead : (first ++ steps parts).isEmpty = false := by
      obtain rfl | rfl | ⟨rfl, some_step⟩ := leads.begins
      · rfl
      · rfl
      · simpa using some_step
    rw [relativeTo, stripPrefix?, lead]
    simp only [inside, some_lead, Bool.not_true, Bool.false_eq_true, if_false, leads.filter, leads.head?,
      decide_eq_true_eq, text, leads.dropped, dropSteps_ofNames some_name proper, Option.getD_some]
    exact trimmed

theorem components_ofNames (proper : ∀ name ∈ names, Proper name) :
    (ofNames names).components = names.map .name := by
  cases names with
  | nil => rfl
  | cons first rest =>
      have distinct := (proper first (by simp)).toList_ne
      have split := pieces_ofNames (by simp) proper
      rw [← ofChars_toList (ofNames _), components_steps split distinct.1 distinct.2.1, ← List.map_cons,
        steps_proper proper]

/-- A slash follows a path that does not end in one. -/
theorem opening_of_chars {p : Path} {front last : List Char} (some_char : last ≠ []) (whole : '/' ∉ last)
    (text : p.text.toList = front ++ last) : opening p = p.text.toList ++ ['/'] := by
  have filled : p.text.isEmpty = false := by
    rw [← Bool.not_eq_true, String.isEmpty_iff, ← String.toList_inj, text]
    simp [some_char]
  have goesOn : (p.text.toList.getLast? == some '/') = false := by
    rw [text, List.getLast?_append_of_ne_nil _ some_char, beq_eq_false_iff_ne]
    exact fun ends => whole (List.mem_of_getLast? ends)
  rw [opening, filled, goesOn]
  simp

/-- A slash follows a path that ends with a name. -/
theorem opening_of_name {p : Path} {front : List Char} (proper : Proper name)
    (text : p.text.toList = front ++ name.toList) : opening p = p.text.toList ++ ['/'] :=
  opening_of_chars proper.toList_ne.1 proper.whole text

theorem toList_ofNames_singleton (name : String) : (ofNames [name]).text.toList = name.toList := by
  simp [toList_ofNames]

theorem isAbsolute_ofNames_singleton (proper : Proper name) : (ofNames [name]).isAbsolute = false :=
  isAbsolute_ofNames (by simpa using proper)

/-- One more name behind the names of a relative path. -/
theorem ofNames_join (proper : ∀ name ∈ names, Proper name) (named : Proper name) :
    (ofNames names).join (ofNames [name]) = ofNames (names ++ [name]) := by
  rw [Path.mk.injEq, ← String.toList_inj, toList_join _ (isAbsolute_ofNames_singleton named),
    toList_ofNames_append, toList_ofNames_singleton, List.append_cancel_right_eq]
  rcases List.eq_nil_or_concat names with rfl | ⟨front, last, rfl⟩
  · rfl
  · rw [List.concat_eq_append, opening_of_name (proper last (by simp)) (toList_ofNames_append ..),
      toList_ofNames_append]
    simp [leading]

end StaticSite.Path
