import StaticSite.Proofs.FileSystem.Reading

/-!
Spellings of one absolute path. `Path.plain` depends on the components of a path alone, and it leads to
whatever the path leads to: repeated slashes, `.` and a slash at the end can only make a walk fail.
-/

namespace StaticSite

namespace Path

/-! ## Pieces -/

theorem slash_not_mem_pieces (text : List Char) : ∀ part ∈ pieces text, '/' ∉ part := by
  fun_induction pieces text with
  | case1 => simp
  | case2 rest ih => simpa using ih
  | case3 c rest different first more split ih =>
      rw [split] at ih
      intro part member
      rcases List.mem_cons.mp member with rfl | member
      · have absent := ih first (by simp)
        simp only [List.mem_cons, not_or]
        exact ⟨fun same => different same.symm, absent⟩
      · exact ih part (by simp [member])
  | case4 c rest different split ih => simpa using fun same : '/' = c => different same.symm

theorem pieces_cons {c : Char} (different : c ≠ '/') {text first : List Char} {more : List (List Char)}
    (split : pieces text = first :: more) : pieces (c :: text) = (c :: first) :: more := by
  unfold pieces
  split <;> simp_all

theorem pieces_of_not_mem {part : List Char} (absent : '/' ∉ part) : pieces part = [part] := by
  induction part with
  | nil => rfl
  | cons c part ih =>
      simp only [List.mem_cons, not_or] at absent
      exact pieces_cons (Ne.symm absent.1) (ih absent.2)

theorem pieces_append {part : List Char} (absent : '/' ∉ part) (rest : List Char) :
    pieces (part ++ '/' :: rest) = part :: pieces rest := by
  induction part with
  | nil => rfl
  | cons c part ih =>
      simp only [List.mem_cons, not_or] at absent
      exact pieces_cons (Ne.symm absent.1) (ih absent.2)

theorem pieces_intercalate {parts : List (List Char)} (some_part : parts ≠ [])
    (absent : ∀ part ∈ parts, '/' ∉ part) : pieces (['/'].intercalate parts) = parts := by
  induction parts with
  | nil => exact absurd rfl some_part
  | cons part rest ih =>
      cases rest with
      | nil => simpa using pieces_of_not_mem (absent part (by simp))
      | cons next rest =>
          have others := ih (by simp) fun part member => absent part (by simp [member])
          rw [List.intercalate_cons_cons, List.append_assoc, List.singleton_append,
            pieces_append (absent part (by simp)), others]

/-! ## The plain spelling -/

/-- The names in an absolute path. -/
def names (p : Path) : List String := p.components.tail.map Component.text

def plain (p : Path) : Path := Location.path p.names

theorem plain_eq_of_same {p q : Path} (same : p.same q) : p.plain = q.plain := by
  rw [plain, plain, names, names, eq_of_beq same]

theorem exists_of_isAbsolute {p : Path} (absolute : p.isAbsolute) :
    ∃ rest, p.text.toList = '/' :: rest := by
  unfold isAbsolute at absolute
  cases chars : p.text.toList with
  | nil => simp [chars] at absolute
  | cons c rest => exact ⟨rest, by simpa [chars] using absolute⟩

theorem components_of_isAbsolute {p : Path} (absolute : p.isAbsolute) {rest : List Char}
    (chars : p.text.toList = '/' :: rest) : p.components = .root :: steps (pieces rest) := by
  rw [components, chars, pieces]
  simp [absolute]

theorem text_steps (parts : List (List Char)) :
    (steps parts).map Component.text =
      (parts.filter fun part => part != [] && part != ['.']).map String.ofList := by
  rw [steps, List.map_map]
  apply List.map_congr_left
  intro part _
  rw [Function.comp_apply]
  split
  case isTrue parent => rw [parent]; rfl
  case isFalse => rfl

theorem slash_not_mem_name {p : Path} (absolute : p.isAbsolute) {name : String} (member : name ∈ p.names) :
    '/' ∉ name.toList ∧ name ≠ "" ∧ name ≠ "." := by
  obtain ⟨rest, chars⟩ := exists_of_isAbsolute absolute
  rw [names, components_of_isAbsolute absolute chars, List.tail_cons, text_steps] at member
  obtain ⟨part, kept, rfl⟩ := List.mem_map.mp member
  obtain ⟨piece, proper⟩ := List.mem_filter.mp kept
  rw [String.toList_ofList]
  refine ⟨slash_not_mem_pieces rest part piece, ?_, ?_⟩ <;> rintro same <;>
    simp [← String.toList_inj] at same <;> simp [same] at proper

/-! ## Absolute paths -/

theorem isAbsolute_join {base : Path} (absolute : base.isAbsolute) (rel : Path) :
    (base.join rel).isAbsolute := by
  obtain ⟨rest, chars⟩ := exists_of_isAbsolute absolute
  unfold join
  split
  · assumption
  · split <;> simp [isAbsolute, chars]

theorem isAbsolute_pushAll {base : Path} (absolute : base.isAbsolute) (components : List Component) :
    (components.foldl push base).isAbsolute := by
  induction components generalizing base with
  | nil => exact absolute
  | cons component rest ih => exact ih (isAbsolute_join absolute _)

theorem stripPrefix?_dot {p : Path} (absolute : p.isAbsolute) : p.stripPrefix? ⟨"."⟩ = none := by
  obtain ⟨rest, chars⟩ := exists_of_isAbsolute absolute
  have dot : components ⟨"."⟩ = [.current] := rfl
  simp [stripPrefix?, components_of_isAbsolute absolute chars, dot]

theorem isAbsolute_absolute (p : Path) {here : Path} (there : here.isAbsolute) :
    (p.absolute here).isAbsolute := by
  have tidied (tidy : Path) (absolute : tidy.isAbsolute) (cond : Bool) :
      (if cond then tidy.join empty else tidy).isAbsolute := by
    cases cond
    · exact absolute
    · exact isAbsolute_join absolute empty
  apply tidied
  cases absolute : p.isAbsolute with
  | false => exact isAbsolute_pushAll there _
  | true =>
      obtain ⟨rest, chars⟩ := exists_of_isAbsolute absolute
      simp only [Bool.not_true, Bool.false_eq_true, if_false]
      split
      · exact isAbsolute_pushAll rfl _
      · rw [stripPrefix?_dot absolute, Option.getD_none, components_of_isAbsolute absolute chars,
          if_neg (by decide), List.foldl_cons]
        exact isAbsolute_pushAll rfl _

theorem isAbsolute_location (location : Location) : location.path.isAbsolute := by
  simp [Location.path, isAbsolute]

end Path

namespace FileSystem

/-! ## Walks with fewer dots -/

/-- Names of which some `.` were left out. -/
inductive Undotted : List String → List String → Prop
  | nil : Undotted [] []
  | keep (name : String) {names fewer : List String} :
    Undotted names fewer → Undotted (name :: names) (name :: fewer)
  | drop {names fewer : List String} : Undotted names fewer → Undotted ("." :: names) fewer

theorem Undotted.append (first : List String) {names fewer : List String}
    (undotted : Undotted names fewer) : Undotted (first ++ names) (first ++ fewer) := by
  induction first with
  | nil => exact undotted
  | cons name first ih => exact .keep name ih

theorem undotted_filter (names : List String) : Undotted names (names.filter (· != ".")) := by
  induction names with
  | nil => exact .nil
  | cons name names ih =>
      by_cases dot : name = "."
      · rw [List.filter_cons_of_neg (by simp [dot]), dot]
        exact .drop ih
      · rw [List.filter_cons_of_pos (by simp [dot])]
        exact .keep name ih

/-- How a walk ends that has fewer dots on its way than one that does not fail. -/
def Leg.Follows : Leg → Leg → Prop
  | .reached location, other => other = .reached location
  | .link directory target rest, other =>
    ∃ fewer, Undotted rest fewer ∧ other = .link directory target fewer
  | .failed _, _ => True

theorem leg_undotted (fs : FileSystem) {names fewer : List String} (undotted : Undotted names fewer)
    (directory : Location) :
    (fs.leg true directory names).Follows (fs.leg true directory fewer) := by
  induction undotted generalizing directory with
  | nil => exact rfl
  | drop undotted ih =>
      rw [leg]
      cases fs.get? directory with
      | none => trivial
      | some entry =>
          cases entry with
          | directory modified => exact ih directory
          | file content modified => trivial
          | link target => trivial
  | @keep name names fewer undotted ih =>
      have last : names = [] → fewer = [] := by
        rintro rfl
        cases undotted
        rfl
      rw [leg, leg]
      cases fs.get? directory with
      | none => trivial
      | some entry =>
          cases entry with
          | file content modified => trivial
          | link target => trivial
          | directory modified =>
              dsimp only
              split
              · exact ih directory
              split
              · exact ih directory.dropLast
              cases fs.get? (directory ++ [name]) with
              | none =>
                  dsimp only
                  split
                  case isTrue ends => rw [if_pos (last ends)]; rfl
                  case isFalse => trivial
              | some entry =>
                  cases entry with
                  | directory modified => exact ih (directory ++ [name])
                  | file content modified =>
                      dsimp only
                      split
                      case isTrue ends => rw [if_pos (last ends)]; rfl
                      case isFalse => trivial
                  | link target => simpa [Leg.Follows] using undotted

theorem walkFrom_undotted (fs : FileSystem) (links : Nat) (directory : Location)
    {names fewer : List String} (undotted : Undotted names fewer) {location : Location}
    (walked : fs.walkFrom true links directory names = .ok location) :
    fs.walkFrom true links directory fewer = .ok location := by
  have follows := fs.leg_undotted undotted directory
  fun_induction walkFrom fs true links directory names generalizing fewer with
  | case1 links directory names there went =>
      rw [went] at follows
      rw [walkFrom, show fs.leg true directory fewer = .reached there from follows]
      exact walked
  | case2 links directory names error went => cases walked
  | case3 directory names standing target rest went => cases walked
  | case4 directory names standing target rest went links nowhere => cases walked
  | case5 directory names standing target rest went links somewhere ih =>
      rw [went] at follows
      obtain ⟨rest', undotted, same⟩ := follows
      rw [walkFrom, same]
      dsimp only
      rw [if_neg somewhere]
      have undotted := undotted.append (todo target)
      exact ih undotted walked (fs.leg_undotted undotted _)

theorem beq_ofList (part : List Char) (text : String) :
    (String.ofList part == text) = (part == text.toList) := by
  rw [Bool.eq_iff_iff, beq_iff_eq, beq_iff_eq, ← String.toList_inj, String.toList_ofList]

theorem todo_filter {p : Path} (absolute : p.isAbsolute) : (todo p).filter (· != ".") = p.names := by
  obtain ⟨rest, chars⟩ := Path.exists_of_isAbsolute absolute
  have dot : (if (([] :: Path.pieces rest).map String.ofList).getLast? == some "" then ["."] else []).filter
      (· != ".") = [] := by
    split <;> rfl
  rw [Path.names, Path.components_of_isAbsolute absolute chars, List.tail_cons, Path.text_steps, todo,
    chars, Path.pieces]
  rw [List.filter_append, dot, List.append_nil, List.filter_filter, List.filter_map]
  rw [List.filter_cons_of_neg (by simp)]
  congr 2
  funext part
  rw [Function.comp_apply, Bool.and_comm]
  simp only [bne, beq_ofList]
  rfl

theorem todo_plain {p : Path} (absolute : p.isAbsolute) (some_name : p.names ≠ []) :
    todo p.plain = p.names := by
  have proper (name : String) (member : name ∈ p.names) := Path.slash_not_mem_name absolute member
  have chars : p.plain.text.toList = '/' :: ['/'].intercalate (p.names.map String.toList) := by
    simp [Path.plain, Location.path, String.toList_intercalate]
  have split : (Path.pieces p.plain.text.toList).map String.ofList = "" :: p.names := by
    rw [chars, Path.pieces, Path.pieces_intercalate]
    · simp
    · simpa using some_name
    · intro part member
      obtain ⟨name, among, rfl⟩ := List.mem_map.mp member
      exact (proper name among).1
  have nonempty : ("" :: p.names).filter (· != "") = p.names := by
    rw [List.filter_cons_of_neg (by simp), List.filter_eq_self]
    exact fun name member => by simpa using (proper name member).2.1
  have last : (("" :: p.names).getLast? == some "") = false := by
    rw [List.getLast?_cons, List.getLast?_eq_some_getLast some_name, Option.getD_some]
    simpa using (proper _ (List.getLast_mem some_name)).2.1
  rw [todo, split, last, nonempty]
  simp

theorem isEmpty_text {p : Path} (absolute : p.isAbsolute) : p.text.isEmpty = false := by
  obtain ⟨rest, chars⟩ := Path.exists_of_isAbsolute absolute
  rw [← Bool.not_eq_true, String.isEmpty_iff, ← String.toList_inj, chars]
  simp

theorem walk_names {fs : FileSystem} {p : Path} (absolute : p.isAbsolute) {location : Location}
    (walked : fs.walk true p = .ok location) :
    fs.walkFrom true maxLinks [] p.names = .ok location := by
  rw [walk, isEmpty_text absolute, if_pos absolute] at walked
  refine fs.walkFrom_undotted _ _ ?_ walked
  rw [← todo_filter absolute]
  exact undotted_filter _

/-- The plain spelling of a path leads to whatever the path leads to. -/
theorem find_plain {fs : FileSystem} {p : Path} (absolute : p.isAbsolute) (some_name : p.names ≠ [])
    {location : Location} {entry : Entry} (finds : fs.find true p = .ok (location, entry)) :
    fs.find true p.plain = .ok (location, entry) := by
  obtain ⟨walked, known⟩ := find_eq_ok_iff.mp finds
  have plainly : p.plain.isAbsolute := Path.isAbsolute_location _
  have same : fs.walk true p.plain = .ok location := by
    rw [walk, isEmpty_text plainly, if_pos plainly, todo_plain absolute some_name]
    exact walk_names absolute walked
  exact find_eq_ok_iff.mpr ⟨same, known⟩

/-- A path that leads to a file has a name. -/
theorem names_ne_nil {fs : FileSystem} {p : Path} (absolute : p.isAbsolute) {location : Location}
    {content : Bytes} {time : Time} (finds : fs.find true p = .ok (location, .file content time)) :
    p.names ≠ [] := by
  intro nameless
  obtain ⟨walked, known⟩ := find_eq_ok_iff.mp finds
  have atRoot := walk_names absolute walked
  rw [nameless] at atRoot
  cases atRoot
  simp [get?] at known

end FileSystem

end StaticSite
