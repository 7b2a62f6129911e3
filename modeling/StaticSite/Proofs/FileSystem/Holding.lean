import StaticSite.Proofs.FileSystem.Linking
import StaticSite.Proofs.Path.Parents

/-!
The directory that holds a path. A path that ends in a name leads to that name in the directory that its parent
leads to, however the path is spelled. A parent that is missing can be made, and directories come to be at missing
ancestors only.
-/

namespace StaticSite.FileSystem

open Path (filled EndsIn Ancestor)

variable {fs mid after : FileSystem} {follow : Bool} {p above : Path} {name : String} {names rest dots : List String}
  {directory standing place location : Location} {links : Nat}

/-! ## Walks over dots -/

/-- Where the walk of a path begins. -/
def start (fs : FileSystem) (p : Path) : Location := if p.isAbsolute then [] else fs.workingDirectory

theorem walk_eq (some_char : p.text.isEmpty = false) (fs : FileSystem) (follow : Bool) :
    fs.walk follow p = fs.walkFrom follow maxLinks (fs.start p) (todo p) := by
  rw [walk, if_neg (by simp [some_char])]
  rfl

theorem isEmpty_of_walk (walked : fs.walk follow p = .ok place) : p.text.isEmpty = false := by
  rw [walk] at walked
  split at walked
  · cases walked
  case isFalse some_char => simpa using some_char

theorem walkFrom_dots (known : fs.IsDirectory directory) (dotted : ∀ dot ∈ dots, dot = ".") (follow : Bool)
    (links : Nat) : fs.walkFrom follow links directory (dots ++ rest) = fs.walkFrom follow links directory rest := by
  have same : fs.leg follow directory (dots ++ rest) = fs.leg follow directory rest := by
    induction dots with
    | nil => rfl
    | cons dot dots ih =>
        obtain ⟨time, there⟩ := known
        rw [List.cons_append, leg, there]
        dsimp only
        rw [if_pos (dotted dot (by simp))]
        exact ih fun other member => dotted other (by simp [member])
  rw [walkFrom.eq_def, same, ← walkFrom.eq_def]

/-- A dot behind the way to a directory makes no difference. -/
theorem walkFrom_dot (known : fs.IsDirectory directory) :
    fs.walkFrom true links standing (names ++ ["."]) = .ok directory ↔
      fs.walkFrom true links standing names = .ok directory := by
  have stays (links : Nat) {directory : Location} (known : fs.IsDirectory directory) :
      fs.walkFrom true links directory ["."] = .ok directory := by
    have same : fs.walkFrom true links directory (["."] ++ []) = fs.walkFrom true links directory [] :=
      walkFrom_dots known (by simp) true links
    rw [List.append_nil] at same
    rw [same, walkFrom.eq_def, leg]
  constructor
  · intro walked
    obtain ⟨front, walked', known'⟩ := exists_walkFrom_front (by simp) walked
    obtain ⟨links', same⟩ := walkFrom_append (List.cons_ne_nil "." []) walked' known'
    rw [same, stays links' known'] at walked
    rwa [← Except.ok.inj walked]
  · intro walked
    obtain ⟨links', same⟩ := walkFrom_append (List.cons_ne_nil "." []) walked known
    rw [same, stays links' known]

theorem walk_iff_filled (some_char : p.text.isEmpty = false) (known : fs.IsDirectory directory) :
    fs.walk true p = .ok directory ↔
      fs.walkFrom true maxLinks (fs.start p) (filled p.text.toList) = .ok directory := by
  rw [walk_eq some_char]
  obtain same | same := todo_cases p
  · rw [same]
  · rw [same, walkFrom_dot known]

/-! ## The directory that holds a path -/

/-- A directory is the one in which the last name of a path lies. -/
def Holds (fs : FileSystem) (directory : Location) (p : Path) : Prop :=
  fs.IsDirectory directory ∧ ∃ above, p.parent? = some above ∧
    (above.text.isEmpty = true ∧ directory = fs.workingDirectory ∨
      above.text.isEmpty = false ∧ fs.walk true above = .ok directory)

theorem isEmpty_of_endsIn (ends : p.EndsIn name) : p.text.isEmpty = false := by
  rw [← Bool.not_eq_true, String.isEmpty_iff]
  intro empty
  have last := ends.last
  rw [empty] at last
  exact ends.proper.toList_ne.1 (Option.some.inj last).symm

/-- The names of a path lead to the directory that holds it, and then to the last name in it. -/
theorem exists_todo (ends : p.EndsIn name) :
    ∃ front dots, (∀ dot ∈ dots, dot = ".") ∧ todo p = front ++ (dots ++ [name]) ∧
      ∀ fs directory, Holds fs directory p ↔
        fs.IsDirectory directory ∧ fs.walkFrom true maxLinks (fs.start p) front = .ok directory := by
  obtain ⟨above, dots, parent, dotted, names, behind⟩ := ends.exists_parent
  refine ⟨filled above.text.toList, dots, dotted, (todo_of_endsIn ends).trans names, fun fs directory => ?_⟩
  rw [Holds, parent]
  refine and_congr_right fun known => ?_
  simp only [Option.some.injEq, exists_eq_left']
  obtain ⟨empty, -, relative⟩ | ⟨some_char, rooted⟩ := behind
  · have begins : fs.walkFrom true maxLinks (fs.start p) (filled above.text.toList) = .ok fs.workingDirectory := by
      rw [String.isEmpty_iff.mp empty, start, relative]
      rw [walkFrom.eq_def]
      rfl
    simp [empty, begins, eq_comm]
  · have same : fs.start above = fs.start p := by rw [start, start, rooted]
    rw [walk_iff_filled some_char known, same]
    simp [some_char]

theorem Holds.exists_walk (ends : p.EndsIn name) (holds : fs.Holds directory p) :
    ∃ links, ∀ follow, fs.walk follow p = fs.walkFrom follow links directory [name] := by
  obtain ⟨front, dots, dotted, names, iff⟩ := exists_todo ends
  obtain ⟨known, walked⟩ := (iff fs directory).mp holds
  have goesOn : dots ++ [name] ≠ [] := by simp
  obtain ⟨links, same⟩ := walkFrom_append goesOn walked known
  refine ⟨links, fun follow => ?_⟩
  rw [walk_eq (isEmpty_of_endsIn ends), names, same, walkFrom_dots known dotted]

/-- A path leads to its last name, unless a link stands there that is followed. -/
theorem Holds.walk (ends : p.EndsIn name) (holds : fs.Holds directory p)
    (unlinked : follow = true → ∀ target, fs.get? (directory ++ [name]) ≠ some (.link target)) :
    fs.walk follow p = .ok (directory ++ [name]) := by
  obtain ⟨links, same⟩ := holds.exists_walk ends
  obtain ⟨time, known⟩ := holds.1
  rw [same, walkFrom.eq_def, leg, known]
  dsimp only
  rw [if_neg ends.proper.apart, if_neg ends.proper.below]
  cases there : fs.get? (directory ++ [name]) with
  | none => rfl
  | some entry =>
      cases entry with
      | directory time => rfl
      | file content time => rfl
      | link target =>
          cases follow with
          | false => rfl
          | true => exact absurd there (unlinked rfl target)

/-- Nothing stands where a path leads that nothing has the name of. -/
theorem Holds.absent (holds : fs.Holds directory p) (ends : p.EndsIn name)
    (absent : ∀ found, fs.find false p ≠ .ok found) : fs.get? (directory ++ [name]) = none := by
  cases known : fs.get? (directory ++ [name]) with
  | none => rfl
  | some entry => exact absurd (find_eq_ok_iff.mpr ⟨holds.walk ends (by simp), known⟩) (absent _)

theorem exists_holds (ends : p.EndsIn name) (walked : fs.walk follow p = .ok place) :
    ∃ directory, fs.Holds directory p := by
  obtain ⟨front, dots, -, names, iff⟩ := exists_todo ends
  rw [walk_eq (isEmpty_of_endsIn ends), names] at walked
  obtain ⟨directory, walked, known⟩ := exists_walkFrom_front (by simp) walked
  exact ⟨directory, (iff fs directory).mpr ⟨known, walked⟩⟩

/-- A path that is walked without following its last name leads to that name in the directory that holds it. -/
theorem exists_holds_of_walk (ends : p.EndsIn name) (walked : fs.walk false p = .ok place) :
    ∃ directory, fs.Holds directory p ∧ place = directory ++ [name] := by
  obtain ⟨directory, holds⟩ := exists_holds ends walked
  refine ⟨directory, holds, ?_⟩
  rw [holds.walk ends (by simp)] at walked
  exact (Except.ok.inj walked).symm

/-! ## Parents that are missing -/

/-- A walk fails as its front does, and it fails behind a place where nothing is. -/
theorem leg_behind (orderly : fs.Orderly) (goesOn : rest ≠ []) (known : fs.IsDirectory directory)
    (names : List String) (follow : Bool) :
    match fs.leg false directory names with
    | .reached location => fs.get? location = none → fs.leg follow directory (names ++ rest) = .failed .notFound
    | .failed error => fs.leg follow directory (names ++ rest) = .failed error
    | .link standing target behind => fs.leg follow directory (names ++ rest) = .link standing target (behind ++ rest) := by
  fun_induction leg fs false directory names with
  | case1 directory =>
      intro missing
      obtain ⟨time, there⟩ := known
      rw [missing] at there
      cases there
  | case2 directory names time there ih =>
      rw [List.cons_append, leg, there]
      exact ih known
  | case3 directory names time there undotted ih =>
      rw [List.cons_append, leg, there]
      exact ih (orderly.isDirectory_dropLast known)
  | case4 directory name time there undotted lower absent =>
      intro _
      rw [List.cons_append, leg, there]
      simp [undotted, lower, absent, goesOn]
  | case5 directory name names time there undotted lower absent more =>
      rw [List.cons_append, leg, there]
      simp [undotted, lower, absent, goesOn]
  | case6 directory name names time there undotted lower below there' ih =>
      rw [List.cons_append, leg, there]
      dsimp only
      rw [if_neg undotted, if_neg lower, there']
      exact ih ⟨below, there'⟩
  | case7 directory name time there undotted lower content below file =>
      intro missing
      rw [file] at missing
      cases missing
  | case8 directory name names time there undotted lower content below file more =>
      rw [List.cons_append, leg, there]
      simp [undotted, lower, file, goesOn]
  | case9 directory name names time there undotted lower target link ends =>
      intro missing
      rw [link] at missing
      cases missing
  | case10 directory name names time there undotted lower target link ends =>
      rw [List.cons_append, leg, there]
      simp [undotted, lower, link, goesOn]
  | case11 directory name names other =>
      obtain ⟨time, there⟩ := known
      exact absurd there (other time)

theorem walkFrom_behind (orderly : fs.Orderly) (goesOn : rest ≠ []) (known : fs.IsDirectory standing)
    (missing : fs.walkFrom false links standing names = .error .notFound ∨
      ∃ place, fs.walkFrom false links standing names = .ok place ∧ fs.get? place = none) (follow : Bool) :
    fs.walkFrom follow links standing (names ++ rest) = .error .notFound := by
  have ends := orderly.leg_ends false (show names ≠ [] ∨ fs.IsDirectory standing from .inr known)
  have goes := leg_behind orderly goesOn known names follow
  fun_induction walkFrom fs false links standing names with
  | case1 links standing names reached went =>
      rw [went] at goes
      obtain failed | ⟨place, same, absent⟩ := missing
      · cases failed
      · cases same
        rw [walkFrom.eq_def, goes absent]
  | case2 links standing names error went =>
      rw [went] at goes
      obtain failed | ⟨place, same, -⟩ := missing
      · cases failed
        rw [walkFrom.eq_def, goes]
      · cases same
  | case3 standing names met target behind went => simp at missing
  | case4 standing names met target behind went links nowhere =>
      rw [went] at goes
      rw [walkFrom.eq_def, goes]
      simp [nowhere]
  | case5 standing names met target behind went links somewhere ih =>
      rw [went] at goes ends
      have known' : fs.IsDirectory (if target.isAbsolute then [] else met) := by
        split
        · exact fs.isDirectory_root
        · exact ends
      rw [walkFrom.eq_def, goes]
      dsimp only
      rw [if_neg somewhere, ← List.append_assoc]
      exact ih known' missing (orderly.leg_ends false (.inr known'))
        (leg_behind orderly goesOn known' (todo target ++ behind) follow)

theorem missing_of_find (absent : fs.find false p = .error .notFound) :
    fs.walk false p = .error .notFound ∨ ∃ place, fs.walk false p = .ok place ∧ fs.get? place = none := by
  unfold find at absent
  cases walked : fs.walk false p with
  | error error =>
      rw [walked] at absent
      cases absent
      exact .inl rfl
  | ok place =>
      rw [walked] at absent
      simp only [bind, Except.bind] at absent
      cases known : fs.get? place with
      | none => exact .inr ⟨place, rfl, known⟩
      | some entry =>
          rw [known] at absent
          cases absent

/-- A path whose parent is missing leads nowhere. -/
theorem walk_of_missing (orderly : fs.Orderly) (ends : p.EndsIn name) (parent : p.parent? = some above)
    (endsAbove : ∃ name, above.EndsIn name) (absent : fs.find false above = .error .notFound) (follow : Bool) :
    fs.walk follow p = .error .notFound := by
  obtain ⟨name', ends'⟩ := endsAbove
  have some_char := isEmpty_of_endsIn ends'
  obtain ⟨_, dots, same, -, names, ⟨empty, -⟩ | ⟨-, rooted⟩⟩ := ends.exists_parent
  all_goals
    rw [parent] at same
    cases same
  · rw [some_char] at empty
    cases empty
  have begins : fs.start above = fs.start p := by rw [start, start, rooted]
  have missing := missing_of_find absent
  rw [walk_eq some_char, todo_of_endsIn ends', begins] at missing
  have known : fs.IsDirectory (fs.start p) := by
    have some_name : filled above.text.toList ≠ [] := todo_of_endsIn ends' ▸ todo_ne_nil above
    obtain ⟨first, others, same⟩ := List.exists_cons_of_ne_nil some_name
    by_contra other
    have failed : fs.leg false (fs.start p) (first :: others) = .failed .notADirectory := by
      rw [leg]
      split
      · exact absurd ⟨_, ‹_›⟩ other
      · rfl
    rw [same, walkFrom.eq_def, failed] at missing
    simp at missing
  rw [walk_eq (isEmpty_of_endsIn ends), todo_of_endsIn ends, names]
  exact walkFrom_behind orderly (by simp) known missing follow

/-! ## Making directories -/

theorem isDirectory_iff :
    fs.isDirectory p = true ↔ ∃ location, fs.walk true p = .ok location ∧ fs.IsDirectory location := by
  refine ⟨fun leads => ?_, fun ⟨location, walked, known⟩ => Route.isDirectory_of_walk walked known⟩
  unfold isDirectory at leads
  split at leads
  case h_1 location time finds => exact ⟨location, walk_of_find finds, time, get?_of_find finds⟩
  case h_2 => cases leads

theorem exists_holds_of_isDirectory (parent : p.parent? = some above) (leads : fs.isDirectory above = true) :
    ∃ directory, fs.Holds directory p := by
  obtain ⟨directory, walked, known⟩ := isDirectory_iff.mp leads
  exact ⟨directory, known, above, parent, .inr ⟨isEmpty_of_walk walked, walked⟩⟩

theorem withoutEndSlash_open (open_end : endsInSlash p = false) : withoutEndSlash p = p := by
  have last : p.text.toList.reverse.head? ≠ some '/' := by
    rw [List.head?_reverse]
    simpa [endsInSlash] using open_end
  have stays : p.text.toList.reverse.dropWhile (· == '/') = p.text.toList.reverse := by
    cases text : p.text.toList.reverse with
    | nil => rfl
    | cons c rest =>
        rw [text] at last
        exact List.dropWhile_cons_of_neg (by simpa using last)
  rw [withoutEndSlash, stays, List.reverse_reverse, String.ofList_toList]

theorem endsInSlash_of_endsIn (ends : p.EndsIn name) : endsInSlash p = false := by
  have some_char := ends.proper.toList_ne.1
  have unslashed : name.toList.getLast? ≠ some '/' := fun last => ends.proper.whole (List.mem_of_getLast? last)
  rw [endsInSlash, beq_eq_false_iff_ne]
  obtain text | ⟨lead, text⟩ := ends.text_cases
  · rwa [text]
  · rwa [text, List.getLast?_append_of_ne_nil _ (by simp), List.getLast?_cons_of_ne_nil some_char]

/-- A path that ends in no slash, unless it is the root, is made as it is spelled. -/
theorem makeDirectory_trimmed (trimmed : p = ⟨"/"⟩ ∨ endsInSlash p = false) (fs : FileSystem) :
    makeDirectory p fs =
      match fs.walk false p with
      | .error error => (.error error, fs)
      | .ok location =>
        if (fs.get? location).isSome then (.error .alreadyExists, fs)
        else (.ok (), fs.put location (.directory fs.now)) := by
  have spelled : (if (withoutEndSlash p).text.isEmpty then p else withoutEndSlash p) = p := by
    obtain rfl | open_end := trimmed
    · decide
    · rw [withoutEndSlash_open open_end, ite_self]
  have applied := makeDirectory_apply p fs
  rw [spelled] at applied
  refine applied.trans ?_
  cases fs.walk false p <;> rfl

/-- Where a directory stands, none is made. -/
theorem makeDirectory_standing (trimmed : p = ⟨"/"⟩ ∨ endsInSlash p = false) (leads : fs.isDirectory p = true) :
    makeDirectory p fs = (.error .alreadyExists, fs) := by
  obtain ⟨location, walked, time, known⟩ := isDirectory_iff.mp leads
  have some_char := isEmpty_of_walk walked
  rw [walk_eq some_char] at walked
  obtain ⟨place, entry, walked', known'⟩ := walkFrom_unfollowed walked known
  rw [makeDirectory_trimmed trimmed, walk_eq some_char, walked']
  dsimp only
  rw [known']
  rfl

theorem makeDirectory_held (orderly : fs.Orderly) (ends : p.EndsIn name) (holds : fs.Holds directory p)
    (free : fs.get? (directory ++ [name]) = none) :
    ∃ after, makeDirectory p fs = (.ok (), after) ∧ Paved (directory ++ [name]) fs after ∧
      after.walk true p = .ok (directory ++ [name]) := by
  have fills : Fills (.directory fs.now) (fs.get? (directory ++ [name])) := by
    rw [free]
    trivial
  refine ⟨fs.put (directory ++ [name]) (.directory fs.now), ?_, (orderly.putAt holds.1 _).paved free,
    walk_put_fills fills (holds.walk ends (by simp [free]))⟩
  rw [makeDirectory_trimmed (.inr (endsInSlash_of_endsIn ends)), holds.walk ends (by simp)]
  dsimp only
  rw [free, if_neg (by simp)]

/-- Every ancestor of a path leads to a directory, or nothing has its name. -/
def Makeable (fs : FileSystem) (p : Path) : Prop :=
  ∀ above, Ancestor p above →
    above.text.isEmpty = true ∧ fs.IsDirectory fs.workingDirectory ∨ fs.isDirectory above = true ∨
      (∀ found, fs.find false above ≠ .ok found) ∧ ∃ name, above.EndsIn name

theorem Makeable.parent (makeable : fs.Makeable p) (parent : p.parent? = some above) : fs.Makeable above :=
  fun _ further => makeable _ (.head parent further)

/-- The parent of a path is there and holds it, or it is missing. -/
theorem Makeable.cases (makeable : fs.Makeable p) (ends : p.EndsIn name) :
    ∃ above, p.parent? = some above ∧
      ((∃ directory, fs.Holds directory p ∧ (above.text.isEmpty = true ∨ fs.isDirectory above = true)) ∨
        (∀ found, fs.find false above ≠ .ok found) ∧ ∃ name, above.EndsIn name) := by
  obtain ⟨above, -, parent, -⟩ := ends.exists_parent
  refine ⟨above, parent, ?_⟩
  obtain ⟨empty, known⟩ | leads | missing := makeable above (.single parent)
  · exact .inl ⟨fs.workingDirectory, ⟨known, above, parent, .inl ⟨empty, rfl⟩⟩, .inl empty⟩
  · obtain ⟨directory, holds⟩ := exists_holds_of_isDirectory parent leads
    exact .inl ⟨directory, holds, .inr leads⟩
  · exact .inr missing

/-- A name that nothing has is simply not found, if what is above it can be made. -/
theorem Makeable.notFound (orderly : fs.Orderly) {p : Path} {name : String} (makeable : fs.Makeable p)
    (ends : p.EndsIn name) (absent : ∀ found, fs.find false p ≠ .ok found) :
    fs.find false p = .error .notFound := by
  obtain ⟨above, parent, ⟨directory, holds, -⟩ | ⟨absent', ends'⟩⟩ := makeable.cases ends
  · rw [find, holds.walk ends (by simp)]
    simp only [bind, Except.bind, holds.absent ends absent]
  · obtain ⟨name', ends'⟩ := ends'
    have missing := Makeable.notFound orderly (makeable.parent parent) ends' absent'
    rw [find, walk_of_missing orderly ends parent ⟨name', ends'⟩ missing]
    rfl
termination_by p.text.length
decreasing_by exact Path.length_parent? parent

/-- A directory is made where nothing is, and directories above it where they are missing. -/
theorem exists_makeLevels (orderly : fs.Orderly) (ends : p.EndsIn name) (makeable : fs.Makeable p)
    (absent : ∀ found, fs.find false p ≠ .ok found) {fuel : Nat} (bound : p.text.length < fuel) :
    ∃ after place, makeLevels fuel p fs = (.ok (), after) ∧ Paved place fs after ∧ fs.get? place = none ∧
      after.walk true p = .ok place := by
  induction fuel generalizing p name with
  | zero => simp at bound
  | succ fuel ih =>
      rw [makeLevels_apply (isEmpty_of_endsIn ends)]
      obtain ⟨above, parent, ⟨directory, holds, -⟩ | ⟨absent', ends'⟩⟩ := makeable.cases ends
      · have free := holds.absent ends absent
        obtain ⟨after, made, paved, leads⟩ := makeDirectory_held orderly ends holds free
        rw [made]
        exact ⟨after, _, rfl, paved, free, leads⟩
      · obtain ⟨name', ends'⟩ := ends'
        have shorter := Path.length_parent? parent
        have missing := (makeable.parent parent).notFound orderly ends' absent'
        have failed : makeDirectory p fs = (.error .notFound, fs) := by
          rw [makeDirectory_trimmed (.inr (endsInSlash_of_endsIn ends)),
            walk_of_missing orderly ends parent ⟨name', ends'⟩ missing]
        obtain ⟨mid, place, made, paved, free, leads⟩ := ih ends' (makeable.parent parent) absent' (by omega)
        have orderly' : mid.Orderly := by
          have keeps := keepsOrder_makeLevels fuel above fs orderly
          rwa [made] at keeps
        have known : mid.IsDirectory place :=
          ⟨fs.now, by rw [paved.get?, if_pos (List.prefix_refl _), free, Option.none_or]⟩
        have below : fs.get? (place ++ [name]) = none := orderly.absent_below free (List.prefix_append _ _)
        have holds : mid.Holds place p := ⟨known, above, parent, .inr ⟨isEmpty_of_endsIn ends', leads⟩⟩
        have free' : mid.get? (place ++ [name]) = none := by
          rw [paved.get?, if_neg fun inside => ne_concat_of_inside inside rfl, below]
        obtain ⟨after, made', paved', leads'⟩ := makeDirectory_held orderly' ends holds free'
        rw [failed]
        dsimp only
        rw [if_pos (by decide), parent]
        dsimp only
        rw [made]
        dsimp only
        rw [made']
        exact ⟨after, _, rfl, paved.trans paved', below, leads'⟩

/-- The directory that is to hold a path is there or can be made. Nothing comes to have the name of the path. -/
theorem exists_makeParent (orderly : fs.Orderly) (ends : p.EndsIn name) (makeable : fs.Makeable p) :
    ∃ mid directory, makeParent p fs = (.ok (), mid) ∧ Paved directory fs mid ∧ mid.Orderly ∧
      mid.Holds directory p ∧
      ((∀ found, fs.find false p ≠ .ok found) → mid.get? (directory ++ [name]) = none) := by
  obtain ⟨above, parent, ⟨directory, holds, there⟩ | ⟨absent, name', ends'⟩⟩ := makeable.cases ends
  · refine ⟨fs, directory, ?_, orderly.paved holds.1, orderly, holds, holds.absent ends⟩
    rw [makeParent, parent]
    dsimp only
    split
    case isTrue => rfl
    case isFalse some_char =>
      have leads := there.resolve_left some_char
      have trimmed := (Path.parent?_open parent).resolve_left some_char
      rw [makeDirectories, makeLevels_apply (by simpa using some_char), makeDirectory_standing trimmed leads]
      dsimp only
      rw [if_neg (by decide), if_pos leads]
  · have some_char := isEmpty_of_endsIn ends'
    obtain ⟨mid, place, made, paved, free, leads⟩ :=
      exists_makeLevels orderly ends' (makeable.parent parent) absent (Nat.lt_succ_self _)
    have known : mid.IsDirectory place :=
      ⟨fs.now, by rw [paved.get?, if_pos (List.prefix_refl _), free, Option.none_or]⟩
    have same : makeParent p fs = (.ok (), mid) := by
      rw [makeParent, parent]
      dsimp only
      rw [some_char, if_neg (by simp)]
      exact made
    have orderly' : mid.Orderly := by
      have keeps := keepsOrder_makeParent p fs orderly
      rwa [same] at keeps
    refine ⟨mid, place, same, paved, orderly', ⟨known, above, parent, .inr ⟨some_char, leads⟩⟩, fun _ => ?_⟩
    rw [paved.get?, if_neg fun inside => ne_concat_of_inside inside rfl]
    exact orderly.absent_below free (List.prefix_append _ _)

end StaticSite.FileSystem
