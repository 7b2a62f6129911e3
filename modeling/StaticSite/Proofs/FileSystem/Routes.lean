import StaticSite.Proofs.FileSystem.Copying
import StaticSite.Proofs.FileSystem.Gaps

/-!
Places below a directory that a path leads to, through links or not. As long as no link stands behind the
directory, how a walk to such a place ends can be told from what stands above the place, and directories are
made where they are missing.
-/

namespace StaticSite.FileSystem

open Location (Plain)

variable {fs after : FileSystem} {follow : Bool} {front directory standing location place : Location}
  {names below rest : List String} {name : String} {entry : Entry} {content : Bytes} {time : Time}

/-! ## Walks from a directory -/

/-- A walk goes on from a directory that is reached, and behind a link that it meets. -/
theorem leg_append (goesOn : rest ≠ []) (follow : Bool) :
    match fs.leg true directory names with
    | .reached location =>
      (fs.IsDirectory location → fs.leg follow directory (names ++ rest) = fs.leg follow location rest) ∧
        (¬fs.IsDirectory location → ∃ error, fs.leg follow directory (names ++ rest) = .failed error)
    | .link standing target behind =>
      fs.leg follow directory (names ++ rest) = .link standing target (behind ++ rest)
    | .failed _ => ∃ error, fs.leg follow directory (names ++ rest) = .failed error := by
  obtain ⟨first, others, rfl⟩ := List.exists_cons_of_ne_nil goesOn
  fun_induction leg fs true directory names with
  | case1 directory =>
      refine ⟨fun _ => rfl, fun other => ?_⟩
      rw [List.nil_append, leg]
      cases known : fs.get? directory with
      | none => exact ⟨_, rfl⟩
      | some entry =>
          cases entry with
          | directory time => exact absurd ⟨time, known⟩ other
          | file content time => exact ⟨_, rfl⟩
          | link target => exact ⟨_, rfl⟩
  | case2 directory names time known ih =>
      rw [List.cons_append, leg, known]
      exact ih
  | case3 directory names time known undotted ih =>
      rw [List.cons_append, leg, known]
      exact ih
  | case4 directory name time known undotted lower absent =>
      refine ⟨fun above => ?_, fun _ => ?_⟩
      · obtain ⟨time, standing⟩ := above
        rw [absent] at standing
        cases standing
      · rw [List.cons_append, leg, known]
        simp [undotted, lower, absent]
  | case6 directory name names time known undotted lower below there ih =>
      rw [List.cons_append, leg, known]
      dsimp only
      rw [if_neg undotted, if_neg lower, there]
      exact ih
  | case7 directory name time known undotted lower content below there =>
      refine ⟨fun above => ?_, fun _ => ?_⟩
      · obtain ⟨time, standing⟩ := above
        rw [there] at standing
        cases standing
      · rw [List.cons_append, leg, known]
        simp [undotted, lower, there]
  | case9 directory name names time known undotted lower target there ends => simp at ends
  | case10 directory name names time known undotted lower target there ends =>
      rw [List.cons_append, leg, known]
      dsimp only
      rw [if_neg undotted, if_neg lower, there]
      simp
  | case5 directory name names time known undotted lower absent goesOn =>
      rw [List.cons_append, leg, known]
      simp [undotted, lower, absent]
  | case8 directory name names time known undotted lower content below there goesOn =>
      rw [List.cons_append, leg, known]
      simp [undotted, lower, there]
  | case11 directory name names other =>
      rw [List.cons_append, leg]
      cases known : fs.get? directory with
      | none => exact ⟨_, rfl⟩
      | some entry =>
          cases entry with
          | directory time => exact absurd known (other time)
          | file content time => exact ⟨_, rfl⟩
          | link target => exact ⟨_, rfl⟩

theorem walkFrom_append (goesOn : rest ≠ []) {links : Nat}
    (walked : fs.walkFrom true links standing names = .ok directory) (known : fs.IsDirectory directory) :
    ∃ links', ∀ follow,
      fs.walkFrom follow links standing (names ++ rest) = fs.walkFrom follow links' directory rest := by
  fun_induction walkFrom fs true links standing names with
  | case1 links standing names reached went =>
      cases walked
      refine ⟨links, fun follow => ?_⟩
      have goes := @leg_append fs standing names rest goesOn follow
      rw [went] at goes
      rw [walkFrom.eq_def, goes.1 known, ← walkFrom.eq_def]
  | case2 => cases walked
  | case3 => cases walked
  | case4 => cases walked
  | case5 standing names met target behind went links somewhere ih =>
      obtain ⟨links', same⟩ := ih walked
      refine ⟨links', fun follow => ?_⟩
      have goes := @leg_append fs standing names rest goesOn follow
      rw [went] at goes
      rw [walkFrom.eq_def, goes]
      dsimp only
      rw [if_neg somewhere, ← List.append_assoc]
      exact same follow

/-- What a walk goes through before its last name are directories. -/
theorem exists_walkFrom_front (goesOn : rest ≠ []) {links : Nat}
    (walked : fs.walkFrom follow links standing (names ++ rest) = .ok location) :
    ∃ directory, fs.walkFrom true links standing names = .ok directory ∧ fs.IsDirectory directory := by
  fun_induction walkFrom fs true links standing names with
  | case1 links standing names reached went =>
      have goes := @leg_append fs standing names rest goesOn follow
      rw [went] at goes
      by_cases known : fs.IsDirectory reached
      · exact ⟨reached, rfl, known⟩
      · obtain ⟨error, failed⟩ := goes.2 known
        rw [walkFrom.eq_def, failed] at walked
        cases walked
  | case2 links standing names error went =>
      have goes := @leg_append fs standing names rest goesOn follow
      rw [went] at goes
      obtain ⟨error, failed⟩ := goes
      rw [walkFrom.eq_def, failed] at walked
      cases walked
  | case3 standing names met target behind went =>
      have goes := @leg_append fs standing names rest goesOn follow
      rw [went] at goes
      rw [walkFrom.eq_def, goes] at walked
      cases walked
  | case4 standing names met target behind went links nowhere =>
      have goes := @leg_append fs standing names rest goesOn follow
      rw [went] at goes
      rw [walkFrom.eq_def, goes] at walked
      simp [nowhere] at walked
  | case5 standing names met target behind went links somewhere ih =>
      have goes := @leg_append fs standing names rest goesOn follow
      rw [went] at goes
      rw [walkFrom.eq_def, goes] at walked
      dsimp only at walked
      rw [if_neg somewhere, ← List.append_assoc] at walked
      exact ih walked

/-- A walk goes down directories. -/
theorem leg_down (orderly : fs.Orderly) (plain : Plain below) (known : fs.IsDirectory (directory ++ below)) :
    fs.leg follow directory (below ++ rest) = fs.leg follow (directory ++ below) rest := by
  induction below generalizing directory with
  | nil => rw [List.append_nil, List.nil_append]
  | cons name below ih =>
      have proper : Path.Proper name := plain name (by simp)
      have next : directory ++ name :: below = directory ++ [name] ++ below := by simp
      rw [next] at known ⊢
      obtain ⟨time, there⟩ := orderly.isDirectory_of_prefix known (List.prefix_append _ _)
      obtain ⟨time', here⟩ := orderly directory name _ there
      rw [List.cons_append, leg, here]
      dsimp only
      rw [if_neg proper.apart, if_neg proper.below, there]
      exact ih (fun name member => plain name (by simp [member])) known

/-! ## The working directory -/

theorem pieces_leading (plain : Plain location) (text : List Char) :
    Path.pieces (Path.leading location ++ text) = location.map String.toList ++ Path.pieces text := by
  induction location with
  | nil => rfl
  | cons name location ih =>
      have whole : '/' ∉ name.toList := (plain name List.mem_cons_self).whole
      rw [Path.leading, List.flatMap_cons, List.append_assoc, List.append_assoc, List.singleton_append,
        Path.pieces_append whole, List.map_cons, List.cons_append]
      exact congrArg (name.toList :: ·) (ih fun name member => plain name (List.mem_cons_of_mem _ member))

theorem todo_join (plain : Plain location) {p : Path} (relative : p.isAbsolute = false) :
    todo ((Location.path location).join p) = location ++ todo p := by
  have split : (Path.pieces ((Location.path location).join p).text.toList).map String.ofList =
      "" :: (location ++ (Path.pieces p.text.toList).map String.ofList) := by
    rw [Path.toList_join _ relative, Location.opening_path plain, List.cons_append, Path.pieces,
      pieces_leading plain, List.map_cons, List.map_append, List.map_map]
    simp [Function.comp_def]
  have nonempty : location.filter (· != "") = location := by
    rw [List.filter_eq_self]
    exact fun name member => by simpa using (plain name member).nonempty
  have some_part : (Path.pieces p.text.toList).map String.ofList ≠ [] := by
    simpa using pieces_ne_nil p.text.toList
  have last : ("" :: (location ++ (Path.pieces p.text.toList).map String.ofList)).getLast? =
      ((Path.pieces p.text.toList).map String.ofList).getLast? := by
    rw [← List.cons_append, List.getLast?_append_of_ne_nil _ some_part]
  rw [todo, todo, split, last, List.filter_cons_of_neg (by simp), List.filter_append, nonempty,
    List.append_assoc]

/-- A relative path leads to the same place from the root, behind the path of the working directory. -/
theorem walk_join_here (orderly : fs.Orderly) (standing : fs.IsDirectory fs.workingDirectory)
    (plain : Plain fs.workingDirectory) {p : Path} (some_char : p.text.isEmpty = false) (follow : Bool) :
    fs.walk follow (fs.here.join p) = fs.walk follow p := by
  by_cases absolute : p.isAbsolute
  · rw [Path.join, if_pos absolute]
  · rw [Bool.not_eq_true] at absolute
    have rooted : (fs.here.join p).isAbsolute := Path.isAbsolute_join (Path.isAbsolute_location _) p
    have down : fs.leg follow [] (fs.workingDirectory ++ todo p) =
        fs.leg follow fs.workingDirectory (todo p) := leg_down orderly plain standing
    rw [walk, walk, isEmpty_text rooted, some_char, if_pos rooted, absolute, here, todo_join plain absolute]
    simp only [Bool.false_eq_true, if_false]
    rw [walkFrom.eq_def, walkFrom.eq_def, down]

theorem find_join_here (orderly : fs.Orderly) (standing : fs.IsDirectory fs.workingDirectory)
    (plain : Plain fs.workingDirectory) {p : Path} (some_char : p.text.isEmpty = false) (follow : Bool) :
    fs.find follow (fs.here.join p) = fs.find follow p := by
  rw [find, find, walk_join_here orderly standing plain some_char]

/-! ## Routes -/

/-- A path leads to a directory, through links or not. -/
structure Route (fs : FileSystem) (front directory : Location) : Prop where
  orderly : fs.Orderly
  plain : Plain front
  walked : fs.walk true (Location.path front) = .ok directory
  known : fs.IsDirectory directory

namespace Route

theorem exists_walk (route : fs.Route front directory) (goesOn : rest ≠ []) (plain : Plain rest) :
    ∃ links, ∀ follow, fs.walk follow (Location.path (front ++ rest)) =
      fs.walkFrom follow links directory rest := by
  have whole (follow : Bool) : fs.walk follow (Location.path (front ++ rest)) =
      fs.walkFrom follow maxLinks [] (front ++ rest) := by
    rw [walk, Location.isEmpty_path, if_neg (by simp), if_pos (Path.isAbsolute_location _),
      Location.todo_path (route.plain.append plain) (by simp [goesOn])]
  have walked := route.walked
  by_cases root : front = []
  · subst root
    rw [walk_root] at walked
    cases walked
    exact ⟨maxLinks, whole⟩
  · rw [walk, Location.isEmpty_path, if_neg (by simp), if_pos (Path.isAbsolute_location _),
      Location.todo_path route.plain root] at walked
    obtain ⟨links, same⟩ := walkFrom_append goesOn walked route.known
    exact ⟨links, fun follow => (whole follow).trans (same follow)⟩

/-- In a directory that is reached, a walk ends at whatever has the last name, unless it is a link. -/
theorem walk_reached (route : fs.Route front directory) (plain : Plain (below ++ [name]))
    (above : fs.IsDirectory (directory ++ below))
    (unlinked : ∀ target, fs.get? (directory ++ (below ++ [name])) ≠ some (.link target)) (follow : Bool) :
    fs.walk follow (Location.path (front ++ (below ++ [name]))) = .ok (directory ++ (below ++ [name])) := by
  obtain ⟨links, same⟩ := route.exists_walk (by simp) plain
  obtain ⟨time, known⟩ := above
  rw [← List.append_assoc] at unlinked
  rw [same, walkFrom.eq_def, leg_down route.orderly plain.front ⟨time, known⟩,
    leg_last known plain.last.apart plain.last.below unlinked, List.append_assoc]

/-- Below a missing place there is nothing. -/
theorem walk_missing (route : fs.Route front directory) (plain : Plain (below ++ name :: rest))
    (goesOn : rest ≠ []) (above : fs.IsDirectory (directory ++ below))
    (missing : fs.get? (directory ++ below ++ [name]) = none) (follow : Bool) :
    fs.walk follow (Location.path (front ++ (below ++ name :: rest))) = .error .notFound := by
  obtain ⟨links, same⟩ := route.exists_walk (by simp) plain
  have proper : Path.Proper name := plain name (by simp)
  obtain ⟨time, known⟩ := above
  rw [same, walkFrom.eq_def,
    leg_down route.orderly (fun name member => plain name (by simp [member])) ⟨time, known⟩, leg, known]
  dsimp only
  rw [if_neg proper.apart, if_neg proper.below, missing]
  dsimp only
  rw [if_neg goesOn]

/-- A file has nothing below it. -/
theorem walk_blocked (route : fs.Route front directory) (plain : Plain (below ++ name :: rest))
    (goesOn : rest ≠ []) (there : fs.get? (directory ++ below ++ [name]) = some (.file content time))
    (follow : Bool) :
    fs.walk follow (Location.path (front ++ (below ++ name :: rest))) = .error .notADirectory := by
  obtain ⟨links, same⟩ := route.exists_walk (by simp) plain
  have proper : Path.Proper name := plain name (by simp)
  obtain ⟨time', known⟩ := route.orderly _ _ _ there
  rw [same, walkFrom.eq_def,
    leg_down route.orderly (fun name member => plain name (by simp [member])) ⟨time', known⟩, leg, known]
  dsimp only
  rw [if_neg proper.apart, if_neg proper.below, there]
  dsimp only
  rw [if_neg goesOn]

end Route

/-! ## What is put where -/

/-- From one file system to another one directories are made wherever nothing was at a place or above it. -/
structure Paved (location : Location) (fs after : FileSystem) : Prop where
  now : after.now = fs.now
  workingDirectory : after.workingDirectory = fs.workingDirectory
  get? : ∀ place, after.get? place =
    if place <+: location then (fs.get? place).or (some (.directory fs.now)) else fs.get? place

/-- From one file system to another one something is put at a place, and directories above it. -/
structure PutAt (location : Location) (entry : Entry) (fs after : FileSystem) : Prop where
  now : after.now = fs.now
  workingDirectory : after.workingDirectory = fs.workingDirectory
  get? : ∀ place, after.get? place =
    if place = location then some entry
    else if place <+: location then (fs.get? place).or (some (.directory fs.now)) else fs.get? place

/-- Nothing but directories stands at a place and above it. -/
def Pavable (fs : FileSystem) (location : Location) : Prop :=
  ∀ above, above <+: location → ∀ entry, fs.get? above = some entry → ∃ time, entry = .directory time

/-- At a place there is a file or nothing, and nothing but directories stands above it. -/
structure Writable (fs : FileSystem) (location : Location) : Prop where
  above : ∀ above, above <+: location → above ≠ location →
    ∀ entry, fs.get? above = some entry → ∃ time, entry = .directory time
  fills : ∀ entry, fs.get? location = some entry → ∃ content time, entry = .file content time

/-- No link stands at a place or above it. -/
def Linkless (fs : FileSystem) (location : Location) : Prop :=
  ∀ above, above <+: location → ∀ target, fs.get? above ≠ some (.link target)

theorem prefix_append_singleton_iff : place <+: location ++ [name] ↔
    place = location ++ [name] ∨ place <+: location := List.prefix_concat_iff

theorem ne_concat_of_inside (above : place <+: location) : place ≠ location ++ [name] := by
  rintro rfl
  have bound := above.length_le
  rw [List.length_append, List.length_singleton] at bound
  omega

theorem Writable.pavable (writable : fs.Writable (location ++ [name])) : fs.Pavable location :=
  fun above inside entry known =>
    writable.above above (inside.trans (List.prefix_append _ _)) (ne_concat_of_inside inside) entry known

theorem Pavable.missing (pavable : fs.Pavable location) (nowhere : ¬fs.IsDirectory location) :
    fs.get? location = none := by
  cases known : fs.get? location with
  | none => rfl
  | some entry =>
      obtain ⟨time, rfl⟩ := pavable location (List.prefix_refl _) entry known
      exact absurd ⟨time, known⟩ nowhere

theorem Paved.keeps (paved : Paved location fs after) : Keeps fs after where
  workingDirectory := paved.workingDirectory
  passable {place entry} known _ := by
    rw [paved.get?, known]
    split <;> rfl
  file {place content time} known := by
    refine ⟨content, time, ?_⟩
    rw [paved.get?, known]
    split <;> rfl

theorem Paved.known (paved : Paved location fs after) {entry : Entry} (known : fs.get? place = some entry) :
    after.get? place = some entry := by
  rw [paved.get?, known]
  split <;> rfl

theorem Paved.isDirectory (paved : Paved location fs after) (pavable : fs.Pavable location) :
    after.IsDirectory location := by
  rw [IsDirectory, paved.get?, if_pos (List.prefix_refl _)]
  cases known : fs.get? location with
  | none => exact ⟨_, rfl⟩
  | some entry =>
      obtain ⟨time, rfl⟩ := pavable location (List.prefix_refl _) entry known
      exact ⟨time, rfl⟩

theorem Orderly.paved (orderly : fs.Orderly) (known : fs.IsDirectory location) : Paved location fs fs := by
  refine ⟨rfl, rfl, fun place => ?_⟩
  split
  case isTrue above =>
    obtain ⟨time, there⟩ := orderly.isDirectory_of_prefix known above
    rw [there, Option.some_or]
  case isFalse => rfl

theorem Orderly.putAt (orderly : fs.Orderly) (known : fs.IsDirectory location) (entry : Entry) :
    PutAt (location ++ [name]) entry fs (fs.put (location ++ [name]) entry) := by
  refine ⟨rfl, rfl, fun place => ?_⟩
  rw [get?_put]
  by_cases same : place = location ++ [name]
  · rw [if_neg (by simp [same]), if_pos same, if_pos same]
  rw [if_neg same, if_neg same]
  split
  case isTrue root =>
    rw [root, FileSystem.get?, if_pos rfl, Option.some_or, ite_self]
  case isFalse =>
    split
    case isTrue above =>
      have inside := (prefix_append_singleton_iff.mp above).resolve_left same
      obtain ⟨time, there⟩ := orderly.isDirectory_of_prefix known inside
      rw [there, Option.some_or]
    case isFalse => rfl

theorem Paved.putAt {mid : FileSystem} (paved : Paved location fs mid)
    (puts : PutAt (location ++ [name]) entry mid after) : PutAt (location ++ [name]) entry fs after := by
  refine ⟨puts.now.trans paved.now, puts.workingDirectory.trans paved.workingDirectory, fun place => ?_⟩
  rw [puts.get?, paved.get?, paved.now]
  by_cases same : place = location ++ [name]
  · rw [if_pos same, if_pos same]
  rw [if_neg same, if_neg same]
  by_cases inside : place <+: location
  · rw [if_pos (inside.trans (List.prefix_append _ _)), if_pos (inside.trans (List.prefix_append _ _)),
      if_pos inside, Option.or_assoc, Option.or_self]
  · have outside : ¬place <+: location ++ [name] := fun above =>
      (prefix_append_singleton_iff.mp above).elim same inside
    rw [if_neg outside, if_neg outside, if_neg inside]

/-- What is put at a place finds directories above it. -/
theorem PutAt.orderly (put : PutAt location entry fs after) (orderly : fs.Orderly)
    (writable : fs.Writable location) : after.Orderly := by
  have above {place : Location} (inside : place <+: location) (strict : place ≠ location) :
      after.IsDirectory place := by
    rw [IsDirectory, put.get?, if_neg strict, if_pos inside]
    cases known : fs.get? place with
    | none => exact ⟨_, rfl⟩
    | some entry =>
        obtain ⟨time, rfl⟩ := writable.above place inside strict entry known
        exact ⟨time, rfl⟩
  intro directory name found known
  by_cases inside : directory ++ [name] <+: location
  · have shorter : directory <+: location := (List.prefix_append _ _).trans inside
    exact above shorter fun same => ne_concat_of_inside (same ▸ inside) rfl
  · have different : directory ++ [name] ≠ location := fun same => inside (same ▸ List.prefix_refl _)
    rw [put.get?, if_neg different, if_neg inside] at known
    obtain ⟨time, standing⟩ := orderly _ _ _ known
    by_cases here : directory = location
    · -- what can be written to has nothing below it
      subst here
      obtain ⟨content, time', file⟩ := writable.fills _ standing
      cases file
    · refine ⟨time, ?_⟩
      rw [put.get?, if_neg here, standing]
      split <;> rfl

theorem Paved.trans {mid : FileSystem} (paved : Paved location fs mid)
    (more : Paved (location ++ [name]) mid after) : Paved (location ++ [name]) fs after := by
  refine ⟨more.now.trans paved.now, more.workingDirectory.trans paved.workingDirectory, fun place => ?_⟩
  rw [more.get?, paved.get?, paved.now]
  by_cases inside : place <+: location
  · rw [if_pos (inside.trans (List.prefix_append _ _)), if_pos (inside.trans (List.prefix_append _ _)),
      if_pos inside, Option.or_assoc, Option.or_self]
  · rw [if_neg inside]

theorem Paved.pavable (paved : Paved place fs after) (pavable : fs.Pavable location) :
    after.Pavable location := by
  intro above inside entry known
  rw [paved.get?] at known
  cases before : fs.get? above with
  | some found =>
      rw [before, Option.some_or, ite_self] at known
      cases known
      exact pavable above inside entry before
  | none =>
      rw [before] at known
      split at known
      · exact ⟨_, (Option.some.inj known).symm⟩
      · cases known

theorem Paved.writable (paved : Paved location fs after) (writable : fs.Writable (location ++ [name])) :
    after.Writable (location ++ [name]) := by
  refine ⟨fun above inside strict entry known => ?_, fun entry known => ?_⟩
  · have before := (prefix_append_singleton_iff.mp inside).resolve_left strict
    exact paved.pavable writable.pavable above before entry known
  · rw [paved.get?, if_neg fun inside => ne_concat_of_inside inside rfl] at known
    exact writable.fills entry known

/-- A directory that is put where nothing was is a place paved. -/
theorem PutAt.paved (puts : PutAt location (.directory fs.now) fs after) (free : fs.get? location = none) :
    Paved location fs after := by
  refine ⟨puts.now, puts.workingDirectory, fun place => ?_⟩
  rw [puts.get?]
  split
  case isTrue same => rw [same, if_pos (List.prefix_refl _), free, Option.none_or]
  case isFalse => rfl

/-! ## Making directories -/

namespace Route

/-- The first missing place above one that is missing. -/
theorem exists_missing (route : fs.Route front directory) (pavable : fs.Pavable (directory ++ below))
    (missing : fs.get? (directory ++ below) = none) :
    ∃ first name rest, below = first ++ name :: rest ∧ fs.IsDirectory (directory ++ first) ∧
      fs.get? (directory ++ first ++ [name]) = none := by
  induction below using List.reverseRecOn with
  | nil =>
      obtain ⟨time, known⟩ := route.known
      rw [List.append_nil, known] at missing
      cases missing
  | append_singleton front name ih =>
      rw [← List.append_assoc] at pavable missing
      have shorter : fs.Pavable (directory ++ front) :=
        fun above inside => pavable above (inside.trans (List.prefix_append _ _))
      cases known : fs.get? (directory ++ front) with
      | some entry =>
          obtain ⟨time, rfl⟩ := shorter _ (List.prefix_refl _) entry known
          exact ⟨front, name, [], rfl, ⟨time, known⟩, missing⟩
      | none =>
          obtain ⟨first, other, rest, rfl, above, gap⟩ := ih shorter known
          exact ⟨first, other, rest ++ [name], by simp, above, gap⟩

/-- Where something other than directories stands above a place, and no link, there is a file. -/
theorem exists_file (route : fs.Route front directory) (linkless : fs.Linkless (directory ++ below))
    (blocked : ¬fs.Pavable (directory ++ below)) :
    ∃ first name rest content time, below = first ++ name :: rest ∧
      fs.get? (directory ++ first ++ [name]) = some (.file content time) := by
  simp only [Pavable, not_forall] at blocked
  obtain ⟨above, inside, entry, known, solid⟩ := blocked
  -- what leads to the directory are directories
  have deeper : directory <+: above ∧ above ≠ directory := by
    obtain before | behind := List.prefix_or_prefix_of_prefix inside (List.prefix_append directory below)
    · obtain ⟨time, there⟩ := route.orderly.isDirectory_of_prefix route.known before
      rw [known] at there
      exact absurd ⟨time, Option.some.inj there⟩ solid
    · refine ⟨behind, ?_⟩
      rintro rfl
      obtain ⟨time, there⟩ := route.known
      rw [known] at there
      exact solid ⟨time, Option.some.inj there⟩
  obtain ⟨⟨way, rfl⟩, different⟩ := deeper
  rcases List.eq_nil_or_concat way with rfl | ⟨first, name, rfl⟩
  · simp at different
  · rw [List.concat_eq_append] at *
    obtain ⟨rest, whole⟩ := (List.prefix_append_right_inj directory).mp inside
    cases entry with
    | directory time => exact absurd ⟨time, rfl⟩ solid
    | link target => exact absurd known (linkless _ inside target)
    | file content time =>
        exact ⟨first, name, rest, content, time, by simp [← whole], by simpa using known⟩

/-- A walk into a directory that is missing. -/
theorem walk_unready (route : fs.Route front directory) (plain : Plain (below ++ [name]))
    (pavable : fs.Pavable (directory ++ below)) (missing : fs.get? (directory ++ below) = none)
    (follow : Bool) :
    fs.walk follow (Location.path (front ++ (below ++ [name]))) = .error .notFound := by
  obtain ⟨first, other, rest, rfl, above, gap⟩ := route.exists_missing pavable missing
  rw [List.append_assoc, List.cons_append] at plain ⊢
  exact route.walk_missing plain (by simp) above gap follow

/-- A walk past a file. -/
theorem walk_refused (route : fs.Route front directory) (plain : Plain (below ++ [name]))
    (linkless : fs.Linkless (directory ++ below)) (blocked : ¬fs.Pavable (directory ++ below))
    (follow : Bool) :
    fs.walk follow (Location.path (front ++ (below ++ [name]))) = .error .notADirectory := by
  obtain ⟨first, other, rest, content, time, rfl, there⟩ := route.exists_file linkless blocked
  rw [List.append_assoc, List.cons_append] at plain ⊢
  exact route.walk_blocked plain (by simp) there follow

/-- A walk into something that is no directory fails. -/
theorem walk_nowhere (route : fs.Route front directory) (plain : Plain (below ++ [name]))
    (linkless : fs.Linkless (directory ++ below)) (nowhere : ¬fs.IsDirectory (directory ++ below))
    (follow : Bool) : ∃ error, fs.walk follow (Location.path (front ++ (below ++ [name]))) = .error error := by
  by_cases pavable : fs.Pavable (directory ++ below)
  · exact ⟨_, route.walk_unready plain pavable (pavable.missing nowhere) follow⟩
  · exact ⟨_, route.walk_refused plain linkless pavable follow⟩

/-- In a directory that is reached, a walk that does not follow a last link ends at whatever has the last
name. -/
theorem walk_unfollowed (route : fs.Route front directory) (plain : Plain (below ++ [name]))
    (above : fs.IsDirectory (directory ++ below)) :
    fs.walk false (Location.path (front ++ (below ++ [name]))) = .ok (directory ++ below ++ [name]) := by
  obtain ⟨links, same⟩ := route.exists_walk (by simp) plain
  obtain ⟨time, known⟩ := above
  rw [same, walkFrom.eq_def, leg_down route.orderly plain.front ⟨time, known⟩, leg, known]
  dsimp only
  rw [if_neg plain.last.apart, if_neg plain.last.below]
  cases fs.get? (directory ++ below ++ [name]) with
  | none => rfl
  | some entry => cases entry <;> rfl

end Route

theorem unless_directory_apply (p : Path) (error : IoError) (fs : FileSystem) :
    (do unless (← get).isDirectory p do throw error : FileM Unit) fs =
      if fs.isDirectory p then (.ok (), fs) else (.error error, fs) := by
  rw [fileM_get_bind_apply]
  cases fs.isDirectory p <;> rfl

theorem makeLevels_apply {p : Path} (named : p.text.isEmpty = false) (fuel : Nat) (fs : FileSystem) :
    makeLevels (fuel + 1) p fs =
      match makeDirectory p fs with
      | (.ok _, after) => (.ok (), after)
      | (.error error, after) =>
        if error == .notFound then
          match p.parent? with
          | none => (.error error, after)
          | some above =>
            match makeLevels fuel above after with
            | (.error error, made) => (.error error, made)
            | (.ok _, made) =>
              match makeDirectory p made with
              | (.ok _, last) => (.ok (), last)
              | (.error error, last) => if last.isDirectory p then (.ok (), last) else (.error error, last)
        else if after.isDirectory p then (.ok (), after) else (.error error, after) := by
  rw [makeLevels, named]
  simp only [Bool.false_eq_true, if_false]
  rw [tryCatch_apply]
  rcases makeDirectory p fs with ⟨error | _, after⟩
  · dsimp only
    split
    · cases p.parent? with
      | none => rfl
      | some above =>
        dsimp only
        rw [fileM_bind_apply]
        rcases makeLevels fuel above after with ⟨error | _, made⟩
        · rfl
        · dsimp only
          rw [tryCatch_apply]
          rcases makeDirectory p made with ⟨error | _, last⟩
          · exact unless_directory_apply p error last
          · rfl
    · exact unless_directory_apply p error after
  · rfl

/-- A walk that does not follow a last link ends there or where the other walk ends. -/
theorem leg_unfollowed (fs : FileSystem) (directory : Location) (names : List String) :
    match fs.leg true directory names with
    | .reached location => fs.leg false directory names = .reached location
    | .link standing target rest => fs.leg false directory names = .link standing target rest ∨
      ∃ location entry, fs.leg false directory names = .reached location ∧ fs.get? location = some entry
    | .failed _ => True := by
  fun_induction leg fs true directory names with
  | case1 directory => rfl
  | case2 directory names time known ih =>
      rw [leg, known]
      exact ih
  | case3 directory names time known undotted ih =>
      rw [leg, known]
      exact ih
  | case4 directory name time known undotted lower absent =>
      dsimp only
      rw [leg, known]
      dsimp only
      rw [if_neg undotted, if_neg lower, absent]
      rfl
  | case6 directory name names time known undotted lower below there ih =>
      rw [leg, known]
      dsimp only
      rw [if_neg undotted, if_neg lower, there]
      exact ih
  | case7 directory name time known undotted lower content below there =>
      dsimp only
      rw [leg, known]
      dsimp only
      rw [if_neg undotted, if_neg lower, there]
      rfl
  | case9 directory name names time known undotted lower target there ends => simp at ends
  | case10 directory name names time known undotted lower target there ends =>
      rw [leg, known]
      dsimp only
      rw [if_neg undotted, if_neg lower, there]
      by_cases last : names = []
      · exact .inr ⟨_, _, by simp [last], there⟩
      · exact .inl (by simp [last])
  | case5 => trivial
  | case8 => trivial
  | case11 => trivial

theorem walkFrom_unfollowed {links : Nat} (walked : fs.walkFrom true links standing names = .ok location)
    (known : fs.get? location = some entry) :
    ∃ location entry, fs.walkFrom false links standing names = .ok location ∧
      fs.get? location = some entry := by
  fun_induction walkFrom fs true links standing names with
  | case1 links standing names reached went =>
      cases walked
      have same := leg_unfollowed fs standing names
      rw [went] at same
      exact ⟨location, entry, by rw [walkFrom.eq_def, same], known⟩
  | case2 => cases walked
  | case3 => cases walked
  | case4 => cases walked
  | case5 standing names met target behind went links somewhere ih =>
      have goes := leg_unfollowed fs standing names
      rw [went] at goes
      obtain same | ⟨location, entry, same, known⟩ := goes
      · obtain ⟨location, entry, walked, known⟩ := ih walked
        refine ⟨location, entry, ?_, known⟩
        rw [walkFrom.eq_def, same]
        dsimp only
        rw [if_neg somewhere]
        exact walked
      · exact ⟨location, entry, by rw [walkFrom.eq_def, same], known⟩

namespace Route

theorem isDirectory_of_walk {p : Path} (walked : fs.walk true p = .ok location)
    (known : fs.IsDirectory location) : fs.isDirectory p = true := by
  obtain ⟨time, known⟩ := known
  rw [isDirectory, find_eq_ok_iff.mpr ⟨walked, known⟩]

theorem makeDirectory_front (route : fs.Route front directory) :
    makeDirectory (Location.path front) fs = (.error .alreadyExists, fs) := by
  obtain ⟨location, entry, walked, known⟩ : ∃ location entry,
      fs.walk false (if (withoutEndSlash (Location.path front)).text.isEmpty then Location.path front
        else withoutEndSlash (Location.path front)) = .ok location ∧ fs.get? location = some entry := by
    by_cases root : front = []
    · subst root
      have spelled : (if (withoutEndSlash (Location.path [])).text.isEmpty then Location.path []
          else withoutEndSlash (Location.path [])) = Location.path [] := by
        decide
      rw [spelled]
      exact ⟨[], _, walk_root false fs, rfl⟩
    · obtain ⟨time, known⟩ := route.known
      have walked := route.walked
      rw [Location.withoutEndSlash_path route.plain root, Location.isEmpty_path, if_neg (by simp)]
      rw [walk, Location.isEmpty_path, if_neg (by simp), if_pos (Path.isAbsolute_location _)] at walked ⊢
      exact walkFrom_unfollowed walked known
  rw [makeDirectory_apply, walked]
  dsimp only
  rw [known]
  rfl

/-- A route stays a route as long as directories and links stay. -/
theorem carries (route : fs.Route front directory) (carries : Carries fs after) (orderly : after.Orderly) :
    after.Route front directory := by
  obtain ⟨time, known⟩ := route.known
  have there := carries.directory known
  exact ⟨orderly, route.plain, walk_carries carries route.walked (by simp [there]), ⟨time, there⟩⟩

/-- What becomes of a route in a file system that has grown. -/
theorem keeps (route : fs.Route front directory) (keeps : Keeps fs after) (orderly : after.Orderly) :
    after.Route front directory :=
  route.carries ⟨keeps.workingDirectory, keeps.passable⟩ orderly

/-- One directory is made in another one, unless it is there. -/
theorem makeDirectory_below (route : fs.Route front directory) (plain : Plain (below ++ [name]))
    (above : fs.IsDirectory (directory ++ below)) (pavable : fs.Pavable (directory ++ (below ++ [name]))) :
    (fs.IsDirectory (directory ++ (below ++ [name])) ∧
      makeDirectory (Location.path (front ++ (below ++ [name]))) fs = (.error .alreadyExists, fs) ∧
      fs.isDirectory (Location.path (front ++ (below ++ [name]))) = true) ∨
    ∃ after, makeDirectory (Location.path (front ++ (below ++ [name]))) fs = (.ok (), after) ∧
      Paved (directory ++ (below ++ [name])) fs after := by
  have unlinked (target : Path) : fs.get? (directory ++ (below ++ [name])) ≠ some (.link target) := by
    intro there
    obtain ⟨time, same⟩ := pavable _ (List.prefix_refl _) _ there
    cases same
  have walked := route.walk_reached plain above unlinked
  have whole := route.plain.append plain
  rw [makeDirectory_apply, Location.withoutEndSlash_path whole (by simp), Location.isEmpty_path,
    if_neg (by simp), walked]
  dsimp only
  cases known : fs.get? (directory ++ (below ++ [name])) with
  | some entry =>
      obtain ⟨time, rfl⟩ := pavable _ (List.prefix_refl _) entry known
      exact .inl ⟨⟨time, known⟩, rfl, isDirectory_of_walk (walked true) ⟨time, known⟩⟩
  | none =>
      refine .inr ⟨_, rfl, ?_⟩
      rw [← List.append_assoc] at known ⊢
      exact (route.orderly.putAt above _).paved known

/-- All directories that are missing are made, and nothing else happens. -/
theorem makeLevels_below (route : fs.Route front directory) {fuel : Nat} (bound : names.length < fuel)
    (plain : Plain names) (pavable : fs.Pavable (directory ++ names)) :
    ∃ after, makeLevels fuel (Location.path (front ++ names)) fs = (.ok (), after) ∧
      Paved (directory ++ names) fs after := by
  obtain ⟨fuel, rfl⟩ := Nat.exists_eq_succ_of_ne_zero (Nat.ne_zero_of_lt bound)
  induction names using List.reverseRecOn generalizing fuel with
  | nil =>
      rw [List.append_nil, List.append_nil]
      refine ⟨fs, ?_, route.orderly.paved route.known⟩
      rw [makeLevels_apply (Location.isEmpty_path _), route.makeDirectory_front]
      dsimp only
      rw [if_neg (by decide), if_pos (isDirectory_of_walk route.walked route.known)]
  | append_singleton below name ih =>
      rw [makeLevels_apply (Location.isEmpty_path _)]
      rw [← List.append_assoc] at pavable
      have shorter : fs.Pavable (directory ++ below) :=
        fun above inside => pavable above (inside.trans (List.prefix_append _ _))
      rw [List.append_assoc] at pavable
      by_cases above : fs.IsDirectory (directory ++ below)
      · obtain ⟨there, failed, known⟩ | ⟨after, made, paved⟩ :=
          route.makeDirectory_below plain above pavable
        · refine ⟨fs, ?_, route.orderly.paved there⟩
          rw [failed]
          dsimp only
          rw [if_neg (by decide), if_pos known]
        · exact ⟨after, by rw [made], paved⟩
      · have missing := shorter.missing above
        have whole : Plain (front ++ below ++ [name]) := by
          rw [List.append_assoc]
          exact route.plain.append plain
        obtain ⟨fuel, rfl⟩ := Nat.exists_eq_succ_of_ne_zero (by
          rw [List.length_append, List.length_singleton] at bound
          omega : fuel ≠ 0)
        obtain ⟨mid, made, paved⟩ := ih plain.front shorter fuel (by simpa using bound)
        have orderly : mid.Orderly := by
          have keeps := keepsOrder_makeLevels (fuel + 1) (Location.path (front ++ below)) fs route.orderly
          rwa [made] at keeps
        have failed : makeDirectory (Location.path (front ++ (below ++ [name]))) fs =
            (.error .notFound, fs) := by
          rw [makeDirectory_apply, Location.withoutEndSlash_path (route.plain.append plain) (by simp),
            Location.isEmpty_path, if_neg (by simp), route.walk_unready plain shorter missing]
        rw [failed]
        dsimp only
        rw [if_pos (by decide), ← List.append_assoc, Location.parent?_path whole]
        dsimp only
        rw [made, List.append_assoc]
        dsimp only
        have route' := route.keeps paved.keeps orderly
        obtain ⟨there, failed, known⟩ | ⟨after, made, more⟩ :=
          route'.makeDirectory_below plain (paved.isDirectory shorter) (paved.pavable pavable)
        · rw [failed]
          dsimp only
          rw [if_pos known]
          rw [← List.append_assoc directory] at there ⊢
          exact ⟨mid, rfl, paved.trans (orderly.paved there)⟩
        · rw [made]
          rw [← List.append_assoc directory] at more ⊢
          exact ⟨after, rfl, paved.trans more⟩

end Route

end StaticSite.FileSystem
