import StaticSite.FileSystem.Write
import StaticSite.Proofs.FileSystem.Editing

/-!
What writing and copying leave behind. A walk that succeeds is not disturbed by a file that is written
where there was a file or nothing, nor by a directory that is made where there was nothing.
-/

namespace StaticSite.FileSystem

/-! ## Walks that are not disturbed -/

/-- The directories and links of a file system stand in another one as well. -/
structure Carries (fs after : FileSystem) : Prop where
  workingDirectory : after.workingDirectory = fs.workingDirectory
  passable : ∀ {place entry}, fs.get? place = some entry → (∀ content time, entry ≠ .file content time) →
    after.get? place = some entry

section Carries

variable {fs after : FileSystem} {follow : Bool} {standing location : Location} {names : List String}

/-- A walk ends behind a directory at whatever has the last name, unless it is a link. -/
theorem leg_last {directory : Location} {name : String} {time : Time}
    (known : fs.get? directory = some (.directory time)) (notDot : name ≠ ".") (notUp : name ≠ "..")
    (unlinked : ∀ target, fs.get? (directory ++ [name]) ≠ some (.link target)) :
    fs.leg follow directory [name] = .reached (directory ++ [name]) := by
  rw [leg, known]
  dsimp only
  rw [if_neg notDot, if_neg notUp]
  cases found : fs.get? (directory ++ [name]) with
  | none => rfl
  | some entry =>
      cases entry with
      | directory time => rfl
      | file content time => rfl
      | link target => exact absurd found (unlinked target)

theorem Carries.directory (carries : Carries fs after) {time : Time}
    (known : fs.get? location = some (.directory time)) : after.get? location = some (.directory time) :=
  carries.passable known (by simp)

/-- A walk that does not fail goes the same way, if no link has come to be at its end. -/
theorem leg_carries (carries : Carries fs after) (follow : Bool) (directory : Location) (names : List String)
    (succeeds : ∀ error, fs.leg follow directory names ≠ .failed error)
    (unlinked : ∀ place, fs.leg follow directory names = .reached place →
      ∀ target, after.get? place = some (.link target) → fs.get? place = some (.link target)) :
    after.leg follow directory names = fs.leg follow directory names := by
  fun_induction leg fs follow directory names with
  | case1 directory => rfl
  | case2 directory rest time known ih =>
      rw [leg, carries.directory known]
      exact ih succeeds unlinked
  | case3 directory rest time known notDot ih =>
      rw [leg, carries.directory known]
      exact ih succeeds unlinked
  | case4 directory name time known notDot notUp absent =>
      refine leg_last (carries.directory known) notDot notUp fun target link => ?_
      simpa [absent] using unlinked _ rfl target link
  | case6 directory name rest time known notDot notUp below below_known ih =>
      rw [leg, carries.directory known, carries.directory below_known]
      dsimp only
      rw [if_neg notDot, if_neg notUp]
      exact ih succeeds unlinked
  | case7 directory name time known notDot notUp content below file =>
      refine leg_last (carries.directory known) notDot notUp fun target link => ?_
      simpa [file] using unlinked _ rfl target link
  | case9 directory name rest time known notDot notUp target link ends =>
      rw [leg, carries.directory known, carries.passable link (by simp)]
      dsimp only
      rw [if_neg notDot, if_neg notUp, if_pos ends]
  | case10 directory name rest time known notDot notUp target link goesOn =>
      rw [leg, carries.directory known, carries.passable link (by simp)]
      dsimp only
      rw [if_neg notDot, if_neg notUp, if_neg goesOn]
  | case5 => exact absurd rfl (succeeds _)
  | case8 => exact absurd rfl (succeeds _)
  | case11 => exact absurd rfl (succeeds _)

theorem walkFrom_carries (carries : Carries fs after) {links : Nat}
    (walked : fs.walkFrom follow links standing names = .ok location)
    (unlinked : ∀ target, after.get? location = some (.link target) → fs.get? location = some (.link target)) :
    after.walkFrom follow links standing names = .ok location := by
  fun_induction walkFrom fs follow links standing names with
  | case1 links directory names reached went =>
      cases walked
      have same := leg_carries carries follow directory names (by simp [went]) fun place ends => by
        rw [went] at ends
        cases ends
        exact unlinked
      rw [walkFrom, same, went]
  | case2 links directory names error went => cases walked
  | case3 directory names met target rest went => cases walked
  | case4 directory names met target rest went links nowhere => cases walked
  | case5 directory names met target rest went links somewhere ih =>
      rw [walkFrom, leg_carries carries follow directory names (by simp [went]) (by simp [went]), went]
      dsimp only
      rw [if_neg somewhere]
      exact ih walked

theorem walk_carries (carries : Carries fs after) {p : Path} (walked : fs.walk follow p = .ok location)
    (unlinked : ∀ target, after.get? location = some (.link target) → fs.get? location = some (.link target)) :
    after.walk follow p = .ok location := by
  unfold walk at walked ⊢
  split
  case isTrue empty => rw [if_pos empty] at walked; cases walked
  case isFalse text =>
    rw [if_neg text] at walked
    rw [carries.workingDirectory]
    exact walkFrom_carries carries walked unlinked

end Carries

/-! ## A place that is filled -/

/-- An entry that can be put at a place without a walk that succeeds going elsewhere. -/
def Fills (entry : Entry) (place : Option Entry) : Prop :=
  match entry, place with
  | .file _ _, none => True
  | .file _ _, some (.file _ _) => True
  | .directory _, none => True
  | _, _ => False

section Fill

variable {fs : FileSystem} {location : Location} {entry : Entry}

theorem ne_root_of_fills (fills : Fills entry (fs.get? location)) : location ≠ [] := by
  rintro rfl
  cases entry <;> exact fills

theorem get?_put_fills (fills : Fills entry (fs.get? location)) (other : Location) :
    (fs.put location entry).get? other = if other = location then some entry else fs.get? other := by
  rw [get?_put]
  by_cases root : other = []
  · subst root
    rw [if_pos rfl, if_neg (Ne.symm (ne_root_of_fills fills)), get?, if_pos rfl]
  · rw [if_neg root]

/-- A directory or a link stays where it is. -/
theorem carries_put (fills : Fills entry (fs.get? location)) : Carries fs (fs.put location entry) where
  workingDirectory := rfl
  passable {other found} known passable := by
    rw [get?_put_fills fills, if_neg, known]
    rintro rfl
    rw [known] at fills
    cases found with
    | directory time => cases entry <;> exact fills
    | file content time => exact passable content time rfl
    | link target => cases entry <;> exact fills

theorem walk_put_fills (fills : Fills entry (fs.get? location)) {follow : Bool} {p : Path}
    {there : Location} (walked : fs.walk follow p = .ok there) :
    (fs.put location entry).walk follow p = .ok there := by
  refine walk_carries (carries_put fills) walked fun target link => ?_
  rw [get?_put_fills fills] at link
  split at link
  · cases link
    exact fills.elim
  · exact link

end Fill

/-! ## Orderly file systems -/

def IsDirectory (fs : FileSystem) (location : Location) : Prop :=
  ∃ time, fs.get? location = some (.directory time)

/-- Whatever there is lies in a directory. -/
def Orderly (fs : FileSystem) : Prop :=
  ∀ location name entry, fs.get? (location ++ [name]) = some entry → fs.IsDirectory location

/-- Where a walk can end: at a directory, or in one at something that is no link to follow. -/
def Endpoint (fs : FileSystem) (follow : Bool) (location : Location) : Prop :=
  fs.IsDirectory location ∨
    ∃ directory name, location = directory ++ [name] ∧ fs.IsDirectory directory ∧
      (follow = true → ∀ target, fs.get? location ≠ some (.link target))

section Orderly

variable {fs : FileSystem} {location : Location} {entry : Entry}

theorem isDirectory_root (fs : FileSystem) : fs.IsDirectory [] := ⟨0, rfl⟩

theorem not_isDirectory_of_get? (known : fs.get? location = some entry)
    (solid : ∀ time, entry ≠ .directory time) : ¬fs.IsDirectory location := by
  rintro ⟨time, directory⟩
  exact solid time (Option.some.inj (known.symm.trans directory))

theorem Orderly.isDirectory_dropLast (orderly : Orderly fs) {directory : Location}
    (known : fs.IsDirectory directory) : fs.IsDirectory directory.dropLast := by
  rcases List.eq_nil_or_concat directory with rfl | ⟨above, name, rfl⟩
  · exact known
  · obtain ⟨time, known⟩ := known
    rw [List.concat_eq_append] at known
    rw [List.concat_eq_append, List.dropLast_concat]
    exact orderly above name _ known

theorem orderly_of_entries (inside : ∀ found ∈ fs.entries, fs.IsDirectory found.1.dropLast) :
    Orderly fs := by
  intro location name entry known
  rw [get?, if_neg (by simp)] at known
  obtain ⟨found, picked, -⟩ := Option.map_eq_some_iff.mp known
  have same : found.1 = location ++ [name] := by simpa using List.find?_some picked
  have directory := inside found (List.mem_of_find?_eq_some picked)
  rwa [same, List.dropLast_concat] at directory

/-- From a directory, or with a name left that asks for one, a walk ends where a walk can end and a link
stands in a directory. -/
theorem Orderly.leg_ends (orderly : Orderly fs) (follow : Bool) {directory : Location}
    {names : List String} (starts : names ≠ [] ∨ fs.IsDirectory directory) :
    match fs.leg follow directory names with
    | .reached there => fs.Endpoint follow there
    | .link standing _ _ => fs.IsDirectory standing
    | .failed _ => True := by
  fun_induction leg fs follow directory names with
  | case1 directory => exact .inl (starts.resolve_left (by simp))
  | case2 directory rest time known ih => exact ih (.inr ⟨time, known⟩)
  | case3 directory rest time known notDot ih =>
      exact ih (.inr (orderly.isDirectory_dropLast ⟨time, known⟩))
  | case4 directory name time known notDot notUp absent =>
      exact .inr ⟨directory, name, rfl, ⟨time, known⟩, by simp [absent]⟩
  | case6 directory name rest time known notDot notUp below below_known ih => exact ih (.inr ⟨below, below_known⟩)
  | case7 directory name time known notDot notUp content below file =>
      exact .inr ⟨directory, name, rfl, ⟨time, known⟩, by simp [file]⟩
  | case9 directory name rest time known notDot notUp target link ends =>
      exact .inr ⟨directory, name, rfl, ⟨time, known⟩, by simp_all⟩
  | case10 directory name rest time known notDot notUp target link goesOn => exact ⟨time, known⟩
  | case5 => trivial
  | case8 => trivial
  | case11 => trivial

theorem pieces_ne_nil (text : List Char) : Path.pieces text ≠ [] := by
  fun_induction Path.pieces text <;> simp

theorem todo_ne_nil (p : Path) : todo p ≠ [] := by
  have some_part : (Path.pieces p.text.toList).map String.ofList ≠ [] := by
    simpa using pieces_ne_nil p.text.toList
  rw [todo, List.getLast?_eq_some_getLast some_part]
  by_cases last : ((Path.pieces p.text.toList).map String.ofList).getLast some_part = ""
  · simp [last]
  · have member := List.getLast_mem some_part
    refine List.append_ne_nil_of_left_ne_nil (List.ne_nil_of_mem (List.mem_filter.mpr ⟨member, ?_⟩)) _
    simpa using last

theorem Orderly.walkFrom_ends (orderly : Orderly fs) {follow : Bool} {links : Nat}
    {directory there : Location} {names : List String} (starts : names ≠ [] ∨ fs.IsDirectory directory)
    (walked : fs.walkFrom follow links directory names = .ok there) : fs.Endpoint follow there := by
  have ends := orderly.leg_ends follow starts
  fun_induction walkFrom fs follow links directory names with
  | case1 links directory names reached went =>
      rw [went] at ends
      cases walked
      exact ends
  | case2 links directory names error went => cases walked
  | case3 directory names standing target rest went => cases walked
  | case4 directory names standing target rest went links nowhere => cases walked
  | case5 directory names standing target rest went links somewhere ih =>
      rw [went] at ends
      have next : todo target ++ rest ≠ [] ∨ fs.IsDirectory (if target.isAbsolute then [] else standing) := by
        right
        split
        · exact fs.isDirectory_root
        · exact ends
      exact ih next walked (orderly.leg_ends follow next)

theorem Orderly.walk_ends (orderly : Orderly fs) {follow : Bool} {p : Path} {there : Location}
    (walked : fs.walk follow p = .ok there) : fs.Endpoint follow there := by
  unfold walk at walked
  split at walked
  · cases walked
  · exact orderly.walkFrom_ends (.inl (todo_ne_nil p)) walked

theorem IsDirectory.put {directory : Location} (known : fs.IsDirectory directory)
    (fills : Fills entry (fs.get? location)) : (fs.put location entry).IsDirectory directory := by
  obtain ⟨time, known⟩ := known
  exact ⟨time, (carries_put fills).directory known⟩

/-- A place that is filled in a directory leaves all in order. -/
theorem Orderly.put (orderly : Orderly fs) {directory : Location} {name : String}
    (known : fs.IsDirectory directory) (fills : Fills entry (fs.get? (directory ++ [name]))) :
    Orderly (fs.put (directory ++ [name]) entry) := by
  intro above last found there
  rw [get?_put_fills fills] at there
  split at there
  case isTrue same =>
    obtain ⟨rfl, -⟩ := List.append_inj' same rfl
    exact known.put fills
  case isFalse => exact (orderly above last found there).put fills

end Orderly

/-! ## Operations -/

section Operations

variable {α β : Type} {fs after : FileSystem} {p : Path} {content : Bytes}

theorem fileM_bind_apply (action : FileM α) (next : α → FileM β) (fs : FileSystem) :
    (action >>= next) fs =
      match action fs with
      | (.ok value, after) => next value after
      | (.error error, after) => (.error error, after) := by
  change ExceptT.bindCont next (action fs).1 (action fs).2 = _
  rcases action fs with ⟨_ | _, after⟩ <;> rfl

theorem fileM_get_bind_apply (next : FileSystem → FileM α) (fs : FileSystem) :
    (get >>= next) fs = next fs fs :=
  rfl

theorem write_apply (p : Path) (content : Bytes) (fs : FileSystem) :
    write p content fs =
      match fs.placeToWrite p with
      | .ok location => (.ok (), fs.put location (.file content fs.now))
      | .error error => (.error error, fs) := by
  unfold write
  rw [fileM_bind_apply]
  change (liftM (fs.placeToWrite p) >>= fun location => set (fs.put location (.file content fs.now)) :
    FileM Unit) fs = _
  cases fs.placeToWrite p <;> rfl

/-- Where a file is written there is a place in a directory that a file can fill. -/
theorem Orderly.placeToWrite (orderly : Orderly fs) {location : Location}
    (placed : fs.placeToWrite p = .ok location) :
    fs.walk true p = .ok location ∧
      ∃ directory name, location = directory ++ [name] ∧ fs.IsDirectory directory ∧
        ∀ content time, Fills (.file content time) (fs.get? location) := by
  unfold FileSystem.placeToWrite at placed
  cases walked : fs.walk true p with
  | error error =>
      rw [walked] at placed
      dsimp only at placed
      split at placed <;> cases placed
  | ok there =>
      rw [walked] at placed
      dsimp only at placed
      have ends := orderly.walk_ends walked
      cases known : fs.get? there with
      | some entry =>
          cases entry with
          | directory time => simp [known] at placed
          | file content time =>
              simp only [known] at placed
              split at placed <;> cases placed
              rcases ends with ⟨time, directory⟩ | ⟨directory, name, inside, above, -⟩
              · simp [known] at directory
              · exact ⟨rfl, directory, name, inside, above, fun _ _ => by simp [known, Fills]⟩
          | link target =>
              rcases ends with ⟨time, directory⟩ | ⟨-, -, -, -, unlinked⟩
              · simp [known] at directory
              · exact absurd known (unlinked rfl target)
      | none =>
          simp only [known] at placed
          split at placed <;> cases placed
          rcases ends with ⟨time, directory⟩ | ⟨directory, name, inside, above, -⟩
          · simp [known] at directory
          · exact ⟨rfl, directory, name, inside, above, fun _ _ => by simp [known, Fills]⟩

theorem exists_of_write_ok (orderly : Orderly fs) (wrote : write p content fs = (.ok (), after)) :
    ∃ location, after = fs.put location (.file content fs.now) ∧ Orderly after ∧
      (∀ other time, Fills (.file other time) (fs.get? location)) ∧
      after.find true p = .ok (location, .file content fs.now) := by
  rw [write_apply] at wrote
  cases placed : fs.placeToWrite p with
  | error error =>
      rw [placed] at wrote
      cases wrote
  | ok location =>
      rw [placed] at wrote
      cases wrote
      obtain ⟨walked, directory, name, rfl, above, fills⟩ := orderly.placeToWrite placed
      have stays := walk_put_fills (fills content fs.now) walked
      refine ⟨_, rfl, orderly.put above (fills _ _), fills, ?_⟩
      rw [find, stays]
      simp [bind, Except.bind, get?_put_fills (fills content fs.now)]

theorem copy_apply (source destination : Path) (fs : FileSystem) :
    copy source destination fs =
      match fs.find true source with
      | .error error => (.error error, fs)
      | .ok (location, .file _ _) =>
        (do
          write destination []
          match (← get).get? location with
          | some (.file content _) => do
            write destination content
            return content.length
          | _ => throw IoError.notFound) fs
      | .ok _ => (.error .sourceNotAFile, fs) := by
  unfold copy
  rw [fileM_bind_apply]
  change (liftM (fs.find true source) >>= _ : FileM Nat) fs = _
  rw [fileM_bind_apply]
  cases fs.find true source with
  | error error => rfl
  | ok found => obtain ⟨location, entry⟩ := found; cases entry <;> rfl

/-- The second half of a copy, when the destination was emptied: the content that is there is written. -/
theorem reads_of_refill (orderly : Orderly fs) {source destination : Path} {location : Location}
    {size : Nat} (walked : fs.walk true source = .ok location)
    (copied : (do
      match (← get).get? location with
      | some (.file content _) => do
        write destination content
        return content.length
      | _ => throw IoError.notFound : FileM Nat) fs = (.ok size, after)) :
    ∃ content, after.read source = .ok content ∧ after.read destination = .ok content := by
  change (match fs.get? location with
    | some (.file content _) => do
      write destination content
      return content.length
    | _ => throw IoError.notFound : FileM Nat) fs = (.ok size, after) at copied
  cases known : fs.get? location with
  | none => rw [known] at copied; cases copied
  | some entry =>
      rw [known] at copied
      cases entry with
      | directory time => cases copied
      | link target => cases copied
      | file content time =>
          refine ⟨content, ?_⟩
          dsimp only at copied
          rw [fileM_bind_apply] at copied
          cases wrote : write destination content fs with
          | mk result filled =>
              rw [wrote] at copied
              cases result with
              | error error => cases copied
              | ok done =>
                  cases copied
                  obtain ⟨there, rfl, -, fills, found⟩ := exists_of_write_ok orderly wrote
                  refine ⟨?_, read_of_walk (walk_of_find found) (get?_of_find found)⟩
                  have stays := walk_put_fills (fills content fs.now) walked
                  by_cases same : location = there
                  · subst same
                    exact read_of_walk stays (get?_of_find found)
                  · refine read_of_walk stays (?_ : _ = some (Entry.file content time))
                    rw [get?_put_fills (fills content fs.now), if_neg same, known]

/-- After a copy both files read the same, even if they are one. -/
theorem reads_of_copy_ok (orderly : Orderly fs) {source destination : Path} {size : Nat}
    (copied : copy source destination fs = (.ok size, after)) :
    ∃ content, after.read source = .ok content ∧ after.read destination = .ok content := by
  rw [copy_apply] at copied
  cases found : fs.find true source with
  | error error => rw [found] at copied; cases copied
  | ok place =>
      obtain ⟨location, entry⟩ := place
      rw [found] at copied
      cases entry with
      | directory time => cases copied
      | link target => cases copied
      | file content time =>
          dsimp only at copied
          rw [fileM_bind_apply] at copied
          cases emptied : write destination [] fs with
          | mk result between =>
              rw [emptied] at copied
              cases result with
              | error error => cases copied
              | ok done =>
                  obtain ⟨there, rfl, orderly', fills, -⟩ := exists_of_write_ok orderly emptied
                  have walked := walk_put_fills (fills [] fs.now) (walk_of_find found)
                  generalize fs.put there (.file [] fs.now) = between at copied orderly' walked
                  exact reads_of_refill orderly' walked copied

theorem tryCatch_apply (action : FileM α) (handler : IoError → FileM α) (fs : FileSystem) :
    (tryCatch action handler) fs =
      match action fs with
      | (.ok value, after) => (.ok value, after)
      | (.error error, after) => handler error after := by
  simp only [tryCatch, tryCatchThe, MonadExceptOf.tryCatch, ExceptT.tryCatch, ExceptT.mk, bind,
    StateT.bind]
  rcases action fs with ⟨_ | _, after⟩ <;> rfl

/-- Steps that can follow one another. -/
structure Composes (ready : FileSystem → Prop) (step : FileSystem → FileSystem → Prop) : Prop where
  refl : ∀ fs, step fs fs
  trans : ∀ {fs mid after}, step fs mid → step mid after → step fs after
  ready : ∀ {fs after}, ready fs → step fs after → ready after

/-- An operation that is such a step, whether it succeeds or not. -/
def Within (ready : FileSystem → Prop) (step : FileSystem → FileSystem → Prop) (action : FileM α) : Prop :=
  ∀ fs, ready fs → step fs (action fs).2

namespace Composes

variable {ready : FileSystem → Prop} {step : FileSystem → FileSystem → Prop}
  {action : FileM α} {next : α → FileM β}

theorem pure (composes : Composes ready step) (value : α) : Within ready step (Pure.pure value : FileM α) :=
  fun fs _ => composes.refl fs

theorem throw (composes : Composes ready step) (error : IoError) :
    Within ready step (MonadExcept.throw error : FileM α) :=
  fun fs _ => composes.refl fs

theorem lift (composes : Composes ready step) (result : Except IoError α) :
    Within ready step (liftM result : FileM α) := by
  intro fs _
  cases result <;> exact composes.refl fs

theorem bind (composes : Composes ready step) (first : Within ready step action)
    (rest : ∀ value, Within ready step (next value)) : Within ready step (action >>= next) := by
  intro fs start
  have between := first fs start
  rw [fileM_bind_apply]
  generalize action fs = outcome at between ⊢
  obtain ⟨_ | value, after⟩ := outcome
  · exact between
  · exact composes.trans between (rest value after (composes.ready start between))

theorem tryCatch {handler : IoError → FileM α} (composes : Composes ready step)
    (first : Within ready step action) (rest : ∀ error, Within ready step (handler error)) :
    Within ready step (MonadExcept.tryCatch action handler) := by
  intro fs start
  have between := first fs start
  rw [show (MonadExcept.tryCatch action handler) fs = _ from tryCatch_apply action handler fs]
  generalize action fs = outcome at between ⊢
  obtain ⟨error | value, after⟩ := outcome
  · exact composes.trans between (rest error after (composes.ready start between))
  · exact between

theorem get_bind {next : FileSystem → FileM α} (rest : ∀ fs, Within ready step (next fs)) :
    Within ready step (do next (← get)) :=
  fun fs start => rest fs fs start

/-- Directories are made level by level, each one by such steps. -/
theorem makeLevels (composes : Composes ready step) {tried : Path → Prop}
    (climbs : ∀ {p above}, tried p → p.parent? = some above → tried above)
    (made : ∀ {p}, tried p → p.text.isEmpty = false → Within ready step (makeDirectory p)) (fuel : Nat) {p : Path}
    (start : tried p) : Within ready step (FileSystem.makeLevels fuel p) := by
  have unless_directory (p : Path) (error : IoError) :
      Within ready step (do unless (← get).isDirectory p do MonadExcept.throw error) := by
    apply get_bind
    intro fs
    cases fs.isDirectory p
    · exact composes.throw error
    · exact composes.pure ()
  -- on the levels that are tried: below a missing directory the same is done, one level up, before the
  -- second attempt
  induction fuel generalizing p with
  | zero => exact composes.pure ()
  | succ fuel ih =>
      unfold FileSystem.makeLevels
      split
      case isTrue => exact composes.pure ()
      case isFalse some_char =>
        have make := made start (by simpa using some_char)
        refine composes.tryCatch make fun error => ?_
        split
        · cases parent : p.parent? with
          | none => exact composes.throw error
          | some above =>
              exact composes.bind (ih (climbs start parent)) fun _ =>
                composes.tryCatch make fun error => unless_directory p error
        · exact unless_directory p error

end Composes

/-- An operation after which something holds of the files if it did before, also if the operation fails. -/
def Preserves (kept : FileSystem → Prop) (action : FileM α) : Prop := ∀ fs, kept fs → kept (action fs).2

theorem composes_kept (kept : FileSystem → Prop) : Composes (fun _ => True) fun fs after => kept fs → kept after :=
  ⟨fun _ => id, fun first second => second ∘ first, fun _ _ => trivial⟩

namespace Preserves

variable {kept : FileSystem → Prop} {action : FileM α}

theorem within (preserves : Preserves kept action) :
    Within (fun _ => True) (fun fs after => kept fs → kept after) action :=
  fun fs _ => preserves fs

theorem of_within (steps : Within (fun _ => True) (fun fs after => kept fs → kept after) action) :
    Preserves kept action :=
  fun fs => steps fs trivial

protected theorem pure (value : α) : Preserves kept (pure value : FileM α) := fun _ holds => holds

protected theorem throw (error : IoError) : Preserves kept (throw error : FileM α) := fun _ holds => holds

protected theorem bind {next : α → FileM β} (first : Preserves kept action)
    (rest : ∀ value, Preserves kept (next value)) : Preserves kept (action >>= next) :=
  of_within ((composes_kept kept).bind first.within fun value => (rest value).within)

theorem get_bind {next : FileSystem → FileM α} (rest : ∀ fs, Preserves kept (next fs)) :
    Preserves kept (do next (← get)) :=
  fun fs holds => rest fs fs holds

protected theorem makeLevels (made : ∀ p, Preserves kept (makeDirectory p)) (fuel : Nat) (p : Path) :
    Preserves kept (makeLevels fuel p) :=
  of_within ((composes_kept kept).makeLevels (fun _ _ => trivial) (fun _ _ => (made _).within) fuel
    (show (fun _ : Path => True) p from trivial))

protected theorem makeParent (made : ∀ p, Preserves kept (makeDirectory p)) (p : Path) :
    Preserves kept (makeParent p) := by
  unfold makeParent
  split
  · split
    · exact .pure ()
    · exact .makeLevels made _ _
  · exact .pure ()

end Preserves

/-- An operation after which all is in order if it was before. -/
abbrev KeepsOrder (action : FileM α) : Prop := Preserves Orderly action

theorem keepsOrder_write (p : Path) (content : Bytes) : KeepsOrder (write p content) := by
  intro fs orderly
  rw [write_apply]
  cases placed : fs.placeToWrite p with
  | error error => exact orderly
  | ok location =>
      obtain ⟨-, directory, name, rfl, above, fills⟩ := orderly.placeToWrite placed
      exact orderly.put above (fills content fs.now)

theorem keepsOrder_copy (source destination : Path) : KeepsOrder (copy source destination) := by
  intro fs orderly
  rw [copy_apply]
  cases fs.find true source with
  | error error => exact orderly
  | ok found =>
      obtain ⟨location, entry⟩ := found
      cases entry with
      | directory time => exact orderly
      | link target => exact orderly
      | file content time =>
          refine (keepsOrder_write destination []).bind (fun _ => ?_) fs orderly
          apply Preserves.get_bind
          intro between
          split
          · exact (keepsOrder_write destination _).bind fun _ => .pure _
          · exact .throw _

theorem makeDirectory_apply (p : Path) (fs : FileSystem) :
    makeDirectory p fs =
      match fs.walk false (if (withoutEndSlash p).text.isEmpty then p else withoutEndSlash p) with
      | .error error => (.error error, fs)
      | .ok location =>
        if (fs.get? location).isSome then (.error .alreadyExists, fs)
        else (.ok (), fs.put location (.directory fs.now)) := by
  unfold makeDirectory
  rw [fileM_bind_apply]
  change (liftM (fs.walk false _) >>= _ : FileM Unit) fs = _
  rw [fileM_bind_apply]
  cases fs.walk false (if (withoutEndSlash p).text.isEmpty then p else withoutEndSlash p) with
  | error error => rfl
  | ok location =>
      change (if (fs.get? location).isSome then throw .alreadyExists
        else set (fs.put location (.directory fs.now)) : FileM Unit) fs = _
      dsimp only
      by_cases known : (fs.get? location).isSome = true
      · rw [if_pos known, if_pos known]
        rfl
      · rw [if_neg known, if_neg known]
        rfl

theorem keepsOrder_makeDirectory (p : Path) : KeepsOrder (makeDirectory p) := by
  intro fs orderly
  rw [makeDirectory_apply]
  cases walked : fs.walk false (if (withoutEndSlash p).text.isEmpty then p else withoutEndSlash p) with
  | error error => exact orderly
  | ok location =>
      dsimp only
      split
      case isTrue => exact orderly
      case isFalse absent =>
        have absent : fs.get? location = none := by simpa using absent
        rcases orderly.walk_ends walked with ⟨time, there⟩ | ⟨directory, name, rfl, above, -⟩
        · simp [absent] at there
        · exact orderly.put above (by rw [absent]; trivial)

theorem keepsOrder_makeLevels (fuel : Nat) (p : Path) : KeepsOrder (makeLevels fuel p) :=
  .makeLevels keepsOrder_makeDirectory fuel p

theorem keepsOrder_makeParent (p : Path) : KeepsOrder (makeParent p) :=
  .makeParent keepsOrder_makeDirectory p

theorem reads_of_copyFile_ok (orderly : Orderly fs) {source destination : Path} {size : Nat}
    (copied : copyFile source destination fs = (.ok size, after)) :
    ∃ content, after.read source = .ok content ∧ after.read destination = .ok content := by
  unfold copyFile at copied
  rw [tryCatch_apply] at copied
  have between := keepsOrder_copy source destination fs orderly
  cases tried : copy source destination fs with
  | mk result failed =>
      rw [tried] at copied between
      cases result with
      | ok size' =>
          cases copied
          exact reads_of_copy_ok orderly tried
      | error error =>
          dsimp only at copied between
          change (if error == .notFound && failed.exists? source then do
              makeParent destination
              copy source destination
            else throw error : FileM Nat) failed = _ at copied
          split at copied
          case isFalse => cases copied
          case isTrue =>
            have made := keepsOrder_makeParent destination failed between
            rw [fileM_bind_apply] at copied
            generalize makeParent destination failed = outcome at copied made
            obtain ⟨error | done, parented⟩ := outcome
            · cases copied
            · exact reads_of_copy_ok made copied

end Operations

end StaticSite.FileSystem
