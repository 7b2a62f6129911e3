import StaticSite.Proofs.FileSystem.Footprint

/-!
Files that are written or copied to a place, and links that are recreated there: what they leave at the
place, and that they change nothing else.
-/

namespace StaticSite.FileSystem

open Location (Plain)

variable {fs after : FileSystem} {location place source : Location} {content : Bytes} {time : Time}

/-! ## Writing -/

/-- A place in a directory for a file, where there is a file or nothing. -/
structure Vacant (fs : FileSystem) (location : Location) : Prop where
  above : fs.IsDirectory location.dropLast
  fills : ∀ content time, Fills (.file content time) (fs.get? location)

theorem Vacant.alters (vacant : fs.Vacant location) (some_name : location ≠ []) (content : Bytes) :
    Alters {location} ∅ fs (fs.put location (.file content fs.now)) := by
  rcases List.eq_nil_or_concat location with rfl | ⟨directory, name, rfl⟩
  · exact absurd rfl some_name
  · rw [List.concat_eq_append] at *
    have above := vacant.above
    rw [List.dropLast_concat] at above
    exact .put some_name (fun _ _ => .inl rfl) (.file content rfl) fun orderly =>
      orderly.put above (vacant.fills content fs.now)

/-- A path with no link on its way is written to at its place. -/
theorem placeToWrite_path (ready : Ready true location fs) (plain : Plain location)
    (some_name : location ≠ [])
    (placed : fs.placeToWrite (Location.path location) = .ok place) :
    place = location ∧ fs.walk true (Location.path location) = .ok location ∧ fs.Vacant location := by
  obtain ⟨walked, directory, name, inside, known, fills⟩ := ready.orderly.placeToWrite placed
  obtain rfl := eq_of_walk_straight plain some_name ready.straight walked
  exact ⟨rfl, walked, by rwa [inside, List.dropLast_concat], fills⟩

theorem write_path (ready : Ready true location fs) (plain : Plain location) (some_name : location ≠ [])
    (content : Bytes) :
    (∃ error, write (Location.path location) content fs = (.error error, fs)) ∨
      fs.Vacant location ∧ fs.walk true (Location.path location) = .ok location ∧
        write (Location.path location) content fs = (.ok (), fs.put location (.file content fs.now)) := by
  rw [write_apply]
  cases placed : fs.placeToWrite (Location.path location) with
  | error error => exact .inl ⟨error, rfl⟩
  | ok place =>
      obtain ⟨rfl, walked, vacant⟩ := placeToWrite_path ready plain some_name placed
      exact .inr ⟨vacant, walked, rfl⟩

theorem within_write (plain : Plain location) (some_name : location ≠ []) (content : Bytes) :
    Within (Ready true location) (Alters {location} ∅) (write (Location.path location) content) := by
  intro fs ready
  obtain ⟨error, failed⟩ | ⟨vacant, -, wrote⟩ := write_path ready plain some_name content
  · rw [failed]
    exact .refl _ _ fs
  · rw [wrote]
    exact vacant.alters some_name content

namespace Composes

variable {ready : FileSystem → Prop} {step : FileSystem → FileSystem → Prop} {p : Path}
  (composes : Composes ready step) (wrote : ∀ content, Within ready step (write p content))
  (paved : Within ready step (makeParent p))

include composes wrote paved

theorem writeFile (content : Bytes) : Within ready step (writeFile p content) := by
  refine composes.tryCatch (wrote content) fun error => ?_
  split
  · exact composes.bind paved fun _ => wrote content
  · exact composes.throw error

omit paved in
theorem copy (source : Path) : Within ready step (copy source p) := by
  intro fs start
  rw [copy_apply]
  cases fs.find true source with
  | error error => exact composes.refl fs
  | ok found =>
      obtain ⟨place, entry⟩ := found
      cases entry with
      | directory time => exact composes.refl fs
      | link target => exact composes.refl fs
      | file content time =>
          refine composes.bind (wrote []) (fun _ => get_bind fun between => ?_) fs start
          split
          · exact composes.bind (wrote _) fun _ => composes.pure _
          · exact composes.throw _

theorem copyFile (source : Path) : Within ready step (copyFile source p) := by
  refine composes.tryCatch (composes.copy wrote source) fun error => get_bind fun fs => ?_
  split
  · exact composes.bind paved fun _ => composes.copy wrote source
  · exact composes.throw error

end Composes

theorem within_writeFile (plain : Plain location) (some_name : location ≠ []) (content : Bytes) :
    Within (Ready true location) (Alters {location} ∅) (writeFile (Location.path location) content) :=
  (composes_alters (by simp)).writeFile (within_write plain some_name)
    (fun fs ready => (within_makeParent plain fs ready).alters (.inl rfl)) content

/-! ## Copying -/

theorem put_put (fs : FileSystem) (location : Location) (first second : Entry) :
    (fs.put location first).put location second = fs.put location second := by
  simp [put, List.filter_filter]

/-- A file that was written is written to again at its place. -/
theorem write_again {p : Path} (fills : ∀ content time, Fills (.file content time) (fs.get? location))
    (walked : fs.walk true p = .ok location) (named : endsInSlash p = false) (content content' : Bytes) :
    write p content' (fs.put location (.file content fs.now)) =
      (.ok (), fs.put location (.file content' fs.now)) := by
  have fills := fills content fs.now
  have placed : (fs.put location (.file content fs.now)).placeToWrite p = .ok location := by
    rw [placeToWrite, walk_put_fills fills walked]
    dsimp only
    rw [get?_put_fills fills, if_pos rfl]
    dsimp only
    rw [named, if_neg (by simp)]
  rw [write_apply, placed]
  dsimp only
  rw [put_put]
  rfl

/-- A copy fails without a change, or puts the content of the source at its place. -/
theorem copy_path (ready : Ready true location fs) (plain : Plain location) (some_name : location ≠ [])
    (plain' : Plain source) (known : fs.get? source = some (.file content time))
    (apart : source ≠ location) :
    (∃ error, copy (Location.path source) (Location.path location) fs = (.error error, fs)) ∨
      fs.Vacant location ∧ copy (Location.path source) (Location.path location) fs =
        (.ok content.length, fs.put location (.file content fs.now)) := by
  have source_name : source ≠ [] := by
    rintro rfl
    simp [get?] at known
  rw [copy_apply, ready.orderly.find_path plain' source_name known (by simp)]
  dsimp only
  rw [fileM_bind_apply]
  obtain ⟨error, failed⟩ | ⟨vacant, walked, wrote⟩ := write_path ready plain some_name []
  · rw [failed]
    exact .inl ⟨error, rfl⟩
  · right
    refine ⟨vacant, ?_⟩
    rw [wrote]
    -- emptying the place first does not touch the source, which stands elsewhere
    have there : (fs.put location (.file [] fs.now)).get? source = some (.file content time) := by
      rw [get?_put_fills (vacant.fills [] fs.now), if_neg apart, known]
    dsimp only
    rw [fileM_get_bind_apply, there]
    dsimp only
    rw [fileM_bind_apply, write_again vacant.fills walked (Location.endsInSlash_path plain some_name)]
    rfl

/-- What copying a file does to the place that it is copied to. -/
inductive Copied (location : Location) (content : Bytes) (fs : FileSystem) :
    Except IoError Nat × FileSystem → Prop
  | failed {error : IoError} {after : FileSystem} (paves : Paves location fs after) :
      Copied location content fs (.error error, after)
  | done {size : Nat} {mid : FileSystem} (paves : Paves location fs mid) (vacant : mid.Vacant location) :
      Copied location content fs (.ok size, mid.put location (.file content mid.now))

theorem copied_copyFile (ready : Ready true location fs) (plain : Plain location)
    (some_name : location ≠ []) (plain' : Plain source)
    (known : fs.get? source = some (.file content time)) (apart : source ≠ location) :
    Copied location content fs (copyFile (Location.path source) (Location.path location) fs) := by
  rw [copyFile, tryCatch_apply]
  obtain ⟨error, failed⟩ | ⟨vacant, copied⟩ := copy_path ready plain some_name plain' known apart
  · rw [failed]
    change Copied location content fs ((if error == .notFound && fs.exists? (Location.path source) then do
        makeParent (Location.path location)
        copy (Location.path source) (Location.path location)
      else throw error : FileM Nat) fs)
    split
    case isFalse => exact .failed (.refl location fs)
    case isTrue =>
      have paves := within_makeParent plain fs ready
      rw [fileM_bind_apply]
      generalize makeParent (Location.path location) fs = outcome at paves ⊢
      obtain ⟨error | made, mid⟩ := outcome
      · exact .failed paves
      · dsimp only
        obtain ⟨error, failed⟩ | ⟨vacant, copied⟩ :=
          copy_path (paves.ready ready) plain some_name plain' (paves.keeps known) apart
        · rw [failed]
          exact .failed paves
        · rw [copied]
          exact .done paves vacant
  · rw [copied]
    exact .done (.refl location fs) vacant

theorem Copied.alters {outcome : Except IoError Nat × FileSystem}
    (copied : Copied location content fs outcome)
    (some_name : location ≠ []) : Alters {location} ∅ fs outcome.2 := by
  cases copied with
  | failed paves => exact paves.alters (.inl rfl)
  | done paves vacant => exact .trans (paves.alters (.inl rfl)) (vacant.alters some_name content)

/-- A copy that succeeds leaves the content of the source, one that fails what there was. -/
theorem Copied.get? {outcome : Except IoError Nat × FileSystem}
    (copied : Copied location content fs outcome) :
    outcome.2.get? location =
      match outcome.1 with
      | .ok _ => some (.file content fs.now)
      | .error _ => fs.get? location := by
  cases copied with
  | failed paves => exact paves.get?_eq
  | done paves vacant =>
      dsimp only
      rw [get?_put_fills (vacant.fills content _), if_pos rfl, paves.now]

/-! ## Links -/

theorem get?_erase (fs : FileSystem) (location other : Location) :
    (fs.erase location).get? other =
      if other = [] then some (.directory 0) else if other = location then none else fs.get? other := by
  unfold get? erase
  split
  · rfl
  split
  case isTrue same => simp [same, List.find?_filter]
  case isFalse different =>
    rw [List.find?_filter]
    congr 2
    funext found
    by_cases same : found.1 = other <;> simp [same, different]

theorem get?_erase_of_ne {other : Location} (different : other ≠ location) :
    (fs.erase location).get? other = fs.get? other := by
  rw [get?_erase, if_neg different]
  split
  case isTrue root => rw [root, get?, if_pos rfl]
  case isFalse => rfl

theorem get?_of_erase {other : Location} (known : (fs.erase location).get? other = some entry) :
    fs.get? other = some entry := by
  rw [get?_erase] at known
  split at known
  case isTrue root => rwa [root, get?, if_pos rfl]
  case isFalse =>
    split at known
    · cases known
    · exact known

/-- Something that is no directory can be taken away. -/
theorem Orderly.erase (orderly : Orderly fs) (solid : ¬fs.IsDirectory location) :
    Orderly (fs.erase location) := by
  intro above name entry known
  rw [get?_erase, if_neg (by simp)] at known
  split at known
  case isTrue => cases known
  case isFalse =>
    obtain ⟨time, directory⟩ := orderly above name entry known
    refine ⟨time, ?_⟩
    rw [get?_erase_of_ne, directory]
    rintro rfl
    exact solid ⟨time, directory⟩

/-- Anything can be put in a directory where there is nothing. -/
theorem Orderly.put_new (orderly : Orderly fs) {directory : Location} {name : String} {entry : Entry}
    (known : fs.IsDirectory directory) (free : fs.get? (directory ++ [name]) = none) :
    Orderly (fs.put (directory ++ [name]) entry) := by
  have stays {other : Location} (known : fs.IsDirectory other) :
      (fs.put (directory ++ [name]) entry).IsDirectory other := by
    obtain ⟨time, known⟩ := known
    by_cases root : other = []
    · subst root
      exact isDirectory_root _
    · refine ⟨time, ?_⟩
      rw [get?_put, if_neg root, if_neg, known]
      rintro rfl
      rw [free] at known
      cases known
  intro above last found there
  rw [get?_put, if_neg (by simp)] at there
  split at there
  case isTrue same =>
    obtain ⟨rfl, -⟩ := List.append_inj' same rfl
    exact stays known
  case isFalse => exact stays (orderly above last found there)

theorem makeLink_apply (target p : Path) (fs : FileSystem) :
    makeLink target p fs =
      if target.text.isEmpty then (.error .notFound, fs)
      else
        match fs.walk false p with
        | .error error => (.error error, fs)
        | .ok location =>
          if (fs.get? location).isSome then (.error .alreadyExists, fs)
          else (.ok (), fs.put location (.link target)) := by
  unfold makeLink
  rw [fileM_bind_apply]
  by_cases empty : target.text.isEmpty = true
  · rw [if_pos empty]
    simp only [empty, if_true]
    rfl
  · rw [if_neg empty]
    simp only [empty, Bool.false_eq_true, if_false]
    change (liftM (fs.walk false p) >>= _ : FileM Unit) fs = _
    rw [fileM_bind_apply]
    cases fs.walk false p with
    | error error => rfl
    | ok location =>
        change (if (fs.get? location).isSome then throw .alreadyExists
          else set (fs.put location (.link target)) : FileM Unit) fs = _
        dsimp only
        cases (fs.get? location).isSome <;> rfl

theorem keepsOrder_makeLink (target p : Path) : KeepsOrder (makeLink target p) := by
  intro fs orderly
  rw [makeLink_apply]
  split
  · exact orderly
  cases walked : fs.walk false p with
  | error error => exact orderly
  | ok there =>
      dsimp only
      split
      case isTrue => exact orderly
      case isFalse absent =>
        have free : fs.get? there = none := by simpa using absent
        obtain ⟨time, directory⟩ | ⟨directory, name, rfl, above, -⟩ := orderly.walk_ends walked
        · rw [free] at directory
          cases directory
        · exact orderly.put_new above free

theorem removeFile_apply (p : Path) (fs : FileSystem) :
    removeFile p fs =
      match fs.find false p with
      | .error error => (.error error, fs)
      | .ok (_, .directory _) => (.error .isADirectory, fs)
      | .ok (location, _) => (.ok (), fs.erase location) := by
  unfold removeFile
  rw [fileM_bind_apply]
  change (liftM (fs.find false p) >>= _ : FileM Unit) fs = _
  rw [fileM_bind_apply]
  cases fs.find false p with
  | error error => rfl
  | ok found =>
      obtain ⟨location, entry⟩ := found
      cases entry <;> rfl

theorem attemptLink_apply (target p : Path) (onFailure : IoError → FileM Path) (fs : FileSystem) :
    attemptLink target p onFailure fs =
      match makeLink target p fs with
      | (.ok _, after) => (.ok target, after)
      | (.error error, after) =>
        if error == .alreadyExists && (after.readLink p).toOption.any (·.same target) then
          (.ok target, after)
        else onFailure error after := by
  rw [attemptLink, fileM_bind_apply, tryCatch_apply, fileM_bind_apply]
  rcases makeLink target p fs with ⟨error | _, after⟩
  · dsimp only
    rw [fileM_get_bind_apply]
    by_cases same : (error == .alreadyExists && (after.readLink p).toOption.any (·.same target)) = true
    · simp only [if_pos same]
      rfl
    · simp only [if_neg same]
      rw [fileM_bind_apply]
      rcases onFailure error after with ⟨_ | _, last⟩ <;> rfl
  · rfl

namespace Composes

variable {ready : FileSystem → Prop} {step : FileSystem → FileSystem → Prop} {p : Path}
  (composes : Composes ready step) (made : ∀ target, Within ready step (makeLink target p))
  (removed : Within ready step (removeFile p)) (paved : Within ready step (makeParent p))

include composes

include made in
theorem attemptLink (target : Path) {onFailure : IoError → FileM Path}
    (handled : ∀ error, Within ready step (onFailure error)) :
    Within ready step (attemptLink target p onFailure) := by
  intro fs start
  have first := made target fs start
  rw [attemptLink_apply]
  generalize makeLink target p fs = outcome at first ⊢
  obtain ⟨error | done, mid⟩ := outcome
  · dsimp only
    split
    · exact first
    · exact composes.trans first (handled error mid (composes.ready start first))
  · exact first

include removed paved

theorem clearWay (error : IoError) : Within ready step (clearWay p error) := by
  unfold FileSystem.clearWay
  split
  · exact composes.tryCatch removed fun _ => composes.pure ()
  split
  · exact paved
  · exact composes.throw error

include made

theorem copyLink (source : Path) : Within ready step (copyLink source p) := by
  refine get_bind fun fs => composes.bind (composes.lift _) fun target => ?_
  refine composes.attemptLink made target fun error => ?_
  refine composes.bind (composes.clearWay removed paved error) fun _ => ?_
  exact composes.attemptLink made target fun error => composes.throw error

end Composes

/-- Operations that change nothing but the link at a place. -/
abbrev Relinks {α : Type} (location : Location) (action : FileM α) : Prop :=
  Within (Ready false location) (Alters ∅ {location}) action

theorem relinks_makeLink (plain : Plain location) (some_name : location ≠ []) (target : Path) :
    Relinks location (makeLink target (Location.path location)) := by
  intro fs ready
  have order := keepsOrder_makeLink target (Location.path location) fs ready.orderly
  rw [makeLink_apply] at order ⊢
  by_cases empty : target.text.isEmpty = true
  · rw [if_pos empty]
    exact .refl _ _ fs
  rw [if_neg empty] at order ⊢
  cases walked : fs.walk false (Location.path location) with
  | error error => exact .refl _ _ fs
  | ok there =>
      obtain rfl := eq_of_walk_straight plain some_name ready.straight walked
      rw [walked] at order
      dsimp only at order ⊢
      by_cases known : (fs.get? there).isSome = true
      · rw [if_pos known]
        exact .refl _ _ fs
      · rw [if_neg known] at order ⊢
        exact .put some_name (fun _ _ => .inr rfl) (.link target rfl) fun _ => order

theorem relinks_removeFile (plain : Plain location) (some_name : location ≠ []) :
    Relinks location (removeFile (Location.path location)) := by
  intro fs ready
  rw [removeFile_apply]
  cases finds : fs.find false (Location.path location) with
  | error error => exact .refl _ _ fs
  | ok found =>
      obtain ⟨there, entry⟩ := found
      have known := get?_of_find finds
      obtain rfl := eq_of_walk_straight plain some_name ready.straight (walk_of_find finds)
      have erased (solid : ¬fs.IsDirectory there) : Alters ∅ {there} fs (fs.erase there) := by
        refine ⟨rfl, fun orderly => orderly.erase solid, fun {place entry} known _ unlinked => ?_,
          fun {place entry} known => .inl ?_⟩
        · rwa [get?_erase_of_ne (by simpa using unlinked)]
        · exact get?_of_erase known
      cases entry with
      | directory time => exact .refl _ _ fs
      | file content time => exact erased (by simp [FileSystem.IsDirectory, known])
      | link target => exact erased (by simp [FileSystem.IsDirectory, known])

/-- A link is recreated at its place, and nothing else changes. -/
theorem relinks_copyLink (plain : Plain location) (some_name : location ≠ []) (source : Path) :
    Relinks location (copyLink source (Location.path location)) :=
  (composes_alters (by simp)).copyLink (relinks_makeLink plain some_name) (relinks_removeFile plain some_name)
    (fun fs ready => (within_makeParent plain fs ready).alters (.inr rfl)) source

end StaticSite.FileSystem
