import StaticSite.Proofs.FileSystem.Routes

/-!
Putting files at places below a directory that a path leads to. If no link stands behind the directory,
writing and copying either put a file at its place, and directories where they are missing above it, or they
change nothing; which of the two it is can be told from what stands at the place and above it. Behind a link
that leads to no directory nothing can be put anywhere.
-/

namespace StaticSite.FileSystem

open Location (Plain)

variable {fs after : FileSystem} {front directory location place : Location} {below : List String}
  {name : String} {entry : Entry} {content : Bytes} {time : Time}

/-! ## Writing -/

theorem length_le_path (location : Location) : location.length ≤ (Location.path location).text.length := by
  rcases List.eq_nil_or_concat location with rfl | ⟨above, name, rfl⟩
  · simp
  · have leading (names : List String) : names.length ≤ (Path.leading names).length := by
      induction names with
      | nil => simp
      | cons name names ih =>
          simp only [Path.leading, List.flatMap_cons, List.length_append, List.length_cons] at ih ⊢
          omega
    have bound := leading above
    rw [List.concat_eq_append, ← String.length_toList, Location.toList_path_append]
    simp only [List.length_append, List.length_cons, List.length_nil]
    omega

theorem writeFile_apply (p : Path) (content : Bytes) (fs : FileSystem) :
    writeFile p content fs =
      match write p content fs with
      | (.ok _, after) => (.ok (), after)
      | (.error error, after) =>
        if error == .notFound then
          match makeParent p after with
          | (.ok _, made) => write p content made
          | (.error error, made) => (.error error, made)
        else (.error error, after) := by
  rw [writeFile, tryCatch_apply]
  rcases write p content fs with ⟨error | _, after⟩
  · dsimp only
    split
    · rw [fileM_bind_apply]
      rcases makeParent p after with ⟨error | _, made⟩ <;> rfl
    · rfl
  · rfl

namespace Route

/-- The parent of a place can be made. -/
theorem makeParent_below (route : fs.Route front directory) (plain : Plain (below ++ [name]))
    (pavable : fs.Pavable (directory ++ below)) :
    ∃ after, makeParent (Location.path (front ++ (below ++ [name]))) fs = (.ok (), after) ∧
      Paved (directory ++ below) fs after ∧ after.Route front directory := by
  have whole : Plain (front ++ below ++ [name]) := by
    rw [List.append_assoc]
    exact route.plain.append plain
  have bound : below.length < (Location.path (front ++ below)).text.length + 1 := by
    have long := length_le_path (front ++ below)
    rw [List.length_append] at long
    omega
  obtain ⟨after, made, paved⟩ := route.makeLevels_below bound plain.front pavable
  have orderly : after.Orderly := by
    have keeps := keepsOrder_makeLevels ((Location.path (front ++ below)).text.length + 1)
      (Location.path (front ++ below)) fs route.orderly
    rwa [made] at keeps
  refine ⟨after, ?_, paved, route.keeps paved.keeps orderly⟩
  rw [← List.append_assoc, makeParent, Location.parent?_path whole]
  dsimp only
  rw [Location.isEmpty_path, if_neg (by simp), makeDirectories, made]

theorem write_reached (route : fs.Route front directory) (plain : Plain (below ++ [name]))
    (writable : fs.Writable (directory ++ below ++ [name])) (above : fs.IsDirectory (directory ++ below))
    (content : Bytes) :
    fs.walk true (Location.path (front ++ (below ++ [name]))) = .ok (directory ++ below ++ [name]) ∧
      write (Location.path (front ++ (below ++ [name]))) content fs =
        (.ok (), fs.put (directory ++ below ++ [name]) (.file content fs.now)) := by
  have unlinked (target : Path) : fs.get? (directory ++ (below ++ [name])) ≠ some (.link target) := by
    intro there
    rw [← List.append_assoc] at there
    obtain ⟨content, time, same⟩ := writable.fills _ there
    cases same
  have walked := route.walk_reached plain above unlinked true
  rw [← List.append_assoc directory] at walked
  refine ⟨walked, ?_⟩
  rw [write_apply, placeToWrite, walked]
  dsimp only
  rw [Location.endsInSlash_path (route.plain.append plain) (by simp), if_neg (by simp)]
  cases known : fs.get? (directory ++ below ++ [name]) with
  | none => rfl
  | some entry =>
      obtain ⟨content, time, rfl⟩ := writable.fills entry known
      rfl

theorem write_unready (route : fs.Route front directory) (plain : Plain (below ++ [name]))
    (pavable : fs.Pavable (directory ++ below)) (missing : fs.get? (directory ++ below) = none)
    (content : Bytes) :
    write (Location.path (front ++ (below ++ [name]))) content fs = (.error .notFound, fs) := by
  rw [write_apply, placeToWrite, route.walk_unready plain pavable missing]
  dsimp only
  rw [Location.endsInSlash_path (route.plain.append plain) (by simp)]
  rfl

theorem write_refused (route : fs.Route front directory) (plain : Plain (below ++ [name]))
    (linkless : fs.Linkless (directory ++ below ++ [name]))
    (refused : ¬fs.Writable (directory ++ below ++ [name])) (content : Bytes) :
    ∃ error, error ≠ .notFound ∧
      write (Location.path (front ++ (below ++ [name]))) content fs = (.error error, fs) := by
  have open_end := Location.endsInSlash_path (route.plain.append plain) (by simp)
  by_cases pavable : fs.Pavable (directory ++ below)
  · have free : ∃ time, fs.get? (directory ++ below ++ [name]) = some (.directory time) := by
      by_contra solid
      refine refused ⟨fun above inside strict => ?_, fun entry known => ?_⟩
      · exact pavable above ((prefix_append_singleton_iff.mp inside).resolve_left strict)
      · cases entry with
        | file content time => exact ⟨content, time, rfl⟩
        | directory time => exact absurd ⟨time, known⟩ solid
        | link target => exact absurd known (linkless _ (List.prefix_refl _) target)
    obtain ⟨time, known⟩ := free
    have above : fs.IsDirectory (directory ++ below) := route.orderly _ _ _ known
    have walked := route.walk_reached plain above (by simp [← List.append_assoc, known]) true
    rw [← List.append_assoc directory] at walked
    exact ⟨.isADirectory, by simp, by rw [write_apply, placeToWrite, walked]; dsimp only; rw [known]⟩
  · have shorter : fs.Linkless (directory ++ below) :=
      fun above inside => linkless above (inside.trans (List.prefix_append _ _))
    refine ⟨.notADirectory, by simp, ?_⟩
    rw [write_apply, placeToWrite, route.walk_refused plain shorter pavable, open_end]
    rfl

/-- A file is put at its place, or nothing happens. -/
theorem writeFile_below (route : fs.Route front directory) (plain : Plain (below ++ [name]))
    (linkless : fs.Linkless (directory ++ below ++ [name])) (content : Bytes) :
    (fs.Writable (directory ++ below ++ [name]) ∧ ∃ after,
      writeFile (Location.path (front ++ (below ++ [name]))) content fs = (.ok (), after) ∧
        PutAt (directory ++ below ++ [name]) (.file content fs.now) fs after) ∨
    ¬fs.Writable (directory ++ below ++ [name]) ∧ ∃ error,
      writeFile (Location.path (front ++ (below ++ [name]))) content fs = (.error error, fs) := by
  rw [writeFile_apply]
  by_cases writable : fs.Writable (directory ++ below ++ [name])
  · refine .inl ⟨writable, ?_⟩
    have pavable := writable.pavable
    cases known : fs.get? (directory ++ below) with
    | some entry =>
        obtain ⟨time, rfl⟩ := pavable _ (List.prefix_refl _) entry known
        have above : fs.IsDirectory (directory ++ below) := ⟨time, known⟩
        rw [(route.write_reached plain writable above content).2]
        exact ⟨_, rfl, route.orderly.putAt above _⟩
    | none =>
        rw [route.write_unready plain pavable known]
        dsimp only
        rw [if_pos (by decide)]
        obtain ⟨mid, made, paved, route'⟩ := route.makeParent_below plain pavable
        have above := paved.isDirectory pavable
        rw [made]
        dsimp only
        rw [(route'.write_reached plain (paved.writable writable) above content).2, ← paved.now]
        exact ⟨_, rfl, paved.putAt (route'.orderly.putAt above _)⟩
  · refine .inr ⟨writable, ?_⟩
    obtain ⟨error, different, failed⟩ := route.write_refused plain linkless writable content
    rw [failed]
    dsimp only
    rw [if_neg (by simpa using different)]
    exact ⟨error, rfl⟩

end Route

/-! ## Copying -/

theorem copyFile_apply (source destination : Path) (fs : FileSystem) :
    copyFile source destination fs =
      match copy source destination fs with
      | (.ok size, after) => (.ok size, after)
      | (.error error, after) =>
        if error == .notFound && after.exists? source then
          match makeParent destination after with
          | (.ok _, made) => copy source destination made
          | (.error error, made) => (.error error, made)
        else (.error error, after) := by
  rw [copyFile, tryCatch_apply]
  rcases copy source destination fs with ⟨error | size, after⟩
  · dsimp only
    rw [fileM_get_bind_apply]
    split
    · rw [fileM_bind_apply]
      rcases makeParent destination after with ⟨error | _, made⟩ <;> rfl
    · rfl
  · rfl

theorem Writable.fills_file (writable : fs.Writable location) (content : Bytes) (time : Time) :
    Fills (.file content time) (fs.get? location) := by
  cases known : fs.get? location with
  | none => trivial
  | some entry =>
      obtain ⟨content', time', rfl⟩ := writable.fills entry known
      trivial

/-- A copy of a file fails where writing to its destination fails. -/
theorem copy_of_write_error {source destination : Path} {error : IoError}
    (finds : fs.find true source = .ok (place, .file content time))
    (failed : write destination [] fs = (.error error, fs)) :
    copy source destination fs = (.error error, fs) := by
  rw [copy_apply, finds]
  dsimp only
  rw [fileM_bind_apply, failed]

namespace Route

variable {source : Path}

theorem copy_reached (route : fs.Route front directory) (plain : Plain (below ++ [name]))
    (writable : fs.Writable (directory ++ below ++ [name])) (above : fs.IsDirectory (directory ++ below))
    (finds : fs.find true source = .ok (place, .file content time))
    (apart : place ≠ directory ++ below ++ [name]) :
    copy source (Location.path (front ++ (below ++ [name]))) fs =
      (.ok content.length, fs.put (directory ++ below ++ [name]) (.file content fs.now)) := by
  obtain ⟨walked, wrote⟩ := route.write_reached plain writable above []
  have there : (fs.put (directory ++ below ++ [name]) (.file [] fs.now)).get? place =
      some (.file content time) := by
    rw [get?_put_fills (writable.fills_file [] fs.now), if_neg apart, get?_of_find finds]
  rw [copy_apply, finds]
  dsimp only
  rw [fileM_bind_apply, wrote]
  dsimp only
  rw [fileM_get_bind_apply, there]
  dsimp only
  rw [fileM_bind_apply, write_again writable.fills_file walked
    (Location.endsInSlash_path (route.plain.append plain) (by simp))]
  rfl

/-- The content of a file is put at its place, or nothing happens. -/
theorem copyFile_below (route : fs.Route front directory) (plain : Plain (below ++ [name]))
    (linkless : fs.Linkless (directory ++ below ++ [name]))
    (finds : fs.find true source = .ok (place, .file content time))
    (apart : place ≠ directory ++ below ++ [name]) :
    (fs.Writable (directory ++ below ++ [name]) ∧ ∃ size after,
      copyFile source (Location.path (front ++ (below ++ [name]))) fs = (.ok size, after) ∧
        PutAt (directory ++ below ++ [name]) (.file content fs.now) fs after) ∨
    ¬fs.Writable (directory ++ below ++ [name]) ∧ ∃ error,
      copyFile source (Location.path (front ++ (below ++ [name]))) fs = (.error error, fs) := by
  rw [copyFile_apply]
  by_cases writable : fs.Writable (directory ++ below ++ [name])
  · refine .inl ⟨writable, ?_⟩
    have pavable := writable.pavable
    cases known : fs.get? (directory ++ below) with
    | some entry =>
        obtain ⟨time, rfl⟩ := pavable _ (List.prefix_refl _) entry known
        have above : fs.IsDirectory (directory ++ below) := ⟨time, known⟩
        rw [route.copy_reached plain writable above finds apart]
        exact ⟨_, _, rfl, route.orderly.putAt above _⟩
    | none =>
        have existing : fs.exists? source = true := by rw [exists?, finds]; rfl
        rw [copy_of_write_error finds (route.write_unready plain pavable known [])]
        dsimp only
        rw [existing, if_pos (by decide)]
        obtain ⟨mid, made, paved, route'⟩ := route.makeParent_below plain pavable
        have above := paved.isDirectory pavable
        have finds' : mid.find true source = .ok (place, .file content time) :=
          find_eq_ok_iff.mpr ⟨paved.keeps.walk finds, paved.known (get?_of_find finds)⟩
        rw [made]
        dsimp only
        rw [route'.copy_reached plain (paved.writable writable) above finds' apart, ← paved.now]
        exact ⟨_, _, rfl, paved.putAt (route'.orderly.putAt above _)⟩
  · refine .inr ⟨writable, ?_⟩
    obtain ⟨error, different, failed⟩ := route.write_refused plain linkless writable []
    rw [copy_of_write_error finds failed]
    dsimp only
    rw [if_neg (by simpa using fun same => absurd same different)]
    exact ⟨error, rfl⟩

/-- When something was made that a route leads to. -/
theorem modified_below (route : fs.Route front directory) (plain : Plain (below ++ [name]))
    (linkless : fs.Linkless (directory ++ below ++ [name])) :
    (fs.modified (Location.path (front ++ (below ++ [name])))).toOption =
      (fs.get? (directory ++ below ++ [name])).bind Entry.time? := by
  have unlinked (target : Path) : fs.get? (directory ++ (below ++ [name])) ≠ some (.link target) := by
    rw [← List.append_assoc]
    exact linkless _ (List.prefix_refl _) target
  have lands : fs.walk true (Location.path (front ++ (below ++ [name]))) =
      .ok (directory ++ below ++ [name]) ∨
      (∃ error, fs.walk true (Location.path (front ++ (below ++ [name]))) = .error error) ∧
        ¬fs.IsDirectory (directory ++ below) := by
    by_cases above : fs.IsDirectory (directory ++ below)
    · exact .inl (by rw [route.walk_reached plain above unlinked true, List.append_assoc])
    · refine .inr ⟨route.walk_nowhere plain ?_ above true, above⟩
      exact fun above inside => linkless above (inside.trans (List.prefix_append _ _))
  unfold modified find
  obtain walked | ⟨⟨error, failed⟩, nowhere⟩ := lands
  · rw [walked]
    simp only [bind, Except.bind]
    cases known : fs.get? (directory ++ below ++ [name]) with
    | none => rfl
    | some entry =>
        cases entry with
        | directory time => rfl
        | file content time => rfl
        | link target => exact absurd known (linkless _ (List.prefix_refl _) target)
  · have missing : fs.get? (directory ++ below ++ [name]) = none := by
      cases known : fs.get? (directory ++ below ++ [name]) with
      | none => rfl
      | some entry => exact absurd (route.orderly _ _ _ known) nowhere
    rw [failed, missing]
    rfl

end Route

theorem isStale_eq (fs : FileSystem) (source destination : Path) :
    fs.isStale source destination =
      (fs.modified source).map fun time => decide ((fs.modified destination).toOption.getD 0 < time) := by
  unfold isStale
  cases fs.modified source with
  | error error => rfl
  | ok time => cases fs.modified destination <;> rfl

/-! ## Behind a link that leads nowhere -/

/-- A path goes on behind a link that leads to no directory. -/
structure Shut (fs : FileSystem) (path : Location) : Prop where
  plain : Plain path
  exists_link : ∃ front name behind, path = front ++ name :: behind ∧
    fs.isDirectory (Location.path (front ++ [name])) = false ∧
    ∃ directory target, fs.Route front directory ∧ fs.get? (directory ++ [name]) = some (.link target)

theorem Shut.append (shut : fs.Shut location) (plain : Plain below) : fs.Shut (location ++ below) := by
  obtain ⟨front, name, behind, rfl, nowhere, link⟩ := shut.exists_link
  exact ⟨shut.plain.append plain, front, name, behind ++ below, by simp, nowhere, link⟩

/-- No walk leads there. -/
theorem Shut.walk (shut : fs.Shut location) (some_name : below ≠ []) (plain : Plain below)
    (follow : Bool) : ∃ error, fs.walk follow (Location.path (location ++ below)) = .error error := by
  cases walked : fs.walk follow (Location.path (location ++ below)) with
  | error error => exact ⟨error, rfl⟩
  | ok place =>
      obtain ⟨front, name, behind, rfl, nowhere, -⟩ := shut.exists_link
      have shorter : Plain (front ++ [name]) :=
        shut.plain.of_prefix ⟨behind, by simp⟩
      have whole : front ++ name :: behind ++ below = front ++ [name] ++ (behind ++ below) := by simp
      rw [FileSystem.walk, Location.isEmpty_path, if_neg (by simp), if_pos (Path.isAbsolute_location _),
        Location.todo_path (shut.plain.append plain) (by simp), whole] at walked
      obtain ⟨directory, walked, known⟩ := exists_walkFrom_front (by simp [some_name]) walked
      have there : fs.walk true (Location.path (front ++ [name])) = .ok directory := by
        rw [FileSystem.walk, Location.isEmpty_path, if_neg (by simp), if_pos (Path.isAbsolute_location _),
          Location.todo_path shorter (by simp), walked]
      rw [Route.isDirectory_of_walk there known] at nowhere
      cases nowhere

theorem Shut.isDirectory (shut : fs.Shut location) : fs.isDirectory (Location.path location) = false := by
  obtain ⟨front, name, behind, rfl, nowhere, link⟩ := shut.exists_link
  by_cases last : behind = []
  · rw [last, nowhere]
  · have shorter : fs.Shut (front ++ [name]) :=
      ⟨shut.plain.of_prefix ⟨behind, by simp⟩, front, name, [], rfl, nowhere, link⟩
    obtain ⟨error, failed⟩ := shorter.walk last (fun name member => shut.plain name (by simp [member])) true
    rw [List.append_assoc, List.singleton_append] at failed
    rw [FileSystem.isDirectory, find, failed]
    rfl

/-- No directory is made there, and the link itself stands already. -/
theorem Shut.makeDirectory (shut : fs.Shut location) :
    ∃ error, FileSystem.makeDirectory (Location.path location) fs = (.error error, fs) ∧
      (error = .notFound → ∃ above name, location = above ++ [name] ∧ fs.Shut above) := by
  obtain ⟨front, name, behind, rfl, nowhere, link⟩ := shut.exists_link
  rw [makeDirectory_apply, Location.withoutEndSlash_path shut.plain (by simp), Location.isEmpty_path,
    if_neg (by simp)]
  rcases List.eq_nil_or_concat behind with rfl | ⟨inner, last, rfl⟩
  · obtain ⟨directory, target, route, there⟩ := link
    obtain ⟨time, known⟩ := route.known
    have proper : Path.Proper name := shut.plain.last
    obtain ⟨links, same⟩ := route.exists_walk (List.cons_ne_nil name []) (by simpa [Plain] using proper)
    have reached : fs.leg false directory [name] = .reached (directory ++ [name]) := by
      simp [leg, known, there, proper.apart, proper.below]
    rw [same, walkFrom.eq_def, reached]
    dsimp only
    rw [there]
    exact ⟨.alreadyExists, rfl, by simp⟩
  · have whole : front ++ name :: inner.concat last = (front ++ name :: inner) ++ [last] := by simp
    rw [whole] at shut ⊢
    have above : fs.Shut (front ++ name :: inner) := ⟨shut.plain.front, front, name, inner, rfl, nowhere, link⟩
    obtain ⟨error, failed⟩ :=
      above.walk (List.cons_ne_nil last []) (by simpa [Plain] using shut.plain.last) false
    rw [failed]
    exact ⟨error, rfl, fun _ => ⟨_, last, rfl, above⟩⟩

theorem Shut.makeLevels (shut : fs.Shut location) (fuel : Nat) :
    (FileSystem.makeLevels fuel (Location.path location) fs).2 = fs := by
  induction fuel generalizing location with
  | zero => rfl
  | succ fuel ih =>
      obtain ⟨error, failed, above⟩ := shut.makeDirectory
      rw [makeLevels_apply (Location.isEmpty_path _), failed]
      dsimp only
      split
      case isTrue missing =>
        obtain ⟨parent, name, rfl, shut'⟩ := above (by simpa using missing)
        have made := ih shut'
        rw [Location.parent?_path shut.plain]
        dsimp only
        generalize FileSystem.makeLevels fuel (Location.path parent) fs = outcome at made ⊢
        obtain ⟨error | done, mid⟩ := outcome
        · exact made
        · obtain rfl : mid = fs := made
          dsimp only
          rw [failed]
          dsimp only
          split <;> rfl
      case isFalse => split <;> rfl

theorem Shut.makeParent (shut : fs.Shut location) (plain : Plain (below ++ [name])) :
    (FileSystem.makeParent (Location.path (location ++ (below ++ [name]))) fs).2 = fs := by
  have whole : Plain (location ++ below ++ [name]) := by
    rw [List.append_assoc]
    exact shut.plain.append plain
  rw [← List.append_assoc, FileSystem.makeParent, Location.parent?_path whole]
  dsimp only
  rw [Location.isEmpty_path, if_neg (by simp)]
  exact (shut.append plain.front).makeLevels _

theorem Shut.write (shut : fs.Shut location) (some_name : below ≠ []) (plain : Plain below)
    (content : Bytes) :
    ∃ error, FileSystem.write (Location.path (location ++ below)) content fs = (.error error, fs) := by
  obtain ⟨error, failed⟩ := shut.walk some_name plain true
  refine ⟨error, ?_⟩
  rw [write_apply, placeToWrite, failed]
  dsimp only
  rw [Location.endsInSlash_path (shut.plain.append plain) (by simp [some_name])]
  rfl

theorem Shut.writeFile (shut : fs.Shut location) (plain : Plain (below ++ [name])) (content : Bytes) :
    ∃ error, FileSystem.writeFile (Location.path (location ++ (below ++ [name]))) content fs =
      (.error error, fs) := by
  obtain ⟨error, failed⟩ := shut.write (by simp) plain content
  have made := shut.makeParent plain
  rw [writeFile_apply, failed]
  dsimp only
  split
  · generalize FileSystem.makeParent (Location.path (location ++ (below ++ [name]))) fs = outcome at made ⊢
    obtain ⟨error' | done, mid⟩ := outcome
    · exact ⟨error', by rw [← made]⟩
    · obtain rfl : mid = fs := made
      exact ⟨error, failed⟩
  · exact ⟨error, rfl⟩

theorem Shut.copyFile (shut : fs.Shut location) (plain : Plain (below ++ [name])) {source : Path}
    (finds : fs.find true source = .ok (place, .file content time)) :
    ∃ error, FileSystem.copyFile source (Location.path (location ++ (below ++ [name]))) fs =
      (.error error, fs) := by
  obtain ⟨error, failed⟩ := shut.write (by simp) plain []
  have failed := copy_of_write_error finds failed
  have made := shut.makeParent plain
  rw [copyFile_apply, failed]
  dsimp only
  split
  · generalize FileSystem.makeParent (Location.path (location ++ (below ++ [name]))) fs = outcome at made ⊢
    obtain ⟨error' | done, mid⟩ := outcome
    · exact ⟨error', by rw [← made]⟩
    · obtain rfl : mid = fs := made
      exact ⟨error, failed⟩
  · exact ⟨error, rfl⟩

theorem Shut.modified (shut : fs.Shut location) (some_name : below ≠ []) (plain : Plain below) :
    (FileSystem.modified fs (Location.path (location ++ below))).toOption = none := by
  obtain ⟨error, failed⟩ := shut.walk some_name plain true
  rw [FileSystem.modified, find, failed]
  rfl

end StaticSite.FileSystem
