import StaticSite.Proofs.FileSystem.Holding

/-!
Links that replace what is there. A link to the same target is left alone; any other link and any file gives way, in
one more attempt, and so does nothing at all. A directory stays.
-/

namespace StaticSite.FileSystem

open Path (EndsIn Ancestor)

variable {fs mid after : FileSystem} {source p target above : Path} {name : String} {entry : Entry}
  {directory place : Location}

/-! ## Holding places -/

theorem Holds.carries (holds : fs.Holds directory p) (carries : Carries fs after) : after.Holds directory p := by
  obtain ⟨⟨time, known⟩, above, parent, there⟩ := holds
  have known' := carries.directory known
  refine ⟨⟨time, known'⟩, above, parent, there.imp ?_ ?_⟩
  · exact fun ⟨empty, here⟩ => ⟨empty, here.trans carries.workingDirectory.symm⟩
  · exact fun ⟨some_char, walked⟩ => ⟨some_char, walk_carries carries walked (by simp [known'])⟩

/-- Whatever is put where nothing was, directories and links stay where they are. -/
theorem carries_put_new (free : fs.get? place = none) (entry : Entry) : Carries fs (fs.put place entry) where
  workingDirectory := rfl
  passable {other found} known _ := by
    rw [get?_put]
    split
    case isTrue root => rwa [root, get?, if_pos rfl] at known
    case isFalse =>
      rw [if_neg, known]
      rintro rfl
      rw [free] at known
      cases known

theorem carries_erase_file (known : fs.get? place = some entry) (file : ∃ content time, entry = .file content time) :
    Carries fs (fs.erase place) where
  workingDirectory := rfl
  passable {other found} there solid := by
    rw [get?_erase_of_ne, there]
    rintro rfl
    obtain ⟨content, time, rfl⟩ := file
    rw [known] at there
    exact solid content time (Option.some.inj there).symm

/-- A file system has all that is left of it. -/
theorem carries_of_erase (fs : FileSystem) (place : Location) : Carries (fs.erase place) fs where
  workingDirectory := rfl
  passable there _ := get?_of_erase there

theorem IsDirectory.erase (known : fs.IsDirectory directory) (different : directory ≠ place) :
    (fs.erase place).IsDirectory directory := by
  obtain ⟨time, known⟩ := known
  by_cases root : directory = []
  · rw [root]
    exact isDirectory_root _
  · exact ⟨time, by rw [get?_erase, if_neg root, if_neg different, known]⟩

/-- A directory still holds a path when what was at a place is gone, if the parent still leads to a directory. -/
theorem Holds.erase (holds : fs.Holds directory p) (different : directory ≠ place)
    (leads : ∀ above, p.parent? = some above →
      above.text.isEmpty = true ∨ (fs.erase place).isDirectory above = true) :
    (fs.erase place).Holds directory p := by
  obtain ⟨known, above, parent, there⟩ := holds
  refine ⟨known.erase different, above, parent, ?_⟩
  obtain ⟨empty, here⟩ | ⟨some_char, walked⟩ := there
  · exact .inl ⟨empty, here⟩
  · obtain ⟨other, walked', time, known'⟩ :=
      isDirectory_iff.mp ((leads above parent).resolve_left (by simp [some_char]))
    have before := (carries_of_erase fs place).directory known'
    have same := walk_carries (carries_of_erase fs place) walked' (by simp [before])
    rw [walked] at same
    cases same
    exact .inr ⟨some_char, walked'⟩

theorem PutAt.of_erase (put : PutAt place entry (fs.erase place) after) : PutAt place entry fs after := by
  refine ⟨put.now, put.workingDirectory, fun other => ?_⟩
  rw [put.get?]
  split
  case isTrue => rfl
  case isFalse different =>
    rw [get?_erase_of_ne different]
    rfl

/-! ## Attempts at a link -/

theorem readLink_of_find {existing : Path} (finds : fs.find false p = .ok (place, .link existing)) :
    fs.readLink p = .ok existing := by
  rw [readLink, finds]
  rfl

theorem makeLink_held (orderly : fs.Orderly) (ends : p.EndsIn name) (holds : fs.Holds directory p)
    (free : fs.get? (directory ++ [name]) = none) (some_target : target.text.isEmpty = false) :
    ∃ after, makeLink target p fs = (.ok (), after) ∧ after.readLink p = .ok target ∧
      PutAt (directory ++ [name]) (.link target) fs after := by
  have put : PutAt (directory ++ [name]) (.link target) fs _ := orderly.putAt holds.1 _
  have holds' := holds.carries (carries_put_new free (.link target))
  refine ⟨fs.put (directory ++ [name]) (.link target), ?_, ?_, put⟩
  · rw [makeLink_apply, if_neg (by simp [some_target]), holds.walk ends (by simp)]
    dsimp only
    rw [free, if_neg (by simp)]
  · exact readLink_of_find (find_eq_ok_iff.mpr ⟨holds'.walk ends (by simp), by rw [put.get?, if_pos rfl]⟩)

theorem makeLink_taken (finds : fs.find false p = .ok (place, entry)) (some_target : target.text.isEmpty = false) :
    makeLink target p fs = (.error .alreadyExists, fs) := by
  rw [makeLink_apply, if_neg (by simp [some_target]), walk_of_find finds]
  dsimp only
  rw [get?_of_find finds]
  rfl

/-- What is in the way of a link is taken away, if it can be, before the second attempt. -/
theorem copyLink_taken (reads : fs.readLink source = .ok target)
    (made : makeLink target p fs = (.error .alreadyExists, fs))
    (different : (fs.readLink p).toOption.any (·.same target) = false) :
    copyLink source p fs = attemptLink target p throw (removeFile p fs).2 := by
  rw [copyLink_apply reads, attemptLink_apply, made]
  dsimp only
  rw [different, if_neg (by decide), clearWay_apply, if_pos (by decide)]

/-- A directory is not taken away. -/
theorem copyLink_directory (reads : fs.readLink source = .ok target) (some_target : target.text.isEmpty = false)
    {time : Time} (finds : fs.find false p = .ok (place, .directory time)) :
    copyLink source p fs = (.error .alreadyExists, fs) := by
  have made : makeLink target p fs = (.error .alreadyExists, fs) := makeLink_taken finds some_target
  have different : (fs.readLink p).toOption.any (·.same target) = false := by
    rw [readLink, finds]
    rfl
  rw [copyLink_taken reads made different, removeFile_apply, finds]
  dsimp only
  rw [attemptLink_apply, made]
  dsimp only
  rw [different, if_neg (by decide)]
  rfl

/-- A link comes to be at a place by one attempt, at once or when the way was cleared by a single step, and nothing
else changes but that directories are made where they are missing above it. -/
structure Replaces (target p : Path) (place : Location) (fs after : FileSystem) : Prop where
  made : ∃ mid, (mid = fs ∨ removeFile p fs = (.ok (), mid) ∨ makeParent p fs = (.ok (), mid)) ∧
    makeLink target p mid = (.ok (), after)
  reads : after.readLink p = .ok target
  put : PutAt place (.link target) fs after

theorem copyLink_over (orderly : fs.Orderly) (reads : fs.readLink source = .ok target)
    (some_target : target.text.isEmpty = false) (ends : p.EndsIn name)
    (finds : fs.find false p = .ok (directory ++ [name], entry)) (solid : ∀ time, entry ≠ .directory time)
    (different : (fs.readLink p).toOption.any (·.same target) = false)
    (holds : (fs.erase (directory ++ [name])).Holds directory p) :
    ∃ after, copyLink source p fs = (.ok target, after) ∧ Replaces target p (directory ++ [name]) fs after := by
  have removed : removeFile p fs = (.ok (), fs.erase (directory ++ [name])) := by
    rw [removeFile_apply, finds]
    cases entry with
    | directory time => exact absurd rfl (solid time)
    | file content time => rfl
    | link existing => rfl
  have free : (fs.erase (directory ++ [name])).get? (directory ++ [name]) = none := by
    rw [get?_erase, if_neg (by simp), if_pos rfl]
  have orderly' := orderly.erase (not_isDirectory_of_get? (get?_of_find finds) solid)
  obtain ⟨after, made, reads', put⟩ := makeLink_held orderly' ends holds free some_target
  refine ⟨after, ?_, ⟨_, .inr (.inl removed), made⟩, reads', put.of_erase⟩
  rw [copyLink_taken reads (makeLink_taken finds some_target) different, removed, attemptLink_apply, made]

theorem copyLink_new (orderly : fs.Orderly) (reads : fs.readLink source = .ok target)
    (some_target : target.text.isEmpty = false) (ends : p.EndsIn name) (makeable : fs.Makeable p)
    (absent : ∀ found, fs.find false p ≠ .ok found) :
    ∃ place after, fs.get? place = none ∧ copyLink source p fs = (.ok target, after) ∧
      Replaces target p place fs after := by
  obtain ⟨above, parent, ⟨directory, holds, -⟩ | ⟨absent', name', ends'⟩⟩ := makeable.cases ends
  · have free := holds.absent ends absent
    obtain ⟨after, made, reads', put⟩ := makeLink_held orderly ends holds free some_target
    exact ⟨_, after, free, copyLink_made reads made, ⟨fs, .inl rfl, made⟩, reads', put⟩
  · have missing := (makeable.parent parent).notFound orderly ends' absent'
    have failed : makeLink target p fs = (.error .notFound, fs) := by
      rw [makeLink_apply, if_neg (by simp [some_target]),
        walk_of_missing orderly ends parent ⟨name', ends'⟩ missing]
    obtain ⟨mid, directory, paves, paved, orderly', holds, free⟩ := exists_makeParent orderly ends makeable
    obtain ⟨after, made, reads', put⟩ := makeLink_held orderly' ends holds (free absent) some_target
    have free' : fs.get? (directory ++ [name]) = none := by
      have free := free absent
      rwa [paved.get?, if_neg fun inside => ne_concat_of_inside inside rfl] at free
    exact ⟨_, after, free', copyLink_paved reads failed paves made, ⟨mid, .inr (.inr paves), made⟩, reads',
      paved.putAt put⟩

/-- What is at the destination of a link gives way to it, unless it is a directory or a link to the same target. -/
theorem copyLink_replaces (orderly : fs.Orderly) (reads : fs.readLink source = .ok target)
    (some_target : target.text.isEmpty = false) (ends : p.EndsIn name) (makeable : fs.Makeable p)
    (stays : ∀ place existing, fs.find false p = .ok (place, .link existing) → ∀ above, p.parent? = some above →
      above.text.isEmpty = true ∨ (fs.erase place).isDirectory above = true) :
    match fs.find false p with
    | .ok (_, .directory _) => copyLink source p fs = (.error .alreadyExists, fs)
    | .ok (place, .file _ _) => ∃ after, copyLink source p fs = (.ok target, after) ∧ Replaces target p place fs after
    | .ok (place, .link existing) =>
      if existing.same target then copyLink source p fs = (.ok target, fs)
      else ∃ after, copyLink source p fs = (.ok target, after) ∧ Replaces target p place fs after
    | .error _ =>
      ∃ place after, fs.get? place = none ∧ copyLink source p fs = (.ok target, after) ∧
        Replaces target p place fs after := by
  cases finds : fs.find false p with
  | error error => exact copyLink_new orderly reads some_target ends makeable (by simp [finds])
  | ok found =>
      obtain ⟨place, entry⟩ := found
      obtain ⟨directory, holds, rfl⟩ := exists_holds_of_walk ends (walk_of_find finds)
      cases entry with
      | directory time => exact copyLink_directory reads some_target finds
      | file content time =>
          have unread : (fs.readLink p).toOption.any (·.same target) = false := by
            rw [readLink, finds]
            rfl
          have carries := carries_erase_file (get?_of_find finds) ⟨content, time, rfl⟩
          exact copyLink_over orderly reads some_target ends finds (by simp) unread (holds.carries carries)
      | link existing =>
          have reads' := readLink_of_find finds
          dsimp only
          split
          case isTrue same => exact copyLink_standing reads reads' same (makeLink_taken finds some_target)
          case isFalse other =>
            have different : (fs.readLink p).toOption.any (·.same target) = false := by
              rw [reads']
              exact Bool.eq_false_iff.mpr other
            have away : directory ≠ directory ++ [name] := fun same => ne_concat_of_inside (List.prefix_refl _) same
            exact copyLink_over orderly reads some_target ends finds (by simp) different
              (holds.erase away (stays _ existing finds))

/-- Two links, one of them old, and a directory. -/
def oldLinks : FileSystem where
  entries := [(["l"], .link ⟨"t"⟩), (["k"], .link ⟨"old"⟩), (["d"], .directory 0)]
  now := 9
  workingDirectory := []

theorem copyLink_replaces_old :
    oldLinks.find false ⟨"/k"⟩ = .ok (["k"], .link ⟨"old"⟩) ∧
      ∃ after, copyLink ⟨"/l"⟩ ⟨"/k"⟩ oldLinks = (.ok ⟨"t"⟩, after) ∧ Replaces ⟨"t"⟩ ⟨"/k"⟩ ["k"] oldLinks after := by
  have orderly : oldLinks.Orderly := by
    apply orderly_of_entries
    simp only [oldLinks, List.forall_mem_cons]
    exact ⟨⟨0, rfl⟩, ⟨0, rfl⟩, ⟨0, rfl⟩, by simp⟩
  have parents : Path.parent? ⟨"/k"⟩ = some ⟨"/"⟩ ∧ Path.parent? ⟨"/"⟩ = none := by decide +kernel
  have finds : oldLinks.find false ⟨"/k"⟩ = .ok (["k"], .link ⟨"old"⟩) := rfl
  have makeable : oldLinks.Makeable ⟨"/k"⟩ := by
    intro above ancestor
    rw [Path.ancestor_iff parents.1] at ancestor
    obtain rfl | further := ancestor
    · exact .inr (.inl rfl)
    · exact absurd further (Path.not_ancestor parents.2)
  have ends : Path.EndsIn ⟨"/k"⟩ "k" := ⟨Path.proper_iff.mpr (by decide), rfl⟩
  have reads : oldLinks.readLink ⟨"/l"⟩ = .ok ⟨"t"⟩ := rfl
  have replaces := copyLink_replaces orderly reads (by decide) ends makeable fun place existing finds' above parent => by
    rw [parents.1] at parent
    rw [finds] at finds'
    cases parent
    cases finds'
    exact .inr rfl
  rw [finds] at replaces
  exact ⟨finds, replaces⟩

/-- A directory does not give way to a link. -/
theorem copyLink_stopped_by_directory :
    oldLinks.readLink ⟨"/l"⟩ = .ok ⟨"t"⟩ ∧ oldLinks.find false ⟨"/d"⟩ = .ok (["d"], .directory 0) ∧
      Path.parent? ⟨"/d"⟩ = some ⟨"/"⟩ ∧ oldLinks.isDirectory ⟨"/"⟩ = true ∧ Path.parent? ⟨"/"⟩ = none ∧
      (copyLink ⟨"/l"⟩ ⟨"/d"⟩ oldLinks).1 = .error .alreadyExists ∧
      (copyLink ⟨"/l"⟩ ⟨"/d"⟩ oldLinks).2.readLink ⟨"/d"⟩ = .error .invalidArgument := by
  decide +kernel

end StaticSite.FileSystem
