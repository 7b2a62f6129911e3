import StaticSite.Proofs.FileSystem.Growth

/-!
Two trees that differ in nothing but the content of a file. Every path leads to the same place in both of them, and
the same places accept something to be put there.
-/

namespace StaticSite.FileSystem

open Location (Plain)

variable {fs other : FileSystem} {path output origin place : Location} {entry : Entry} {p : Path}

/-- Two trees that differ in nothing but a file. -/
structure Alike (fs other : FileSystem) (origin : Location) : Prop where
  workingDirectory : other.workingDirectory = fs.workingDirectory
  elsewhere : ∀ place, place ≠ origin → other.get? place = fs.get? place
  file : ∃ content time, fs.get? origin = some (.file content time)
  file' : ∃ content time, other.get? origin = some (.file content time)

namespace Alike

theorem symm (alike : Alike fs other origin) : Alike other fs origin :=
  ⟨alike.workingDirectory.symm, fun place different => (alike.elsewhere place different).symm, alike.file',
    alike.file⟩

theorem keeps (alike : Alike fs other origin) : Keeps fs other where
  workingDirectory := alike.workingDirectory
  passable {place entry} known solid := by
    rw [alike.elsewhere place, known]
    rintro rfl
    obtain ⟨content, time, file⟩ := alike.file
    rw [known] at file
    exact solid content time (Option.some.inj file)
  file {place content time} known := by
    by_cases same : place = origin
    · exact same ▸ alike.file'
    · exact ⟨content, time, (alike.elsewhere place same).trans known⟩

theorem absent (alike : Alike fs other origin) (missing : fs.get? place = none) : other.get? place = none := by
  rw [alike.elsewhere place, missing]
  rintro rfl
  obtain ⟨content, time, file⟩ := alike.file
  rw [missing] at file
  cases file

theorem walk_eq (alike : Alike fs other origin) (p : Path) : other.walk true p = fs.walk true p :=
  walk_keeps alike.keeps fun _ gap => alike.absent (gap?_missing gap)

/-- What is not that file is found as before. -/
theorem find_eq (alike : Alike fs other origin)
    (elsewhere : ∀ place entry, fs.find true p = .ok (place, entry) → place ≠ origin) :
    other.find true p = fs.find true p := by
  unfold find at elsewhere ⊢
  rw [alike.walk_eq p]
  cases walked : fs.walk true p with
  | error error => rfl
  | ok place =>
      simp only [walked, bind, Except.bind] at elsewhere ⊢
      cases known : fs.get? place with
      | none => rw [alike.absent known]
      | some entry =>
          rw [known] at elsewhere
          rw [alike.elsewhere place (elsewhere place entry rfl), known]

theorem exists_get?_iff (alike : Alike fs other origin) (place : Location) :
    (∃ entry, other.get? place = some entry) ↔ ∃ entry, fs.get? place = some entry := by
  by_cases same : place = origin
  · obtain ⟨content, time, file⟩ := alike.file
    obtain ⟨content', time', file'⟩ := alike.file'
    rw [same, file, file']
    simp
  · rw [alike.elsewhere place same]

theorem gap?_eq (alike : Alike fs other origin) (p : Path) : other.gap? p = fs.gap? p :=
  gap?_keeps alike.keeps fun _ gap => alike.absent (gap?_missing gap)

theorem isDirectory (alike : Alike fs other origin) (known : fs.IsDirectory place) : other.IsDirectory place := by
  obtain ⟨time, known⟩ := known
  exact ⟨time, alike.keeps.directory known⟩

/-- Whatever else is found, no directory is found in the place of the file. -/
theorem find_cases (alike : Alike fs other origin) (p : Path) :
    other.find true p = fs.find true p ∨
      ∃ content time content' time', fs.find true p = .ok (origin, .file content time) ∧
        other.find true p = .ok (origin, .file content' time') := by
  by_cases there : ∃ entry, fs.find true p = .ok (origin, entry)
  · obtain ⟨entry, finds⟩ := there
    obtain ⟨content, time, file⟩ := alike.file
    obtain ⟨content', time', file'⟩ := alike.file'
    have known := get?_of_find finds
    rw [file] at known
    cases known
    exact .inr ⟨content, time, content', time', finds,
      find_eq_ok_iff.mpr ⟨(alike.walk_eq p).trans (walk_of_find finds), file'⟩⟩
  · exact .inl (alike.find_eq fun place entry finds same => there ⟨entry, same ▸ finds⟩)

theorem isDirectory_eq (alike : Alike fs other origin) (p : Path) : other.isDirectory p = fs.isDirectory p := by
  unfold FileSystem.isDirectory
  obtain same | ⟨content, time, content', time', finds, finds'⟩ := alike.find_cases p
  · rw [same]
  · rw [finds, finds']

theorem canonicalize_eq (alike : Alike fs other origin) (p : Path) : other.canonicalize p = fs.canonicalize p := by
  unfold canonicalize
  obtain same | ⟨content, time, content', time', finds, finds'⟩ := alike.find_cases p
  · rw [same]
  · rw [finds, finds']
    rfl

theorem keepsOff (alike : Alike fs other origin) (off : fs.KeepsOff output p) : other.KeepsOff output p where
  found place entry finds := by
    obtain same | ⟨content, time, content', time', finds', finds''⟩ := alike.find_cases p
    · exact off.found place entry (same ▸ finds)
    · rw [finds''] at finds
      cases finds
      exact off.found origin _ finds'
  gap place gap := off.gap place (alike.gap?_eq p ▸ gap)

/-! ## Where something can be put -/

theorem lies (alike : Alike fs other origin) (lies : fs.Lies path output) : other.Lies path output := by
  obtain ⟨front, rest, directory, rfl, rfl, walked, known, stops⟩ := lies
  exact ⟨front, rest, directory, rfl, rfl, (alike.walk_eq _).trans walked, alike.isDirectory known,
    fun name behind same => (alike.isDirectory_eq _).trans (stops name behind same)⟩

theorem shut (alike : Alike fs other origin) (orderly : other.Orderly) (shut : fs.Shut path) : other.Shut path := by
  obtain ⟨plain, front, name, behind, rfl, nowhere, directory, target, route, link⟩ := shut
  exact ⟨plain, front, name, behind, rfl, (alike.isDirectory_eq _).trans nowhere, directory, target,
    ⟨orderly, route.plain, (alike.walk_eq _).trans route.walked, alike.isDirectory route.known⟩,
    alike.keeps.link link⟩

theorem writable (alike : Alike fs other origin) (writable : fs.Writable place) : other.Writable place where
  above above inside strict entry known := by
    obtain ⟨entry', known'⟩ := (alike.exists_get?_iff above).mp ⟨entry, known⟩
    obtain ⟨time, rfl⟩ := writable.above above inside strict entry' known'
    rw [alike.keeps.directory known'] at known
    exact ⟨time, (Option.some.inj known).symm⟩
  fills entry known := by
    obtain ⟨entry', known'⟩ := (alike.exists_get?_iff place).mp ⟨entry, known⟩
    obtain ⟨content, time, rfl⟩ := writable.fills entry' known'
    obtain ⟨content', time', file⟩ := alike.keeps.file known'
    rw [file] at known
    exact ⟨content', time', (Option.some.inj known).symm⟩

theorem accepts_iff (alike : Alike fs other origin) (orderly : fs.Orderly) (orderly' : other.Orderly) :
    other.Accepts path place ↔ fs.Accepts path place :=
  and_congr (not_congr ⟨alike.symm.shut orderly, alike.shut orderly'⟩) ⟨alike.symm.writable, alike.writable⟩

end Alike

end StaticSite.FileSystem
