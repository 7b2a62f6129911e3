import StaticSite.Proofs.FileSystem.Reading

/-!
A file that is written anew. No path leads anywhere else for it, and only the paths that lead to the file
read differently.
-/

namespace StaticSite.FileSystem

section Put

variable {fs : FileSystem} {location : Location} {content : Bytes} {time : Time}

theorem get?_put (fs : FileSystem) (location other : Location) (entry : Entry) :
    (fs.put location entry).get? other =
      if other = [] then some (.directory 0)
      else if other = location then some entry else fs.get? other := by
  unfold get? put
  split
  · rfl
  split
  case isFalse different =>
    rw [List.find?_cons_of_neg (by simpa using Ne.symm different), List.find?_filter]
    congr 2
    funext found
    by_cases same : found.1 = other
    · simp [same, different]
    · simp [same]
  case isTrue same => simp [same]

theorem get?_put_file (file : fs.get? location = some (.file content time)) (entry : Entry)
    (other : Location) :
    (fs.put location entry).get? other = if other = location then some entry else fs.get? other := by
  rw [get?_put]
  split
  case isFalse => rfl
  case isTrue root =>
    subst root
    rw [if_neg, get?, if_pos rfl]
    rintro rfl
    simp [get?] at file

theorem leg_put_file (file : fs.get? location = some (.file content time)) (content' : Bytes)
    (time' : Time) (follow : Bool) (directory : Location) (names : List String) :
    (fs.put location (.file content' time')).leg follow directory names =
      fs.leg follow directory names := by
  induction names generalizing directory with
  | nil => rfl
  | cons name rest ih =>
      simp only [leg, get?_put_file file, ih]
      by_cases here : directory = location
      · simp [here, file]
      · rw [if_neg here]
        by_cases next : directory ++ [name] = location
        · simp [next, file]
        · rw [if_neg next]

theorem walkFrom_put_file (file : fs.get? location = some (.file content time)) (content' : Bytes)
    (time' : Time) (follow : Bool) (links : Nat) (directory : Location) (names : List String) :
    (fs.put location (.file content' time')).walkFrom follow links directory names =
      fs.walkFrom follow links directory names := by
  induction links generalizing directory names with
  | zero =>
      unfold walkFrom
      rw [leg_put_file file]
  | succ links ih =>
      unfold walkFrom
      rw [leg_put_file file]
      simp only [ih]

theorem find_put_file (file : fs.get? location = some (.file content time)) (content' : Bytes)
    (time' : Time) (follow : Bool) (p : Path) :
    (fs.put location (.file content' time')).find follow p =
      (fs.find follow p).map fun found =>
        if found.1 = location then (location, .file content' time') else found := by
  have walked : (fs.put location (.file content' time')).walk follow p = fs.walk follow p := by
    unfold walk
    split
    · rfl
    · exact walkFrom_put_file file content' time' follow maxLinks _ _
  unfold find
  rw [walked]
  cases fs.walk follow p with
  | error error => rfl
  | ok there =>
      simp only [bind, Except.bind]
      rw [get?_put_file file]
      by_cases same : there = location
      · simp [same, file, Except.map]
      · rw [if_neg same]
        cases fs.get? there <;> simp [Except.map, same]

/-- A path that leads to the file reads as the new content, and all others as before. -/
theorem put_file_cases (file : fs.get? location = some (.file content time)) (content' : Bytes)
    (time' : Time) (p : Path) :
    let edited := fs.put location (.file content' time')
    (edited.read p = fs.read p ∧ edited.modified p = fs.modified p) ∨
      ((fs.read p = .ok content ∧ fs.modified p = .ok time) ∧
        edited.read p = .ok content' ∧ edited.modified p = .ok time') := by
  intro edited
  have finds := find_put_file file content' time' true p
  simp only [read, modified, edited, finds]
  cases found : fs.find true p with
  | error error => exact .inl ⟨rfl, rfl⟩
  | ok entry =>
      obtain ⟨there, entry⟩ := entry
      by_cases same : there = location
      · right
        have known := get?_of_find found
        rw [same, file] at known
        cases known
        simp [same, Except.map, bind, Except.bind]
      · left
        simp [same, Except.map, bind, Except.bind]

end Put

end StaticSite.FileSystem
