import StaticSite.Proofs.FileSystem.Writing

/-!
Where a path breaks off. A walk that follows links depends on the directories and links that it meets and on
the first place that it needs and does not find. As long as that place stays missing, files and directories
that come to be elsewhere make no difference to it.
-/

namespace StaticSite.FileSystem

variable {fs after : FileSystem} {p : Path} {location place : Location} {names : List String}

/-- The first missing place at which names lead, before any link. -/
def gapIn (fs : FileSystem) (directory : Location) : List String → Option Location
  | [] => if (fs.get? directory).isNone then some directory else none
  | name :: rest =>
    match fs.get? directory with
    | none => some directory
    | some (.file _ _) => none
    | some (.link _) => none
    | some (.directory _) =>
      if name = "." then fs.gapIn directory rest
      else if name = ".." then fs.gapIn directory.dropLast rest
      else
        match fs.get? (directory ++ [name]) with
        | none => some (directory ++ [name])
        | some (.directory _) => fs.gapIn (directory ++ [name]) rest
        | some (.file _ _) => none
        | some (.link _) => none

/-- The first missing place at which names lead through at most `links` links. -/
def gapFrom (fs : FileSystem) (links : Nat) (directory : Location) (names : List String) :
    Option Location :=
  match fs.leg true directory names with
  | .reached _ => fs.gapIn directory names
  | .failed _ => fs.gapIn directory names
  | .link standing target rest =>
    match links with
    | 0 => none
    | links + 1 =>
      if target.text.isEmpty then none
      else fs.gapFrom links (if target.isAbsolute then [] else standing) (todo target ++ rest)

/-- The place at which a path breaks off: the first one that it needs and that is missing. -/
def gap? (fs : FileSystem) (p : Path) : Option Location :=
  if p.text.isEmpty then none
  else fs.gapFrom maxLinks (if p.isAbsolute then [] else fs.workingDirectory) (todo p)

theorem gapIn_missing {directory : Location} (gap : fs.gapIn directory names = some place) :
    fs.get? place = none := by
  fun_induction gapIn fs directory names with
  | case1 directory missing =>
      cases gap
      simpa using missing
  | case3 directory name rest missing =>
      cases gap
      exact missing
  | case8 directory name rest time known undotted lower missing =>
      cases gap
      exact missing
  | case6 directory rest time known ih => exact ih gap
  | case7 directory rest time known undotted ih => exact ih gap
  | case9 directory name rest time known undotted lower below there ih => exact ih gap
  | case2 => cases gap
  | case4 => cases gap
  | case5 => cases gap
  | case10 => cases gap
  | case11 => cases gap

theorem gapFrom_missing {links : Nat} {directory : Location}
    (gap : fs.gapFrom links directory names = some place) : fs.get? place = none := by
  fun_induction gapFrom fs links directory names with
  | case1 => exact gapIn_missing gap
  | case2 => exact gapIn_missing gap
  | case3 => cases gap
  | case4 => cases gap
  | case5 directory names standing target rest went links somewhere ih => exact ih gap

theorem gap?_missing (gap : fs.gap? p = some place) : fs.get? place = none := by
  unfold gap? at gap
  split at gap
  · cases gap
  · exact gapFrom_missing gap

/-! ## Walks in a file system that has grown -/

/-- From one file system to another one directories and links stay, and files stay files. -/
structure Keeps (fs after : FileSystem) : Prop where
  workingDirectory : after.workingDirectory = fs.workingDirectory
  passable : ∀ {place entry}, fs.get? place = some entry → (∀ content time, entry ≠ .file content time) →
    after.get? place = some entry
  file : ∀ {place content time}, fs.get? place = some (.file content time) →
    ∃ content' time', after.get? place = some (.file content' time')

theorem Keeps.refl (fs : FileSystem) : Keeps fs fs := ⟨rfl, fun known _ => known, fun known => ⟨_, _, known⟩⟩

theorem Keeps.directory (keeps : Keeps fs after) {time : Time}
    (known : fs.get? place = some (.directory time)) : after.get? place = some (.directory time) :=
  keeps.passable known (by simp)

theorem Keeps.link (keeps : Keeps fs after) {target : Path} (known : fs.get? place = some (.link target)) :
    after.get? place = some (.link target) :=
  keeps.passable known (by simp)

/-- Where a walk without links goes, and where it breaks off. -/
theorem leg_keeps (keeps : Keeps fs after) (follow : Bool) {directory : Location}
    (missing : ∀ place, fs.gapIn directory names = some place → after.get? place = none) :
    after.leg follow directory names = fs.leg follow directory names ∧
      after.gapIn directory names = fs.gapIn directory names := by
  induction names generalizing directory with
  | nil =>
      rw [gapIn] at missing
      rw [gapIn, gapIn]
      refine ⟨rfl, ?_⟩
      cases known : fs.get? directory with
      | none =>
          rw [known] at missing
          rw [missing directory rfl]
      | some entry =>
          cases entry with
          | file content time =>
              obtain ⟨content', time', known'⟩ := keeps.file known
              rw [known']
              rfl
          | directory time => rw [keeps.directory known]
          | link target => rw [keeps.link known]
  | cons name rest ih =>
      rw [gapIn] at missing
      rw [leg, leg, gapIn, gapIn]
      cases known : fs.get? directory with
      | none =>
          rw [known] at missing
          rw [missing directory rfl]
          exact ⟨rfl, rfl⟩
      | some entry =>
          cases entry with
          | file content time =>
              obtain ⟨content', time', known'⟩ := keeps.file known
              rw [known']
              exact ⟨rfl, rfl⟩
          | link target =>
              rw [keeps.link known]
              exact ⟨rfl, rfl⟩
          | directory time =>
              rw [keeps.directory known]
              simp only [known] at missing
              dsimp only
              by_cases dot : name = "."
              · simp only [if_pos dot] at missing ⊢
                exact ih missing
              simp only [if_neg dot] at missing ⊢
              by_cases up : name = ".."
              · simp only [if_pos up] at missing ⊢
                exact ih missing
              simp only [if_neg up] at missing ⊢
              cases there : fs.get? (directory ++ [name]) with
              | none =>
                  rw [there] at missing
                  rw [missing _ rfl]
                  exact ⟨rfl, rfl⟩
              | some entry =>
                  rw [there] at missing
                  cases entry with
                  | directory time =>
                      rw [keeps.directory there]
                      exact ih missing
                  | file content time =>
                      obtain ⟨content', time', there'⟩ := keeps.file there
                      rw [there']
                      exact ⟨rfl, rfl⟩
                  | link target =>
                      rw [keeps.link there]
                      exact ⟨rfl, rfl⟩

/-- Nothing is missing on the way to a link. -/
theorem gapIn_of_link {follow : Bool} {directory standing : Location} {target : Path} {rest : List String}
    (went : fs.leg follow directory names = .link standing target rest) : fs.gapIn directory names = none := by
  fun_induction leg fs follow directory names with
  | case2 directory rest time known ih =>
      simp only [gapIn, known, if_true]
      exact ih went
  | case3 directory rest time known undotted ih =>
      simp only [gapIn, known, if_neg undotted, if_true]
      exact ih went
  | case6 directory name rest time known undotted lower below there ih =>
      simp only [gapIn, known, there, if_neg undotted, if_neg lower]
      exact ih went
  | case10 directory name rest time known undotted lower target there goesOn =>
      simp only [gapIn, known, there, if_neg undotted, if_neg lower]
  | case1 => cases went
  | case4 => cases went
  | case5 => cases went
  | case7 => cases went
  | case8 => cases went
  | case9 => cases went
  | case11 => cases went

theorem walkFrom_keeps (keeps : Keeps fs after) {links : Nat} {directory : Location}
    (missing : ∀ place, fs.gapFrom links directory names = some place → after.get? place = none) :
    after.walkFrom true links directory names = fs.walkFrom true links directory names ∧
      after.gapFrom links directory names = fs.gapFrom links directory names := by
  fun_induction gapFrom fs links directory names with
  | case1 links directory names reached went =>
      obtain ⟨leads, breaks⟩ := leg_keeps keeps true missing
      rw [walkFrom, walkFrom.eq_def fs, gapFrom, leads, went]
      exact ⟨rfl, breaks⟩
  | case2 links directory names error went =>
      obtain ⟨leads, breaks⟩ := leg_keeps keeps true missing
      rw [walkFrom, walkFrom.eq_def fs, gapFrom, leads, went]
      exact ⟨rfl, breaks⟩
  | case3 directory names standing target rest went =>
      rw [walkFrom, walkFrom.eq_def fs, gapFrom, (leg_keeps keeps true (by simp [gapIn_of_link went])).1, went]
      exact ⟨rfl, rfl⟩
  | case4 directory names standing target rest went links nowhere =>
      rw [walkFrom, walkFrom.eq_def fs, gapFrom, (leg_keeps keeps true (by simp [gapIn_of_link went])).1, went]
      dsimp only
      rw [if_pos nowhere, if_pos nowhere, if_pos nowhere]
      exact ⟨rfl, rfl⟩
  | case5 directory names standing target rest went links somewhere ih =>
      rw [walkFrom, walkFrom.eq_def fs, gapFrom, (leg_keeps keeps true (by simp [gapIn_of_link went])).1, went]
      dsimp only
      rw [if_neg somewhere, if_neg somewhere, if_neg somewhere]
      exact ih missing

theorem walk_keeps (keeps : Keeps fs after)
    (missing : ∀ place, fs.gap? p = some place → after.get? place = none) :
    after.walk true p = fs.walk true p := by
  unfold walk
  unfold gap? at missing
  split
  · rfl
  · rw [keeps.workingDirectory]
    exact (walkFrom_keeps keeps (by simpa [*] using missing)).1

/-- A path breaks off where it did, if nothing came to be there. -/
theorem gap?_keeps (keeps : Keeps fs after)
    (missing : ∀ place, fs.gap? p = some place → after.get? place = none) : after.gap? p = fs.gap? p := by
  unfold gap? at missing ⊢
  split
  · rfl
  · rw [keeps.workingDirectory]
    exact (walkFrom_keeps keeps (by simpa [*] using missing)).2

/-! ## Walks that lead somewhere -/

theorem gapIn_of_reached {follow : Bool} {directory : Location}
    (went : fs.leg follow directory names = .reached location) :
    fs.gapIn directory names = if (fs.get? location).isNone then some location else none := by
  fun_induction leg fs follow directory names with
  | case1 directory =>
      cases went
      rfl
  | case2 directory rest time known ih =>
      simp only [gapIn, known, if_true]
      exact ih went
  | case3 directory rest time known undotted ih =>
      simp only [gapIn, known, if_neg undotted, if_true]
      exact ih went
  | case4 directory name time known undotted lower absent =>
      cases went
      simp [gapIn, known, absent, undotted, lower]
  | case6 directory name rest time known undotted lower below there ih =>
      simp only [gapIn, known, there, if_neg undotted, if_neg lower]
      exact ih went
  | case7 directory name time known undotted lower content below there =>
      cases went
      simp [gapIn, known, there, undotted, lower]
  | case9 directory name rest time known undotted lower target there ends =>
      cases went
      simp [gapIn, known, there, undotted, lower]
  | case5 => cases went
  | case8 => cases went
  | case10 => cases went
  | case11 => cases went

/-- A walk that does not fail breaks off where it ends, if there is nothing. -/
theorem gap?_of_walk (walked : fs.walk true p = .ok location) :
    fs.gap? p = if (fs.get? location).isNone then some location else none := by
  unfold walk at walked
  unfold gap?
  split
  · simp [*] at walked
  · rw [if_neg ‹_›] at walked
    generalize (if p.isAbsolute then [] else fs.workingDirectory) = directory at walked ⊢
    generalize todo p = names, maxLinks = links at walked ⊢
    fun_induction gapFrom fs links directory names with
    | case1 links directory names reached went =>
        rw [walkFrom.eq_def, went] at walked
        cases walked
        exact gapIn_of_reached went
    | case2 links directory names error went =>
        rw [walkFrom.eq_def, went] at walked
        cases walked
    | case3 directory names standing target rest went =>
        rw [walkFrom.eq_def, went] at walked
        cases walked
    | case4 directory names standing target rest went links nowhere =>
        rw [walkFrom.eq_def, went] at walked
        simp [nowhere] at walked
    | case5 directory names standing target rest went links somewhere ih =>
        rw [walkFrom.eq_def, went] at walked
        dsimp only at walked
        rw [if_neg somewhere] at walked
        exact ih walked

/-- A path that leads to something does not break off. -/
theorem gap?_of_find {entry : Entry} (finds : fs.find true p = .ok (location, entry)) :
    fs.gap? p = none := by
  rw [gap?_of_walk (walk_of_find finds), get?_of_find finds]
  rfl

/-- A walk to something goes there as well in a file system that has grown. -/
theorem Keeps.walk (keeps : Keeps fs after) {entry : Entry}
    (finds : fs.find true p = .ok (location, entry)) : after.walk true p = .ok location := by
  rw [walk_keeps keeps (by simp [gap?_of_find finds]), walk_of_find finds]

/-! ## The same files at another time -/

def later (fs : FileSystem) (now : Time) : FileSystem := { fs with now }

@[simp] theorem get?_later (now : Time) : (fs.later now).get? place = fs.get? place := rfl

theorem keeps_later (fs : FileSystem) (now : Time) : Keeps fs (fs.later now) :=
  ⟨rfl, fun known _ => known, fun known => ⟨_, _, known⟩⟩

theorem gap?_later (now : Time) : (fs.later now).gap? p = fs.gap? p :=
  gap?_keeps (keeps_later fs now) fun _ => gap?_missing

theorem find_later (now : Time) : (fs.later now).find true p = fs.find true p := by
  unfold find
  rw [walk_keeps (keeps_later fs now) fun _ => gap?_missing]
  rfl

end StaticSite.FileSystem
