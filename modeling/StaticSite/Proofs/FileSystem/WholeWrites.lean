import StaticSite.Proofs.FileSystem.Holding

/-!
Writing files as a whole. A write puts a file at one place or it fails, and apart from that directories come to be
at missing ancestors of the path. Every other path reads as before, unless it was broken off at a directory that
was made and leads through it and out of it again.
-/

namespace StaticSite.FileSystem

open Path (Dotless EndsIn Ancestor)

variable {fs mid after : FileSystem} {p q above : Path} {name : String} {names : List String} {content : Bytes}
  {directory standing place location : Location} {links : Nat} {error : IoError}

/-! ## Walks that follow no last link -/

/-- It makes no difference whether a last link is followed, if there is none. -/
theorem leg_followed (fs : FileSystem) (directory : Location) (names : List String) :
    match fs.leg false directory names with
    | .reached place =>
      (∀ target, fs.get? place ≠ some (.link target)) → fs.leg true directory names = .reached place
    | .failed error => fs.leg true directory names = .failed error
    | .link standing target rest => fs.leg true directory names = .link standing target rest := by
  fun_induction leg fs false directory names with
  | case1 directory => exact fun _ => rfl
  | case2 directory names time known ih =>
      rw [leg, known]
      exact ih
  | case3 directory names time known undotted ih =>
      rw [leg, known]
      exact ih
  | case6 directory name names time known undotted lower below there ih =>
      rw [leg, known]
      dsimp only
      rw [if_neg undotted, if_neg lower, there]
      exact ih
  | case9 directory name names time known undotted lower target there ends =>
      exact fun unlinked => absurd there (unlinked target)
  | case4 directory name time known undotted lower absent => simp [leg, known, undotted, lower, absent]
  | case5 directory name names time known undotted lower absent more =>
      simp [leg, known, undotted, lower, absent, more]
  | case7 directory name time known undotted lower content below there =>
      simp [leg, known, undotted, lower, there]
  | case8 directory name names time known undotted lower content below there more =>
      simp [leg, known, undotted, lower, there, more]
  | case10 directory name names time known undotted lower target there ends =>
      simp [leg, known, undotted, lower, there]
  | case11 directory name names other =>
      dsimp only
      rw [leg]
      cases known : fs.get? directory with
      | none => rfl
      | some entry =>
          cases entry with
          | directory time => exact absurd known (other time)
          | file content time => rfl
          | link target => rfl

theorem walk_followed (walked : fs.walk false p = .ok place)
    (unlinked : ∀ target, fs.get? place ≠ some (.link target)) : fs.walk true p = .ok place := by
  have some_char := isEmpty_of_walk walked
  rw [walk_eq some_char] at walked ⊢
  generalize fs.start p = standing, todo p = names, maxLinks = links at walked ⊢
  fun_induction walkFrom fs false links standing names with
  | case1 links standing names reached went =>
      have goes := leg_followed fs standing names
      rw [went] at goes
      cases walked
      rw [walkFrom.eq_def, goes unlinked]
  | case2 => cases walked
  | case3 => cases walked
  | case4 => cases walked
  | case5 standing names met target behind went links somewhere ih =>
      have goes := leg_followed fs standing names
      rw [went] at goes
      rw [walkFrom.eq_def, goes]
      dsimp only
      rw [if_neg somewhere]
      exact ih walked

/-! ## Paths that break off where a file comes to be -/

theorem gapIn_filled (keeps : Keeps fs after) (gap : fs.gapIn directory names = some place)
    (filled : ∃ content time, after.get? place = some (.file content time)) :
    after.leg true directory names = .reached place ∨ ∃ error, after.leg true directory names = .failed error := by
  obtain ⟨content, time, filled⟩ := filled
  fun_induction gapIn fs directory names with
  | case1 directory missing =>
      cases gap
      exact .inl rfl
  | case3 directory name rest missing =>
      cases gap
      exact .inr ⟨.notADirectory, by rw [leg, filled]⟩
  | case6 directory rest time known ih =>
      rw [leg, keeps.directory known]
      exact ih gap
  | case7 directory rest time known undotted ih =>
      rw [leg, keeps.directory known]
      exact ih gap
  | case8 directory name rest time known undotted lower missing =>
      cases gap
      rw [leg, keeps.directory known]
      dsimp only
      rw [if_neg undotted, if_neg lower, filled]
      by_cases last : rest = []
      · exact .inl (if_pos last)
      · exact .inr ⟨.notADirectory, if_neg last⟩
  | case9 directory name rest time known undotted lower below there ih =>
      rw [leg, keeps.directory known]
      dsimp only
      rw [if_neg undotted, if_neg lower, keeps.directory there]
      exact ih gap
  | case2 => cases gap
  | case4 => cases gap
  | case5 => cases gap
  | case10 => cases gap
  | case11 => cases gap

/-- A path that broke off where a file has come to be leads to the file, or nowhere. -/
theorem eq_of_walk_filled (keeps : Keeps fs after) (gap : fs.gap? q = some location)
    (filled : ∃ content time, after.get? location = some (.file content time))
    (walked : after.walk true q = .ok place) : place = location := by
  have ends {links : Nat} {standing : Location} {names : List String}
      (gap : fs.gapIn standing names = some location)
      (walked : after.walkFrom true links standing names = .ok place) : place = location := by
    rw [walkFrom.eq_def] at walked
    obtain reached | ⟨error, failed⟩ := gapIn_filled keeps gap filled
    · rw [reached] at walked
      cases walked
      rfl
    · rw [failed] at walked
      cases walked
  have some_char := isEmpty_of_walk walked
  rw [walk_eq some_char] at walked
  rw [gap?, if_neg (by simp [some_char])] at gap
  have begins : after.start q = fs.start q := by rw [start, start, keeps.workingDirectory]
  rw [begins] at walked
  change fs.gapFrom maxLinks (fs.start q) (todo q) = some location at gap
  generalize fs.start q = standing, todo q = names, maxLinks = links at walked gap
  fun_induction gapFrom fs links standing names with
  | case1 links standing names reached went => exact ends gap walked
  | case2 links standing names error went => exact ends gap walked
  | case3 standing names met target rest went => cases gap
  | case4 standing names met target rest went links nowhere => cases gap
  | case5 standing names met target rest went links somewhere ih =>
      rw [walkFrom.eq_def, (leg_keeps keeps true (by simp [gapIn_of_link went])).1, went] at walked
      dsimp only at walked
      rw [if_neg somewhere] at walked
      exact ih walked gap

/-! ## Directories at missing ancestors -/

/-- A directory is made at a missing ancestor of a path. -/
structure MadeFor (p : Path) (fs after : FileSystem) (place : Location) : Prop where
  missing : fs.get? place = none
  made : after.get? place = some (.directory fs.now)
  ancestor : ∃ above, Ancestor p above ∧ fs.exists? above = false ∧ after.walk true above = .ok place

/-- From one file system to another one nothing happens but that directories are made at missing ancestors. -/
structure Makes (p : Path) (fs after : FileSystem) : Prop where
  now : after.now = fs.now
  workingDirectory : after.workingDirectory = fs.workingDirectory
  orderly : fs.Orderly → after.Orderly
  get? : ∀ place, after.get? place = fs.get? place ∨ MadeFor p fs after place

namespace Makes

theorem refl (p : Path) (fs : FileSystem) : Makes p fs fs := ⟨rfl, rfl, id, fun _ => .inl rfl⟩

theorem known (makes : Makes p fs after) {entry : Entry} (known : fs.get? place = some entry) :
    after.get? place = some entry := by
  obtain same | made := makes.get? place
  · rw [same, known]
  · have missing := made.missing
    rw [known] at missing
    cases missing

theorem keeps (makes : Makes p fs after) : Keeps fs after :=
  ⟨makes.workingDirectory, fun known _ => makes.known known, fun known => ⟨_, _, makes.known known⟩⟩

theorem exists? (makes : Makes p fs after) (absent : after.exists? above = false) : fs.exists? above = false := by
  rw [FileSystem.exists?] at absent ⊢
  cases finds : fs.find true above with
  | error error => rfl
  | ok found =>
      have finds' := find_eq_ok_iff.mpr ⟨makes.keeps.walk finds, makes.known (get?_of_find finds)⟩
      rw [finds'] at absent
      cases absent

theorem trans (first : Makes p fs mid) (second : Makes p mid after) : Makes p fs after := by
  refine ⟨second.now.trans first.now, second.workingDirectory.trans first.workingDirectory,
    second.orderly ∘ first.orderly, fun place => ?_⟩
  obtain same | made := second.get? place
  · obtain same' | made := first.get? place
    · exact .inl (same.trans same')
    · obtain ⟨above, ancestor, absent, leads⟩ := made.ancestor
      have walked := second.keeps.walk (find_eq_ok_iff.mpr ⟨leads, made.made⟩)
      exact .inr ⟨made.missing, same.trans made.made, above, ancestor, absent, walked⟩
  · obtain ⟨above, ancestor, absent, leads⟩ := made.ancestor
    have missing : fs.get? place = none := by
      cases known : fs.get? place with
      | none => rfl
      | some entry => exact absurd made.missing (by simp [first.known known])
    exact .inr ⟨missing, by rw [made.made, first.now], above, ancestor, first.exists? absent, leads⟩

end Makes

theorem composes_makes (p : Path) : Composes Orderly (Makes p) :=
  ⟨.refl p, .trans, fun orderly makes => makes.orderly orderly⟩

theorem makes_makeDirectory (ancestor : Ancestor p above) (some_char : above.text.isEmpty = false) :
    Within Orderly (Makes p) (makeDirectory above) := by
  intro fs orderly
  have order := keepsOrder_makeDirectory above fs orderly
  obtain ⟨below, -, parent⟩ := Relation.TransGen.tail'_iff.mp ancestor
  rw [makeDirectory_trimmed ((Path.parent?_open parent).resolve_left (by simp [some_char]))] at order ⊢
  cases walked : fs.walk false above with
  | error error => exact .refl p fs
  | ok place =>
      rw [walked] at order
      dsimp only at order ⊢
      split
      case isTrue => exact .refl p fs
      case isFalse absent =>
        rw [if_neg absent] at order
        have missing : fs.get? place = none := by simpa using absent
        have fills : Fills (.directory fs.now) (fs.get? place) := by
          rw [missing]
          trivial
        have leads := walk_followed walked (by simp [missing])
        have nothing : fs.exists? above = false := by
          rw [FileSystem.exists?, find, leads]
          simp only [bind, Except.bind, missing]
          rfl
        refine ⟨rfl, rfl, fun _ => order, fun other => ?_⟩
        by_cases same : other = place
        · subst same
          have made := get?_put_fills fills other
          rw [if_pos rfl] at made
          exact .inr ⟨missing, made, above, ancestor, nothing, walk_put_fills fills leads⟩
        · exact .inl (by rw [get?_put_fills fills, if_neg same])

theorem makes_makeParent (p : Path) : Within Orderly (Makes p) (makeParent p) := by
  have done := (composes_makes p).pure ()
  unfold makeParent
  cases parent : p.parent? with
  | none => exact done
  | some above =>
      dsimp only
      split
      · exact done
      · exact (composes_makes p).makeLevels (fun start parent => .tail start parent) makes_makeDirectory _
          (.single parent)

/-! ## Writing -/

/-- A write fails, or it fills a place that it then is found at. -/
theorem writeFile_cases (orderly : fs.Orderly) (p : Path) (content : Bytes) :
    (∃ error after, writeFile p content fs = (.error error, after) ∧ Makes p fs after) ∨
    ∃ mid location, writeFile p content fs = (.ok (), mid.put location (.file content fs.now)) ∧ Makes p fs mid ∧
      mid.Orderly ∧ mid.placeToWrite p = .ok location := by
  rw [writeFile_apply, write_apply]
  cases placed : fs.placeToWrite p with
  | ok location => exact .inr ⟨fs, location, rfl, .refl p fs, orderly, placed⟩
  | error error =>
      dsimp only
      split
      case isFalse => exact .inl ⟨error, fs, rfl, .refl p fs⟩
      case isTrue =>
        have makes := makes_makeParent p fs orderly
        generalize makeParent p fs = outcome at makes ⊢
        obtain ⟨error | done, mid⟩ := outcome
        · exact .inl ⟨error, mid, rfl, makes⟩
        · dsimp only at makes ⊢
          rw [write_apply]
          cases placed' : mid.placeToWrite p with
          | error error => exact .inl ⟨error, mid, rfl, makes⟩
          | ok location =>
              exact .inr ⟨mid, location, by rw [makes.now], makes, makes.orderly orderly, placed'⟩

/-- From one file system to another one a file is written at the place that a path leads to, as a whole. -/
structure Wrote (p : Path) (content : Bytes) (location : Location) (fs after : FileSystem) : Prop where
  now : after.now = fs.now
  workingDirectory : after.workingDirectory = fs.workingDirectory
  leads : after.walk true p = .ok location
  file : after.get? location = some (.file content fs.now)
  before : ∀ entry, fs.get? location = some entry → ∃ content time, entry = .file content time
  elsewhere : ∀ place, place ≠ location → after.get? place = fs.get? place ∨ MadeFor p fs after place

/-- A path that was broken off at a directory that was made, and that leads through it and out of it again. -/
def Detours (p : Path) (fs after : FileSystem) (q : Path) : Prop :=
  ∃ made place, MadeFor p fs after made ∧ fs.gap? q = some made ∧ after.walk true q = .ok place ∧ ¬made <+: place

namespace Wrote

theorem get?_cases (wrote : Wrote p content location fs after) (place : Location) :
    place = location ∨ after.get? place = fs.get? place ∨ MadeFor p fs after place := by
  by_cases same : place = location
  · exact .inl same
  · exact .inr (wrote.elsewhere place same)

theorem keeps (wrote : Wrote p content location fs after) : Keeps fs after where
  workingDirectory := wrote.workingDirectory
  passable {place entry} known solid := by
    obtain rfl | same | made := wrote.get?_cases place
    · obtain ⟨content, time, file⟩ := wrote.before entry known
      exact absurd file (solid content time)
    · rw [same, known]
    · exact absurd made.missing (by simp [known])
  file {place content' time} known := by
    obtain rfl | same | made := wrote.get?_cases place
    · exact ⟨_, _, wrote.file⟩
    · exact ⟨_, _, same.trans known⟩
    · exact absurd made.missing (by simp [known])

theorem reads (wrote : Wrote p content location fs after) : after.read p = .ok content :=
  read_of_walk wrote.leads wrote.file

/-- What could be read before is read, unless it is what was written. -/
theorem read_of_before (wrote : Wrote p content location fs after) {content' : Bytes}
    (reads : fs.read q = .ok content') : after.walk true q = .ok location ∨ after.read q = .ok content' := by
  obtain ⟨place, time, finds⟩ := exists_find_of_read reads
  have known := get?_of_find finds
  have walked := wrote.keeps.walk finds
  obtain rfl | same | made := wrote.get?_cases place
  · exact .inl walked
  · exact .inr (read_of_walk walked (same.trans known))
  · exact absurd made.missing (by simp [known])

/-- What is read was there before, unless it is what was written or the path takes a detour. -/
theorem read_of_after (wrote : Wrote p content location fs after) (orderly : fs.Orderly) {content' : Bytes}
    (reads : after.read q = .ok content') :
    after.walk true q = .ok location ∨ fs.read q = .ok content' ∨ Detours p fs after q := by
  obtain ⟨place, time, finds⟩ := exists_find_of_read reads
  have walked := walk_of_find finds
  have known := get?_of_find finds
  obtain rfl | same | made := wrote.get?_cases place
  · exact .inl walked
  · rw [known] at same
    have before (missing : ∀ gap, fs.gap? q = some gap → after.get? gap = none) : fs.read q = .ok content' :=
      read_of_walk ((walk_keeps wrote.keeps missing).symm.trans walked) same.symm
    cases gap : fs.gap? q with
    | none => exact .inr (.inl (before (by simp [gap])))
    | some first =>
        -- the walk went on behind the place where it was broken off, if something is there now
        obtain rfl | absent | made := wrote.get?_cases first
        · rw [eq_of_walk_filled wrote.keeps gap ⟨_, _, wrote.file⟩ walked] at walked
          exact .inl walked
        · rw [gap?_missing gap] at absent
          exact .inr (.inl (before (by simpa [gap] using absent)))
        · refine .inr (.inr ⟨first, place, made, gap, walked, fun inside => ?_⟩)
          rw [orderly.absent_below made.missing inside] at same
          cases same
  · rw [made.made] at known
    cases known

theorem others (wrote : Wrote p content location fs after) (orderly : fs.Orderly) (q : Path) :
    after.walk true q = .ok location ∨ (after.read q).toOption = (fs.read q).toOption ∨ Detours p fs after q := by
  cases reads : after.read q with
  | ok content' =>
      obtain leads | same | detour := wrote.read_of_after orderly reads
      · exact .inl leads
      · exact .inr (.inl (by rw [same]))
      · exact .inr (.inr detour)
  | error error =>
      cases reads' : fs.read q with
      | error error' => exact .inr (.inl rfl)
      | ok content' =>
          obtain leads | same := wrote.read_of_before reads'
          · exact .inl leads
          · rw [reads] at same
            cases same

end Wrote

/-- A file is put where a path leads to, and directories where they were missing. -/
theorem Makes.wrote (makes : Makes p fs mid) (orderly : mid.Orderly) (placed : mid.placeToWrite p = .ok location)
    (content : Bytes) : Wrote p content location fs (mid.put location (.file content fs.now)) := by
  obtain ⟨walked, -, -, -, -, fills⟩ := orderly.placeToWrite placed
  have fills := fills content fs.now
  have there := get?_put_fills fills
  refine ⟨makes.now, makes.workingDirectory, walk_put_fills fills walked, by rw [there, if_pos rfl],
    fun entry known => ?_, fun place different => ?_⟩
  · rw [makes.known known] at fills
    cases entry with
    | directory time => exact fills.elim
    | file content time => exact ⟨content, time, rfl⟩
    | link target => exact fills.elim
  · rw [there, if_neg different]
    refine (makes.get? place).imp id fun made => ?_
    obtain ⟨above, ancestor, absent, leads⟩ := made.ancestor
    exact ⟨made.missing, by rw [there, if_neg different, made.made], above, ancestor, absent,
      walk_put_fills fills leads⟩

/-! ## Writes that succeed -/

theorem write_held (ends : p.EndsIn name) (holds : fs.Holds directory p)
    (free : fs.get? (directory ++ [name]) = none) (content : Bytes) :
    write p content fs = (.ok (), fs.put (directory ++ [name]) (.file content fs.now)) := by
  rw [write_apply, placeToWrite, holds.walk ends (by simp [free])]
  dsimp only
  rw [free, endsInSlash_of_endsIn ends, if_neg (by simp)]

/-- A file can be written where nothing is, if what is above it is there or missing. -/
theorem writeFile_new (orderly : fs.Orderly) (ends : p.EndsIn name) (makeable : fs.Makeable p)
    (absent : ∀ found, fs.find false p ≠ .ok found) (content : Bytes) : (writeFile p content fs).1 = .ok () := by
  rw [writeFile_apply]
  obtain ⟨above, parent, ⟨directory, holds, -⟩ | ⟨absent', ends'⟩⟩ := makeable.cases ends
  · rw [write_held ends holds (holds.absent ends absent)]
  · obtain ⟨name', ends''⟩ := ends'
    have missing := (makeable.parent parent).notFound orderly ends'' absent'
    have failed : write p content fs = (.error .notFound, fs) := by
      rw [write_apply, placeToWrite, walk_of_missing orderly ends parent ⟨name', ends''⟩ missing]
      dsimp only
      rw [endsInSlash_of_endsIn ends]
      rfl
    obtain ⟨mid, directory, made, -, -, holds, free⟩ := exists_makeParent orderly ends makeable
    rw [failed]
    dsimp only
    rw [if_pos (by decide), made]
    dsimp only
    rw [write_held ends holds (free absent)]

theorem writeFile_over (ends : p.EndsIn name) {content' : Bytes} {time : Time}
    (finds : fs.find true p = .ok (location, .file content' time)) (content : Bytes) :
    (writeFile p content fs).1 = .ok () := by
  have placed : fs.placeToWrite p = .ok location := by
    rw [placeToWrite, walk_of_find finds]
    dsimp only
    rw [get?_of_find finds, endsInSlash_of_endsIn ends, if_neg (by simp)]
  rw [writeFile_apply, write_apply, placed]

/-- Where the ancestors of an absolute path without dots are there or missing, they can be made. -/
theorem makeable_of_absolute (absolute : p.isAbsolute) (dotless : p.Dotless) (ends : p.EndsIn name)
    (ready : ∀ above, Ancestor p above → fs.isDirectory above = true ∨ ∀ found, fs.find false above ≠ .ok found) :
    fs.Makeable p := by
  intro above ancestor
  refine .inr ((ready above ancestor).imp id fun absent => ⟨absent, ?_⟩)
  obtain rfl | ends' := ancestor.endsIn absolute dotless.proper ends
  · exact absurd (find_eq_ok_iff.mpr ⟨walk_root false fs, rfl⟩) (absent ([], .directory 0))
  · exact ends'

/-- A write leaves the whole content or no file at all, and it succeeds wherever a file can be made. -/
theorem writeFile_whole (orderly : fs.Orderly) (p : Path) (content : Bytes) :
    (∀ after, writeFile p content fs = (.ok (), after) →
      after.read p = .ok content ∧ ∃ location, Wrote p content location fs after ∧
        ∀ q, after.walk true q = .ok location ∨ (after.read q).toOption = (fs.read q).toOption ∨
          Detours p fs after q) ∧
    (∀ error after, writeFile p content fs = (.error error, after) →
      ∀ place, after.get? place = fs.get? place ∨ MadeFor p fs after place) ∧
    (p.isAbsolute = true → p.Dotless → endsInSlash p = false →
      (∀ above, Ancestor p above → fs.isDirectory above = true ∨ ∀ found, fs.find false above ≠ .ok found) →
      ((∀ found, fs.find false p ≠ .ok found) ∨
        ∃ location content time, fs.find true p = .ok (location, .file content time)) →
      (writeFile p content fs).1 = .ok ()) := by
  refine ⟨fun after wrote => ?_, fun error after failed => ?_, fun absolute dotless open_end ready free => ?_⟩
  · obtain ⟨error, after', failed, -⟩ | ⟨mid, location, wrote', makes, orderly', placed⟩ :=
      writeFile_cases orderly p content
    · rw [failed] at wrote
      cases wrote
    · rw [wrote'] at wrote
      cases wrote
      have whole := makes.wrote orderly' placed content
      exact ⟨whole.reads, location, whole, whole.others orderly⟩
  · obtain ⟨error', after', failed', makes⟩ | ⟨mid, location, wrote, -⟩ := writeFile_cases orderly p content
    · rw [failed'] at failed
      cases failed
      exact makes.get?
    · rw [wrote] at failed
      cases failed
  · obtain ⟨name, ends⟩ := Path.exists_endsIn (isEmpty_text absolute) open_end dotless.proper
    obtain absent | ⟨location, content', time, finds⟩ := free
    · exact writeFile_new orderly ends (makeable_of_absolute absolute dotless ends ready) absent content
    · exact writeFile_over ends finds content

/-- A file, a directory, a link to the directory and a link that leads nowhere. -/
def sampleTree : FileSystem where
  entries := [(["x"], .file [104, 105] 1), (["d"], .directory 0), (["l"], .link ⟨"d"⟩), (["gone"], .link ⟨"nowhere"⟩)]
  now := 9
  workingDirectory := []

theorem orderly_sampleTree : sampleTree.Orderly := by
  apply orderly_of_entries
  simp only [sampleTree, List.forall_mem_cons]
  exact ⟨⟨0, rfl⟩, ⟨0, rfl⟩, ⟨0, rfl⟩, ⟨0, rfl⟩, by simp⟩

/-- A file is written behind a link, in a directory that is missing. -/
theorem writeFile_whole_behind_link :
    sampleTree.Orderly ∧ (writeFile ⟨"/l/new/f"⟩ [97] sampleTree).1 = .ok () ∧
      (writeFile ⟨"/l/new/f"⟩ [97] sampleTree).2.read ⟨"/l/new/f"⟩ = .ok [97] := by
  have whole := writeFile_whole orderly_sampleTree ⟨"/l/new/f"⟩ [97]
  have absent : sampleTree.find false ⟨"/l/new/f"⟩ = .error .notFound := rfl
  have done := whole.2.2 (by decide) (by decide) (by decide) (fun above ancestor => ?_) (.inl (by simp [absent]))
  · refine ⟨orderly_sampleTree, done, ?_⟩
    cases wrote : writeFile ⟨"/l/new/f"⟩ [97] sampleTree with
    | mk outcome after =>
        rw [wrote] at done
        cases done
        exact (whole.1 after wrote).1
  · have levels : Path.parent? ⟨"/l/new/f"⟩ = some ⟨"/l/new"⟩ ∧ Path.parent? ⟨"/l/new"⟩ = some ⟨"/l"⟩ ∧
        Path.parent? ⟨"/l"⟩ = some ⟨"/"⟩ ∧ Path.parent? ⟨"/"⟩ = none := by
      decide +kernel
    rw [Path.ancestor_iff levels.1, Path.ancestor_iff levels.2.1, Path.ancestor_iff levels.2.2.1] at ancestor
    obtain rfl | rfl | rfl | further := ancestor
    · have missing : sampleTree.find false ⟨"/l/new"⟩ = .error .notFound := rfl
      exact .inr (by simp [missing])
    · exact .inl rfl
    · exact .inl rfl
    · exact absurd further (Path.not_ancestor levels.2.2.2)

/-- A path that was broken off at a directory that is made leads out of it again, and where nothing is a path with a
slash at its end stands for a directory. -/
theorem write_opens_detour :
    (writeFile ⟨"/new/f"⟩ [97] sampleTree).1 = .ok () ∧
      sampleTree.read ⟨"/new/../x"⟩ = .error .notFound ∧
      (writeFile ⟨"/new/f"⟩ [97] sampleTree).2.read ⟨"/new/../x"⟩ = .ok [104, 105] ∧
      (writeFile ⟨"/new/f"⟩ [97] sampleTree).2.walk true ⟨"/new/../x"⟩ = .ok ["x"] ∧
      (writeFile ⟨"/new/f"⟩ [97] sampleTree).2.walk true ⟨"/new/f"⟩ = .ok ["new", "f"] ∧
      sampleTree.find false ⟨"/b/"⟩ = .error .notFound ∧ Path.parent? ⟨"/b/"⟩ = some ⟨"/"⟩ ∧
      sampleTree.isDirectory ⟨"/"⟩ = true ∧ Path.parent? ⟨"/"⟩ = none ∧
      (writeFile ⟨"/b/"⟩ [97] sampleTree).1 = .error .isADirectory := by
  decide +kernel

end StaticSite.FileSystem
