import StaticSite.Proofs.FileSystem.Putting
import StaticSite.Proofs.Site.Accounting

/-!
When a file is copied again. Its copy is made if there is none, or only an older one. The absence of a copy is not kept
apart from a time, though: what is missing counts as made at the epoch, so a file from no later time is taken to have a
copy that is recent enough.
-/

namespace StaticSite

namespace FileSystem

variable {fs : FileSystem} {source destination p : Path} {time : Time}

/-- Nothing stands at a path, or nothing with a time that can be read. -/
def Lacks (fs : FileSystem) (p : Path) : Prop := fs.exists? p = false ∨ ∃ error, fs.modified p = .error error

/-- What stands at a path was made before a moment. -/
def Predates (fs : FileSystem) (p : Path) (time : Time) : Prop := ∃ made, fs.modified p = .ok made ∧ made < time

theorem exists?_of_modified (timed : fs.modified p = .ok time) : fs.exists? p = true := by
  obtain ⟨found, finds⟩ := exists_find_of_modified timed
  rw [exists?, finds]
  rfl

theorem lacks_of_error {error : IoError} (failed : fs.modified p = .error error) : fs.Lacks p := .inr ⟨error, failed⟩

theorem not_lacks_of_modified (timed : fs.modified p = .ok time) : ¬fs.Lacks p := by
  rintro (missing | ⟨error, failed⟩)
  · rw [exists?_of_modified timed] at missing
    cases missing
  · rw [timed] at failed
    cases failed

theorem predates_iff {made : Time} (timed : fs.modified p = .ok made) : fs.Predates p time ↔ made < time := by
  constructor
  · rintro ⟨_, timed', earlier⟩
    rw [timed] at timed'
    cases timed'
    exact earlier
  · exact fun earlier => ⟨made, timed, earlier⟩

/-- A copy is stale if it is missing or older, unless it is missing and its source is from the epoch or before. -/
theorem stale_iff (dated : fs.modified source = .ok time) (destination : Path) :
    ∃ stale, fs.isStale source destination = .ok stale ∧
      (stale = true ↔ (fs.Lacks destination ∨ fs.Predates destination time) ∧ ¬(fs.Lacks destination ∧ time ≤ 0)) := by
  rw [isStale_eq, dated]
  refine ⟨_, rfl, ?_⟩
  rw [decide_eq_true_eq]
  cases made : fs.modified destination with
  | error error =>
      have lacks := lacks_of_error made
      simp [lacks, Except.toOption]
  | ok moment =>
      have stands := not_lacks_of_modified made
      simp [stands, predates_iff made, Except.toOption]

/-- A missing copy is spared exactly if its source is from the epoch or before. -/
theorem spared_iff_of_lacks (lacks : fs.Lacks destination) :
    fs.isStale source destination = .ok false ↔ ∃ time, fs.modified source = .ok time ∧ time ≤ 0 := by
  cases dated : fs.modified source with
  | error error =>
      rw [isStale_eq, dated]
      constructor
      · intro spared
        cases spared
      · rintro ⟨time, timed, -⟩
        cases timed
  | ok time =>
      obtain ⟨stale, told, means⟩ := stale_iff dated destination
      rw [told, Except.ok.injEq]
      constructor
      · rintro rfl
        refine ⟨time, rfl, not_lt.mp fun later => Bool.false_ne_true (means.mpr ⟨.inl lacks, ?_⟩)⟩
        exact fun overlooked => absurd overlooked.2 (not_le.mpr later)
      · rintro ⟨_, timed, early⟩
        cases timed
        rw [Bool.eq_false_iff]
        exact fun outdated => (means.mp outdated).2 ⟨lacks, early⟩

end FileSystem

namespace Site

variable {site : Site}

/-- A file counts as having an up-to-date copy exactly if its copy is not stale. -/
theorem copyVerbatim_unchanged_iff (site : Site) (file : Path) (work : Workspace) :
    (site.copyVerbatim file work).1 = .unchanged ↔ work.fs.isStale file (site.placeOf file) = .ok false := by
  rw [copyVerbatim_outcome, isSpared_eq]
  cases copied : site.isCopied file work.fs with
  | true =>
      have stale := isSpared_of_isCopied copied
      rw [isSpared_eq, decide_eq_false_iff_not] at stale
      simp [stale]
  | false =>
      by_cases fresh : work.fs.isStale file (site.placeOf file) = .ok false <;> simp [fresh]

/-- Where the time of a source can be read, its copy is stale if it is missing or older, but for a missing copy of a
source from the epoch or before. So whenever it is a file's turn in a build and nothing stands in the place of its copy,
the copy counts as up to date exactly if the file is that old. -/
theorem missing_and_older_copies_are_stale (fs : FileSystem) (source destination : Path) (site : Site)
    (work : Workspace) :
    (∀ time, fs.modified source = .ok time →
      ∃ stale, fs.isStale source destination = .ok stale ∧
        (stale = true ↔
          (fs.Lacks destination ∨ fs.Predates destination time) ∧ ¬(fs.Lacks destination ∧ time ≤ 0))) ∧
    ∀ summary, (site.renderAll work).1 = .ok summary →
      ∃ scan, site.scan work.fs = .ok scan ∧ (site.account scan work).Covers site work.fs scan ∧
        ∀ turn ∈ (site.account scan work).files, turn.work.fs.exists? (site.placeOf turn.item) = false →
          ((site.copyVerbatim turn.item turn.work).1 = .unchanged ↔
            ∃ time, turn.work.fs.modified turn.item = .ok time ∧ time ≤ 0) := by
  refine ⟨fun time dated => FileSystem.stale_iff dated destination, fun summary returns => ?_⟩
  obtain ⟨scan, scanned, -⟩ := exists_scan returns
  refine ⟨scan, scanned, account_covers site scan work, fun turn _ nothing => ?_⟩
  rw [copyVerbatim_unchanged_iff, FileSystem.spared_iff_of_lacks (.inl nothing)]

/-- The copy of a file from after the epoch is made, a file from the epoch goes without one. -/
theorem missing_and_older_copies_are_stale_mixed :
    (∃ stale, mixedFiles.isStale (Location.path ["s", "real.txt"]) (Location.path ["s", "_build", "real.txt"]) =
        .ok stale ∧
      (stale = true ↔ (mixedFiles.Lacks (Location.path ["s", "_build", "real.txt"]) ∨
        mixedFiles.Predates (Location.path ["s", "_build", "real.txt"]) 1) ∧
        ¬(mixedFiles.Lacks (Location.path ["s", "_build", "real.txt"]) ∧ (1 : Time) ≤ 0))) ∧
    ∃ summary, (namedSite.renderAll { fs := mixedFiles }).1 = .ok summary ∧
      ∃ scan, namedSite.scan mixedFiles = .ok scan ∧
        ∀ turn ∈ (namedSite.account scan { fs := mixedFiles }).files,
          turn.work.fs.exists? (namedSite.placeOf turn.item) = false →
            ((namedSite.copyVerbatim turn.item turn.work).1 = .unchanged ↔
              ∃ time, turn.work.fs.modified turn.item = .ok time ∧ time ≤ 0) := by
  have law := missing_and_older_copies_are_stale mixedFiles (Location.path ["s", "real.txt"])
    (Location.path ["s", "_build", "real.txt"]) namedSite { fs := mixedFiles }
  refine ⟨law.1 1 (by decide), ?_⟩
  have scanned := rooted_namedSite.scan_eq tidy_mixedFiles ⟨0, rfl⟩
  have built : namedSite.renderAll { fs := mixedFiles } = _ := renderAll_eq scanned
  have returns := congrArg Prod.fst built
  obtain ⟨scan, scanned, -, told⟩ := law.2 _ returns
  exact ⟨_, returns, scan, scanned, told⟩

/-- There is no copy of the file, the copy is not stale, and the file counts as copied before. -/
theorem missing_copy_of_old_file_is_recent :
    oldFiles.modified (Location.path ["s", "old.txt"]) = .ok 0 ∧
      oldFiles.exists? (namedSite.placeOf (Location.path ["s", "old.txt"])) = false ∧
      oldFiles.isStale (Location.path ["s", "old.txt"]) (namedSite.placeOf (Location.path ["s", "old.txt"])) = .ok false ∧
      (namedSite.renderAll { fs := oldFiles }).1 = .ok ⟨0, 0, 0, 0, 0⟩ ∧
      (namedSite.copyVerbatim (Location.path ["s", "old.txt"]) { fs := oldFiles }).1 = .unchanged := by
  rw [placeOf_oldFiles, renderAll_oldFiles, copyVerbatim_oldFiles]
  exact ⟨by decide, by decide, by decide, rfl, rfl⟩

end Site

end StaticSite
