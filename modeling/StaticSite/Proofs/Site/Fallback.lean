import StaticSite.Site.Build
import StaticSite.Proofs.FileSystem.Writing

/-!
Pages that cannot be built. Such a page is copied like any other file, only over something older, and
what stands in its place may be what an earlier build made of the page.
-/

namespace StaticSite.Site

/-- Where a file is copied to. -/
def placeOf (site : Site) (file : Path) : Path := site.outputDirectory.join (site.within file)

section Copies

variable {site : Site} {file : Path} {work : Workspace}

theorem withFiles_bind_apply {α β : Type} (action : FileM α)
    (next : Except IoError α → ExceptT BuildError BuildM β) (work : Workspace) :
    (liftM (withFiles action) >>= next : ExceptT BuildError BuildM β) work =
      next (action work.fs).1 { work with fs := (action work.fs).2 } := rfl

theorem attemptCopy_apply (site : Site) (file : Path) (work : Workspace) :
    site.attemptCopy file work =
      match work.fs.isStale file (site.placeOf file) with
      | .error error => (.error (.io file error), work)
      | .ok false => (.ok .unchanged, work)
      | .ok true =>
        match FileSystem.copyFile file (site.placeOf file) work.fs with
        | (.error error, fs) => (.error (.io (site.placeOf file) error), { work with fs })
        | (.ok _, fs) => (.ok .copied, { work with fs }) := by
  change (match work.fs.isStale file (site.placeOf file) with
    | .error error => throw (.io file error)
    | .ok false => return .unchanged
    | .ok true => liftM (withFiles (FileSystem.copyFile file (site.placeOf file))) >>= _ :
      ExceptT BuildError BuildM Outcome) work = _
  cases work.fs.isStale file (site.placeOf file) with
  | error error => rfl
  | ok stale =>
      cases stale with
      | false => rfl
      | true =>
          dsimp only
          rw [withFiles_bind_apply]
          obtain ⟨_ | _, fs⟩ := FileSystem.copyFile file (site.placeOf file) work.fs <;> rfl

/-- What is noted down of a file that cannot be copied. -/
def noted (site : Site) (file : Path) (work : Workspace) (error : BuildError) : Workspace :=
  { work with log := work.log ++ [.copyFailed (site.within file) error] }

theorem copyInstead_apply (site : Site) (file : Path) (work : Workspace) :
    site.copyInstead file work =
      match work.fs.isStale file (site.placeOf file) with
      | .error error => (.failed, site.noted file work (.io file error))
      | .ok false => (.fallback, work)
      | .ok true =>
        match FileSystem.copyFile file (site.placeOf file) work.fs with
        | (.error error, fs) => (.failed, site.noted file { work with fs } (.io (site.placeOf file) error))
        | (.ok _, fs) => (.fallback, { work with fs }) := by
  simp only [copyInstead, copyVerbatim, bind, StateT.bind, ExceptT.run, attemptCopy_apply]
  cases work.fs.isStale file (site.placeOf file) with
  | error error => rfl
  | ok stale =>
      cases stale with
      | false => rfl
      | true =>
          dsimp only
          obtain ⟨_ | _, fs⟩ := FileSystem.copyFile file (site.placeOf file) work.fs <;> rfl

theorem copyInstead_of_fresh (fresh : work.fs.isStale file (site.placeOf file) = .ok false) :
    site.copyInstead file work = (.fallback, work) := by
  rw [copyInstead_apply, fresh]

/-- A page that is counted as copied reads like its source afterwards, unless something that was not
older stood in its place, which is kept. -/
theorem copyInstead_copies_or_keeps (site : Site) (file : Path) (work : Workspace)
    (orderly : work.fs.Orderly) :
    let (outcome, after) := site.copyInstead file work
    outcome = .failed ∨
      outcome = .fallback ∧
        match work.fs.isStale file (site.placeOf file) with
        | .ok true =>
          ∃ content, after.fs.read file = .ok content ∧ after.fs.read (site.placeOf file) = .ok content
        | _ => after = work := by
  rw [copyInstead_apply]
  cases work.fs.isStale file (site.placeOf file) with
  | error error => exact .inl rfl
  | ok stale =>
      cases stale with
      | false => exact .inr ⟨rfl, rfl⟩
      | true =>
          dsimp only
          cases copied : FileSystem.copyFile file (site.placeOf file) work.fs with
          | mk result fs =>
              cases result with
              | error error => exact .inl rfl
              | ok size => exact .inr ⟨rfl, FileSystem.reads_of_copyFile_ok orderly copied⟩

/-- A page whose building fails is handed on to be copied. -/
theorem renderPage_of_error {page : Page} {bindings : Json.Fields} {error : BuildError}
    {after : Workspace} (failed : site.buildPage page bindings work = (.error error, after)) :
    site.renderPage page bindings work =
      site.copyInstead page.sourceFile
        { after with log := after.log ++ [.pageFailed (site.within page.sourceFile) error] } := by
  simp only [renderPage, bind, StateT.bind, ExceptT.run, failed]
  rfl

end Copies

/-! ## A small site -/

section Sample

def sampleSite : Site where
  config := {}
  sourceDirectory := ⟨"/s"⟩
  outputDirectory := ⟨"/s/_build"⟩
  templateDirectory := ⟨"/s/_templates"⟩

def samplePage : Page where
  title := "A"
  sourceFile := ⟨"/s/a.html"⟩
  sourceExtension := ".html"
  format := .markup
  outputFile := ⟨"a.html"⟩
  url := "/a.html"
  meta? := some []
  contentOffset := 8

/-- The page and its layout, and nothing built yet. -/
def sampleFiles (layout : String) : FileSystem where
  entries :=
    [(["s"], .directory 0), (["s", "a.html"], .file (Text.Utf8.encode "---\n---\nbody") 1),
      (["s", "_templates"], .directory 0),
      (["s", "_templates", "default.html"], .file (Text.Utf8.encode layout) 1)]
  now := 9
  workingDirectory := []

end Sample

end StaticSite.Site
