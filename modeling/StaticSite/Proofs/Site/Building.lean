import StaticSite.Proofs.FileSystem.Copying
import StaticSite.Proofs.Page.Place
import StaticSite.Proofs.Site.Fallback
import StaticSite.Proofs.Site.Scanning

/-!
What the steps of a build change. A step for a file, a page or a link changes what lies at its place below
the output directory, and a build is a run of such steps.
-/

namespace StaticSite.Site

open Path (Proper ofNames)
open Location (Plain)
open FileSystem (Alters Ready Composes)

variable {site : Site} {source output : Location} {names : List String} {work : Workspace} {content : Bytes}
  {time : Time}

/-! ## Places -/

namespace Rooted

variable (rooted : Rooted site source output)

include rooted

theorem within_path (some_name : names ≠ []) (plain : Plain names) :
    site.within (Location.path (source ++ names)) = ofNames names := by
  rw [within, rooted.sourceDirectory, ← Location.path_join rooted.plain_source some_name plain,
    Path.relativeTo_join _ some_name plain]

/-- The place below the output directory that has names. -/
theorem join_ofNames (some_name : names ≠ []) (plain : Plain names) :
    site.outputDirectory.join (ofNames names) = Location.path (output ++ names) := by
  rw [rooted.outputDirectory, Location.path_join rooted.plain_output some_name plain]

theorem placeOf_path (some_name : names ≠ []) (plain : Plain names) :
    site.placeOf (Location.path (source ++ names)) = Location.path (output ++ names) := by
  rw [placeOf, rooted.within_path some_name plain, rooted.join_ofNames some_name plain]

end Rooted

/-! ## Copying a file -/

theorem copyVerbatim_apply (site : Site) (file : Path) (work : Workspace) :
    site.copyVerbatim file work =
      match work.fs.isStale file (site.placeOf file) with
      | .error error => (.failed, site.noted file work (.io file error))
      | .ok false => (.unchanged, work)
      | .ok true =>
        match FileSystem.copyFile file (site.placeOf file) work.fs with
        | (.error error, fs) => (.failed, site.noted file { work with fs } (.io (site.placeOf file) error))
        | (.ok _, fs) => (.copied, { work with fs }) := by
  simp only [copyVerbatim, bind, StateT.bind, ExceptT.run, attemptCopy_apply]
  cases work.fs.isStale file (site.placeOf file) with
  | error error => rfl
  | ok stale =>
      cases stale with
      | false => rfl
      | true =>
          dsimp only
          obtain ⟨_ | _, fs⟩ := FileSystem.copyFile file (site.placeOf file) work.fs <;> rfl

/-- What copying a file, whose content is given, does at the place that it is copied to. -/
inductive Copies (file : Path) (location : Location) (content : Bytes) (work : Workspace) :
    Outcome × Workspace → Prop
  | unchanged (fresh : work.fs.isStale file (Location.path location) = .ok false) :
      Copies file location content work (.unchanged, work)
  | failed {after : Workspace} (alters : Alters {location} ∅ work.fs after.fs)
      (keeps : after.fs.get? location = work.fs.get? location) :
      Copies file location content work (.failed, after)
  | copied {after : Workspace} (alters : Alters {location} ∅ work.fs after.fs)
      (holds : after.fs.get? location = some (.file content work.fs.now)) :
      Copies file location content work (.copied, after)

/-- A file can be copied to a place: no link is in the way, and the file lies elsewhere. -/
structure Copyable (fs : FileSystem) (origin target : Location) (content : Bytes) (time : Time) : Prop where
  ready : Ready true target fs
  plain : Plain target
  some_name : target ≠ []
  plain' : Plain origin
  known : fs.get? origin = some (.file content time)
  apart : origin ≠ target

theorem copies_copyVerbatim {origin target : Location}
    (copyable : Copyable work.fs origin target content time)
    (place : site.placeOf (Location.path origin) = Location.path target) :
    Copies (Location.path origin) target content work (site.copyVerbatim (Location.path origin) work) := by
  rw [copyVerbatim_apply, place]
  cases stale : work.fs.isStale (Location.path origin) (Location.path target) with
  | error error => exact .failed (.refl _ _ work.fs) rfl
  | ok stale' =>
      cases stale' with
      | false => exact .unchanged stale
      | true =>
          have copied := FileSystem.copied_copyFile copyable.ready copyable.plain copyable.some_name
            copyable.plain' copyable.known copyable.apart
          dsimp only
          generalize FileSystem.copyFile (Location.path origin) (Location.path target) work.fs =
            outcome at copied ⊢
          have alters := copied.alters copyable.some_name
          have holds := copied.get?
          obtain ⟨error | size, fs⟩ := outcome
          · exact .failed alters holds
          · exact .copied alters holds

theorem Copies.alters {file : Path} {location : Location} {result : Outcome × Workspace}
    (copies : Copies file location content work result) : Alters {location} ∅ work.fs result.2.fs := by
  cases copies with
  | unchanged => exact .refl _ _ work.fs
  | failed alters => exact alters
  | copied alters => exact alters

theorem copyInstead_eq (site : Site) (file : Path) (work : Workspace) :
    site.copyInstead file work =
      ((if (site.copyVerbatim file work).1 = .failed then .failed else .fallback),
        (site.copyVerbatim file work).2) := by
  simp only [copyInstead, bind, StateT.bind]
  rcases site.copyVerbatim file work with ⟨outcome, after⟩
  cases outcome <;> rfl

/-! ## Building a page -/

/-- Computations that change no file. -/
def Reads {α : Type} (action : ExceptT BuildError BuildM α) : Prop := ∀ work, (action work).2.fs = work.fs

theorem reads_pure {α : Type} (value : α) : Reads (pure value) := fun _ => rfl

theorem reads_throw {α : Type} (error : BuildError) : Reads (throw error : ExceptT BuildError BuildM α) :=
  fun _ => rfl

theorem build_bind_apply {α β : Type} (action : ExceptT BuildError BuildM α)
    (next : α → ExceptT BuildError BuildM β) (work : Workspace) :
    (action >>= next) work =
      match action work with
      | (.ok value, after) => next value after
      | (.error error, after) => (.error error, after) := by
  change ExceptT.bindCont next (action work).1 (action work).2 = _
  rcases action work with ⟨_ | _, after⟩ <;> rfl

theorem Reads.bind {α β : Type} {action : ExceptT BuildError BuildM α}
    {next : α → ExceptT BuildError BuildM β} (first : Reads action) (rest : ∀ value, Reads (next value)) :
    Reads (action >>= next) := by
  intro work
  have same := first work
  rw [build_bind_apply]
  generalize action work = outcome at same ⊢
  obtain ⟨error | value, after⟩ := outcome
  · exact same
  · exact (rest value after).trans same

theorem reads_get_bind {α : Type} {next : Workspace → ExceptT BuildError BuildM α}
    (rest : ∀ work, Reads (next work)) : Reads (get >>= next) :=
  fun work => rest work work

theorem reads_withTemplates (action : Template.EvalM Unit) :
    Reads (liftM (withTemplates action) : ExceptT BuildError BuildM _) := by
  intro work
  rfl

theorem reads_evalBody (site : Site) (page : Page) (bindings : Json.Fields) (body : Bytes) :
    Reads (site.evalBody page bindings body) := by
  unfold evalBody
  split
  · exact reads_throw _
  · refine reads_get_bind fun work => ?_
    refine (reads_withTemplates _).bind fun result => ?_
    split
    · exact reads_throw _
    · exact reads_pure _

theorem reads_pageContent (site : Site) (page : Page) (bindings : Json.Fields) (body : Bytes) :
    Reads (site.pageContent page bindings body) := by
  unfold pageContent
  split
  · exact reads_pure _
  · split
    · exact reads_evalBody site page bindings body
    · exact reads_pure _

theorem reads_wrap (site : Site) (layout : String) (bindings : Json.Fields) (content : Bytes) :
    Reads (site.wrap layout bindings content) := by
  unfold wrap
  refine reads_get_bind fun work => ?_
  refine (reads_withTemplates _).bind fun result => ?_
  split
  · exact reads_throw _
  · exact reads_pure _

theorem reads_pageOutput (site : Site) (page : Page) (bindings : Json.Fields) :
    Reads (site.pageOutput page bindings) := by
  unfold pageOutput
  refine reads_get_bind fun work => ?_
  split
  · exact reads_throw _
  · refine (reads_pageContent site page bindings _).bind fun content => ?_
    split
    · exact reads_pure _
    · exact reads_wrap site _ bindings content

theorem buildPage_apply (site : Site) (page : Page) (bindings : Json.Fields) (work : Workspace) :
    site.buildPage page bindings work =
      match site.pageOutput page bindings work with
      | (.error error, after) => (.error error, after)
      | (.ok bytes, after) =>
        match FileSystem.writeFile (site.outputDirectory.join page.outputFile) bytes after.fs with
        | (.error error, fs) =>
          (.error (.io (site.outputDirectory.join page.outputFile) error), { after with fs })
        | (.ok _, fs) => (.ok (), { after with fs }) := by
  unfold buildPage
  rw [build_bind_apply]
  obtain ⟨error | bytes, after⟩ := site.pageOutput page bindings work
  · rfl
  · dsimp only
    rw [withFiles_bind_apply]
    obtain ⟨_ | _, fs⟩ :=
      FileSystem.writeFile (site.outputDirectory.join page.outputFile) bytes after.fs <;> rfl

theorem renderPage_apply (site : Site) (page : Page) (bindings : Json.Fields) (work : Workspace) :
    site.renderPage page bindings work =
      match site.buildPage page bindings work with
      | (.error error, after) =>
        site.copyInstead page.sourceFile
          { after with log := after.log ++ [.pageFailed (site.within page.sourceFile) error] }
      | (.ok _, after) => (.written, after) := by
  cases built : site.buildPage page bindings work with
  | mk result after =>
      cases result with
      | error error => exact renderPage_of_error built
      | ok done =>
          simp only [renderPage, bind, StateT.bind, ExceptT.run, built]
          rfl

section Changes

open FileSystem (Within)

variable {ready : FileSystem → Prop} {change : FileSystem → FileSystem → Prop} {file : Path} {page : Page}
  (composes : Composes ready change) (start : ready work.fs)

include composes start

theorem change_copyVerbatim (copied : Within ready change (FileSystem.copyFile file (site.placeOf file))) :
    change work.fs (site.copyVerbatim file work).2.fs := by
  have changed := copied work.fs start
  rw [copyVerbatim_apply]
  cases work.fs.isStale file (site.placeOf file) with
  | error error => exact composes.refl work.fs
  | ok stale =>
      cases stale with
      | false => exact composes.refl work.fs
      | true =>
          dsimp only
          generalize FileSystem.copyFile file (site.placeOf file) work.fs = outcome at changed ⊢
          obtain ⟨error | size, fs⟩ := outcome
          · exact changed
          · exact changed

theorem change_copyInstead (copied : Within ready change (FileSystem.copyFile file (site.placeOf file))) :
    change work.fs (site.copyInstead file work).2.fs := by
  rw [copyInstead_eq]
  exact change_copyVerbatim composes start copied

/-- Building a page changes what writing its output file changes, whether it succeeds or not. -/
theorem change_buildPage (bindings : Json.Fields) (wrote : ∀ bytes, Within ready change
      (FileSystem.writeFile (site.outputDirectory.join page.outputFile) bytes)) :
    change work.fs (site.buildPage page bindings work).2.fs := by
  have same := reads_pageOutput site page bindings work
  rw [buildPage_apply]
  generalize site.pageOutput page bindings work = outcome at same ⊢
  obtain ⟨error | bytes, after⟩ := outcome <;> dsimp only at same ⊢
  · rw [same]
    exact composes.refl work.fs
  · rw [same]
    have changed := wrote bytes work.fs start
    generalize FileSystem.writeFile _ bytes work.fs = result at changed ⊢
    obtain ⟨error | done, fs⟩ := result
    · exact changed
    · exact changed

theorem change_renderPage (bindings : Json.Fields)
    (wrote : ∀ bytes, Within ready change
      (FileSystem.writeFile (site.outputDirectory.join page.outputFile) bytes))
    (copied : Within ready change (FileSystem.copyFile page.sourceFile (site.placeOf page.sourceFile))) :
    change work.fs (site.renderPage page bindings work).2.fs := by
  have built := change_buildPage composes start bindings wrote
  rw [renderPage_apply]
  generalize site.buildPage page bindings work = outcome at built ⊢
  obtain ⟨error | done, after⟩ := outcome
  · exact composes.trans built (change_copyInstead composes (composes.ready start built) copied)
  · exact built

end Changes

/-- Building a page changes its output file, whether it succeeds or not. -/
theorem alters_buildPage {page : Page} {location : Location} (bindings : Json.Fields)
    (place : site.outputDirectory.join page.outputFile = Location.path location) (plain : Plain location)
    (some_name : location ≠ []) (ready : Ready true location work.fs) :
    Alters {location} ∅ work.fs (site.buildPage page bindings work).2.fs := by
  refine change_buildPage (FileSystem.composes_alters (by simp)) ready bindings fun bytes => ?_
  rw [place]
  exact FileSystem.within_writeFile plain some_name bytes

/-- A page is written, or it is copied after an attempt at building it. -/
theorem renderPage_cases {page : Page} {location : Location} (bindings : Json.Fields)
    (place : site.outputDirectory.join page.outputFile = Location.path location) (plain : Plain location)
    (some_name : location ≠ []) (ready : Ready true location work.fs) :
    ∃ mid, Alters {location} ∅ work.fs mid.fs ∧
      (site.renderPage page bindings work = (.written, mid) ∨
        site.renderPage page bindings work = site.copyInstead page.sourceFile mid) := by
  have alters := alters_buildPage bindings place plain some_name ready
  rw [renderPage_apply]
  generalize site.buildPage page bindings work = outcome at alters ⊢
  obtain ⟨error | done, after⟩ := outcome
  · exact ⟨{ after with log := after.log ++ [.pageFailed (site.within page.sourceFile) error] }, alters,
      .inr rfl⟩
  · exact ⟨after, alters, .inl rfl⟩

/-! ## Recreating a link -/

theorem recreateLink_apply (site : Site) (link : Path) (work : Workspace) :
    site.recreateLink link work =
      match FileSystem.copyLink link (site.placeOf link) work.fs with
      | (.ok _, fs) => (.linked, { work with fs })
      | (.error error, fs) =>
        (.failed, { work with fs, log := work.log ++ [.linkFailed (site.within link) error] }) := by
  rw [placeOf]
  have run : (FileSystem.copyLink link (site.outputDirectory.join (site.within link))).run.run work.fs =
    FileSystem.copyLink link (site.outputDirectory.join (site.within link)) work.fs := rfl
  simp only [recreateLink, bind, StateT.bind, withFiles, run]
  rcases FileSystem.copyLink link (site.outputDirectory.join (site.within link)) work.fs with
    ⟨_ | _, fs⟩ <;> rfl

theorem change_recreateLink {ready : FileSystem → Prop} {change : FileSystem → FileSystem → Prop} {link : Path}
    (start : ready work.fs)
    (relinked : FileSystem.Within ready change (FileSystem.copyLink link (site.placeOf link))) :
    change work.fs (site.recreateLink link work).2.fs := by
  have changed := relinked work.fs start
  rw [recreateLink_apply]
  generalize FileSystem.copyLink link (site.placeOf link) work.fs = outcome at changed ⊢
  obtain ⟨error | target, fs⟩ := outcome
  · exact changed
  · exact changed

theorem alters_recreateLink {link : Path} {location : Location}
    (place : site.placeOf link = Location.path location) (plain : Plain location)
    (some_name : location ≠ [])
    (ready : Ready false location work.fs) :
    Alters ∅ {location} work.fs (site.recreateLink link work).2.fs :=
  change_recreateLink ready (place ▸ FileSystem.relinks_copyLink plain some_name link)

/-! ## Runs -/

section Runs

variable {α : Type} {step : α → BuildM Outcome} {items : List α} {before after : FileSystem}
  {outcomes : List Outcome}

/-- A step for each of several things, one after the other: the files before and after, and what became of
each thing. -/
inductive Run (step : α → BuildM Outcome) : List α → FileSystem → List Outcome → FileSystem → Prop
  | nil (fs : FileSystem) : Run step [] fs [] fs
  | cons {item : α} {rest : List α} {outcomes : List Outcome} {after : FileSystem} (work : Workspace)
      (later : Run step rest (step item work).2.fs outcomes after) :
      Run step (item :: rest) work.fs ((step item work).1 :: outcomes) after

theorem forEach_nil (step : α → BuildM Outcome) (work : Workspace) : forEach step [] work = ([], work) :=
  rfl

theorem forEach_cons {item : α} {work next : Workspace} {outcome : Outcome}
    (done : step item work = (outcome, next)) (rest : List α) :
    forEach step (item :: rest) work =
      (outcome :: (forEach step rest next).1, (forEach step rest next).2) := by
  simp only [forEach, bind, StateT.bind, done]
  rfl

theorem run_forEach (step : α → BuildM Outcome) (items : List α) (work : Workspace) :
    Run step items work.fs (forEach step items work).1 (forEach step items work).2.fs := by
  induction items generalizing work with
  | nil => exact .nil work.fs
  | cons item rest ih => exact .cons work (ih (step item work).2)

theorem Run.append {front rest : List α} (run : Run step (front ++ rest) before outcomes after) :
    ∃ mid first second, outcomes = first ++ second ∧ Run step front before first mid ∧
      Run step rest mid second after := by
  induction front generalizing before outcomes with
  | nil => exact ⟨before, [], outcomes, rfl, .nil before, run⟩
  | cons item front ih =>
      cases run with
      | cons work later =>
          obtain ⟨mid, first, second, rfl, run, run'⟩ := ih later
          exact ⟨mid, _ :: first, second, rfl, .cons work run, run'⟩

/-- What each step changes, all steps change. -/
theorem Run.within {ready : FileSystem → Prop} {change : FileSystem → FileSystem → Prop}
    {allowed : Outcome → Prop} (run : Run step items before outcomes after)
    (composes : Composes ready change)
    (each : ∀ item ∈ items, ∀ work, ready work.fs → allowed (step item work).1 →
      change work.fs (step item work).2.fs)
    (all : ∀ outcome ∈ outcomes, allowed outcome) (start : ready before) : change before after := by
  induction run with
  | nil fs => exact composes.refl fs
  | @cons item rest outcomes after work later ih =>
      have first := each item (by simp) work start (all _ (by simp))
      refine composes.trans first
        (ih (fun item member => each item (by simp [member])) (fun outcome member =>
        all outcome (by simp [member])) (composes.ready start first))

end Runs

end StaticSite.Site
