import StaticSite.Proofs.Site.Effects
import StaticSite.Proofs.Site.Stages

/-!
The order of pages. Pages whose output files and copies have places of their own can be built in any order:
each of them ends as it would alone, and together they leave the same files and the same cache.
-/

namespace StaticSite

namespace Path

/-- Neither of two paths is the other one or leads through it. -/
def Apart (p q : Path) : Prop := ¬p.components <+: q.components ∧ ¬q.components <+: p.components

theorem Apart.places {names others : List String} (apart : (ofNames names).Apart (ofNames others))
    (proper : Location.Plain names) (proper' : Location.Plain others) (output : Location) :
    Location.Apart (output ++ names) (output ++ others) := by
  rw [Apart, components_ofNames proper, components_ofNames proper'] at apart
  rw [Location.Apart, List.prefix_append_right_inj, List.prefix_append_right_inj]
  exact ⟨fun inside => apart.1 (inside.map _), fun inside => apart.2 (inside.map _)⟩

end Path

namespace Site

open Json (Fields)
open FileSystem (Tidy)
open Location (Plain)
open Path (ofNames)
open Template (Filled)

variable {site : Site} {source path output : Location} {files : FileSystem} {scan : Scan}

/-! ## Pages in any order -/

/-- Where a page may end up below the output directory: its output file, and a copy of its source. -/
def targets (site : Site) (page : Page) : List Path := [page.outputFile, site.within page.sourceFile]

instance : Inhabited Effect := ⟨{ outcome := .failed }⟩

/-- A page has an effect at its targets. -/
theorem Rooted.exists_does (rooted : Rooted site source path) {work : Workspace}
    (ground : work.fs.Ground path output) (grounded : work.cache.Grounded)
    (templates : site.templateDirectory.isAbsolute) {page : Page} {bindings : Fields} {copy below : List String}
    (some_copy : copy ≠ []) (plain_copy : Plain copy) (some_name : below ≠ []) (plain : Plain below)
    (sourceFile : page.sourceFile = Location.path (source ++ copy))
    (outputFile : page.outputFile = ofNames below)
    (exists_source : ∃ place content time,
      work.fs.find true page.sourceFile = .ok (place, .file content time) ∧ ¬output <+: place)
    (asked : ∀ asked, site.Asks work page bindings asked →
      work.fs.KeepsOff output (asked.absolute work.fs.here)) :
    ∃ effect,
      Does work.fs work path output [output ++ below, output ++ copy] (site.renderPage page bindings) effect := by
  obtain ⟨origin, content, time, finds, outside⟩ := exists_source
  have place : site.placeOf page.sourceFile = Location.path (path ++ copy) := by
    rw [sourceFile, rooted.placeOf_path some_copy plain_copy]
  have target : site.outputDirectory.join page.outputFile = Location.path (path ++ below) := by
    rw [outputFile, rooted.join_ofNames some_name plain]
  have absolute : page.sourceFile.isAbsolute := by
    rw [sourceFile]
    exact Path.isAbsolute_location _
  have rendering : Rendering site work.fs work path output page bindings below copy content time origin :=
    ⟨⟨place, some_copy, plain_copy, ground.clear _, finds, outside⟩, target, some_name, plain, ground.clear _,
      ⟨rfl, fun _ _ => rfl⟩, asked⟩
  obtain ⟨loaded, -, again⟩ := @repeats_pageOutput site work page bindings grounded absolute
    (FileSystem.names_ne_nil absolute finds) templates
  classical
  exact ⟨_, rendering.does_renderPage ground.toFooting decide_eq_true_iff decide_eq_true_iff again⟩

theorem summary_eq_of_perm {outcomes others : List Outcome} (perm : outcomes.Perm others) (unvisited : Nat) :
    Summary.ofOutcomes outcomes unvisited = Summary.ofOutcomes others unvisited := by
  simp only [Summary.ofOutcomes, perm.count_eq]

/-- What steps have put and loaded does not depend on their order. -/
theorem same_of_perm {α : Type} {step : α → BuildM Outcome} {told : α → Step} {items order : List α}
    {work : Workspace} (ground : work.fs.Ground path output)
    (does : ∀ item ∈ items, Does work.fs work path output (told item).places (step item) (told item).effect)
    (apart : (items.map told).Pairwise Step.Apart) (perm : order.Perm items) :
    ((forEach step items work).1 = items.map (fun item => (told item).effect.outcome) ∧
      (forEach step order work).1 = order.map (fun item => (told item).effect.outcome)) ∧
    (∀ place, (forEach step items work).2.fs.get? place = (forEach step order work).2.fs.get? place) ∧
    ∀ path, Option.Rel Template.Compiled.Twins ((forEach step items work).2.cache.get? path)
      ((forEach step order work).2.cache.get? path) := by
  have start : After work.fs work path output [] [] work := ⟨by simp, ground.toFooting.nil, .nil⟩
  have turned : (order.map told).Pairwise Step.Apart :=
    ((perm.map told).pairwise_iff fun away => Std.Symm.symm _ _ away).mpr apart
  obtain ⟨outcomes, first⟩ := start.forEach does apart
  obtain ⟨outcomes', second⟩ := start.forEach (fun item member => does item (perm.mem_iff.mp member)) turned
  refine ⟨⟨by rw [outcomes, Step.outcomes, List.map_map]; rfl,
    by rw [outcomes', Step.outcomes, List.map_map]; rfl⟩, ?_, ?_⟩
  · refine first.moment.built.toGrown.get?_eq second.moment.built.toGrown fun put => ?_
    simp [Step.mem_allPuts, perm.mem_iff]
  · refine first.moment.filled.rel second.moment.filled fun key => ?_
    simp [Step.allLoaded, perm.mem_iff]

/-- Pages whose targets are apart can be built in any order, if neither their sources nor the files that they
are built from lie below the output directory or wait for it to be made. -/
theorem pages_in_any_order {config : Config} {source? output? : Option Path}
    {jobs order : List (Page × Fields)} (tidy : files.Tidy)
    (prepared : Site.prepare files config source? output? = .ok site) (scanned : site.scan files = .ok scan)
    (listed : jobs = site.jobs (.ofPages (site.readPages files scan.pages).1)) (work : Workspace)
    (orderly : work.fs.Orderly) (grounded : work.cache.Grounded)
    (lies : work.fs.Lies site.outputDirectory.names output)
    (linkless : ∀ place target, output <+: place → place ≠ output → work.fs.get? place ≠ some (.link target))
    (apart : jobs.Pairwise fun job other => ∀ target ∈ site.targets job.1,
      ∀ elsewhere ∈ site.targets other.1, target.Apart elsewhere)
    (sources : ∀ job ∈ jobs, ∃ place content time,
      work.fs.find true job.1.sourceFile = .ok (place, .file content time) ∧ ¬output <+: place)
    (asked : ∀ job ∈ jobs, ∀ asked, site.Asks work job.1 job.2 asked →
      work.fs.KeepsOff output (asked.absolute work.fs.here))
    (perm : order.Perm jobs) :
    let run := forEach (fun job => site.renderPage job.1 job.2) jobs work
    let other := forEach (fun job => site.renderPage job.1 job.2) order work
    (∃ outcome : Page × Fields → Outcome, run.1 = jobs.map outcome ∧ other.1 = order.map outcome) ∧
      (∀ unvisited, Summary.ofOutcomes run.1 unvisited = Summary.ofOutcomes other.1 unvisited) ∧
      (∀ place, run.2.fs.get? place = other.2.fs.get? place) ∧
      ∀ path, Option.Rel Template.Compiled.Twins (run.2.cache.get? path) (other.2.cache.get? path) := by
  obtain ⟨source, path, rooted, known, templates⟩ := exists_rooted_of_prepare tidy prepared
  rw [rooted.names_outputDirectory] at lies
  have ground := lies.ground orderly rooted.plain_output linkless
  have each (job : Page × Fields) : ∃ below copy effect, job ∈ jobs →
      Plain below ∧ Plain copy ∧ job.1.outputFile = ofNames below ∧
        site.within job.1.sourceFile = ofNames copy ∧
        Does work.fs work path output [output ++ below, output ++ copy] (site.renderPage job.1 job.2) effect := by
    by_cases member : job ∈ jobs
    · obtain ⟨copy, below, some_copy, plain_copy, some_name, plain, sourceFile, outputFile⟩ :=
        rooted.exists_names tidy known scanned (page_mem_of_mem_jobs (listed ▸ member))
      obtain ⟨effect, does⟩ := rooted.exists_does ground grounded templates some_copy plain_copy some_name
        plain sourceFile outputFile (sources job member) (asked job member)
      exact ⟨below, copy, effect, fun _ => ⟨plain, plain_copy, outputFile,
        by rw [sourceFile, rooted.within_path some_copy plain_copy], does⟩⟩
    · exact ⟨[], [], default, fun among => absurd among member⟩
  choose below copy effect each using each
  let told (job : Page × Fields) : Step := ⟨[output ++ below job, output ++ copy job], effect job⟩
  have places_apart : (jobs.map told).Pairwise Step.Apart := by
    refine List.pairwise_map.mpr (apart.imp_of_mem fun {job other} member member' away => ?_)
    obtain ⟨plain, plain_copy, outputFile, within, -⟩ := each job member
    obtain ⟨plain', plain_copy', outputFile', within', -⟩ := each other member'
    simp only [targets, outputFile, within, outputFile', within', List.forall_mem_cons] at away
    obtain ⟨⟨first, second, -⟩, ⟨third, fourth, -⟩, -⟩ := away
    simp only [Step.Apart, told, List.forall_mem_cons]
    exact ⟨⟨first.places plain plain' output, second.places plain plain_copy' output, by simp⟩,
      ⟨third.places plain_copy plain' output, fourth.places plain_copy plain_copy' output, by simp⟩, by simp⟩
  obtain ⟨⟨outcomes, outcomes'⟩, same⟩ := same_of_perm ground (fun job member => (each job member).2.2.2.2)
    places_apart perm
  refine ⟨⟨_, outcomes, outcomes'⟩, fun unvisited => ?_, same⟩
  rw [outcomes, outcomes']
  exact summary_eq_of_perm (perm.map _).symm unvisited

/-! ## Two pages of a small site -/

section Sample

/-- The default layout is given by a way through the output directory. -/
def roundabout : Config := { defaultLayout := "../_build/../_templates/default" }

/-- Two pages, one of them without a header, and no layout. -/
def barePages : FileSystem where
  entries :=
    [(["s"], .directory 0), (["s", "a.html"], .file (Text.Utf8.encode "---\n---\nx") 1),
      (["s", "b.html"], .file (Text.Utf8.encode "y") 1)]
  now := 9
  workingDirectory := []

def roundaboutSite : Site where
  config := roundabout
  sourceDirectory := ⟨"/s"⟩
  outputDirectory := ⟨"/s/_build"⟩
  templateDirectory := ⟨"/s/_templates"⟩

theorem tidy_barePages : barePages.Tidy := by
  refine FileSystem.tidy_of_entries ?_ (by decide)
  simp only [barePages, List.forall_mem_cons]
  exact ⟨⟨0, rfl⟩, ⟨0, rfl⟩, ⟨0, rfl⟩, by simp⟩

/-- The site of the source directory `/s`. -/
def smallSite (config : Config) : Site where
  config
  sourceDirectory := ⟨"/s"⟩
  outputDirectory := ⟨"/s/_build"⟩
  templateDirectory := ⟨"/s/_templates"⟩

theorem rooted_smallSite (config : Config) : Rooted (smallSite config) ["s"] ["s", "_build"] :=
  ⟨rfl, rfl, by decide, by decide⟩

theorem prepare_smallSite {fs : FileSystem} {config : Config} (output : config.outputDirectory = ⟨"_build"⟩)
    (templates : config.templateDirectory = ⟨"_templates"⟩) (directory : fs.isDirectory ⟨"/s"⟩ = true)
    (location : fs.canonicalize ⟨"/s"⟩ = .ok ["s"]) :
    Site.prepare fs config (some ⟨"/s"⟩) none = .ok (smallSite config) := by
  have build : (Location.path ["s"]).resolve ⟨"_build"⟩ = ⟨"/s/_build"⟩ := rfl
  have layouts : (Location.path ["s"]).resolve ⟨"_templates"⟩ = ⟨"/s/_templates"⟩ := rfl
  have source : Location.path ["s"] = ⟨"/s"⟩ := rfl
  simp only [Site.prepare, Option.getD_some, Option.getD_none, directory, location, output, templates]
  exact congrArg Except.ok (by rw [build, layouts, source]; rfl)

theorem prepare_bare {files : FileSystem} (directory : files.isDirectory ⟨"/s"⟩ = true)
    (location : files.canonicalize ⟨"/s"⟩ = .ok ["s"]) :
    Site.prepare files roundabout (some ⟨"/s"⟩) none = .ok roundaboutSite :=
  prepare_smallSite rfl rfl directory location

theorem prepare_barePages : Site.prepare barePages roundabout (some ⟨"/s"⟩) none = .ok roundaboutSite :=
  prepare_bare rfl rfl

theorem rooted_roundaboutSite : Rooted roundaboutSite ["s"] ["s", "_build"] := rooted_smallSite roundabout

theorem names_barePages : barePages.names ["s"] = ["a.html", "b.html"] :=
  FileSystem.names_of_ordered rfl (by decide)

theorem ofFindings_bare {config : Config} (standard : config.pageExtensions = PageExtensions.standard) :
    Scan.ofFindings config [.file (Location.path ["s", "a.html"]), .file (Location.path ["s", "b.html"])] =
      ⟨[(⟨"/s/a.html"⟩, ".html", .markup), (⟨"/s/b.html"⟩, ".html", .markup)], [], [], []⟩ := by
  have page (name : String) (proper : Path.Proper name)
      (cut : Path.cutExtension? name.toList.reverse = some ("html".toList.reverse, ['a']) ∨
        Path.cutExtension? name.toList.reverse = some ("html".toList.reverse, ['b'])) :
      config.pageFormat? (Location.path ["s", name]) = some (".html", .markup) := by
    have told := pageFormat?_path proper config ["s"]
    rw [List.singleton_append, standard] at told
    rw [told]
    obtain cut | cut := cut <;> rw [cut] <;> decide
  simp only [Scan.ofFindings, List.filterMap_cons, List.filterMap_nil, List.filter_cons, List.filter_nil,
    page "a.html" (by decide) (.inl (by decide)), page "b.html" (by decide) (.inr (by decide))]
  rfl

theorem scan_barePages : roundaboutSite.scan barePages =
    .ok ⟨[(⟨"/s/a.html"⟩, ".html", .markup), (⟨"/s/b.html"⟩, ".html", .markup)], [], [], []⟩ := by
  have shown : roundaboutSite.shown barePages ["s"] ["a.html", "b.html"] =
      [.file (Location.path ["s", "a.html"]), .file (Location.path ["s", "b.html"])] := by decide
  rw [rooted_roundaboutSite.scan_flat tidy_barePages ⟨0, rfl⟩ rfl names_barePages (by decide) (by decide), shown,
    ofFindings_bare rfl]

/-- A page of the two. -/
def barePage (name title : String) (meta? : Option Fields) (contentOffset : Nat) : Page where
  title
  sourceFile := ⟨"/s/" ++ name⟩
  sourceExtension := ".html"
  format := .markup
  outputFile := ⟨name⟩
  url := "/" ++ name
  meta?
  contentOffset

theorem read_barePage {files : FileSystem} {config : Config} {name title stem : String} {content : Bytes}
    {meta? : Option Fields} {offset : Nat} (proper : Path.Proper name)
    (path : Location.path ["s", name] = ⟨"/s/" ++ name⟩)
    (known : Page.content files ⟨"/s/" ++ name⟩ = .ok content)
    (header : Page.readMeta content = .ok (meta?, offset)) (base : config.baseUrl = "/")
    (place : Path.withExtension ⟨name⟩ "" = ⟨stem⟩) (target : Page.target "/" ⟨stem⟩ = (⟨name⟩, "/" ++ name))
    (titled : (meta?.bind Page.titleFromMeta?).getD
      (Page.titleFromFile ⟨"/s"⟩ ⟨"/s/" ++ name⟩ ((Path.fileName? ⟨stem⟩).getD "")) = title) :
    Page.read files config ⟨"/s"⟩ ⟨"/s/" ++ name⟩ ".html" .markup = .ok (barePage name title meta? offset) := by
  have within : (⟨"/s/" ++ name⟩ : Path).relativeTo ⟨"/s"⟩ = ⟨name⟩ := by
    have within := rooted_roundaboutSite.within_path (List.cons_ne_nil name []) (by simpa [Plain] using proper)
    rwa [Path.ofNames, String.intercalate_singleton, List.singleton_append, path] at within
  simp only [Page.read, known, bind, Except.bind, Page.ofContent, header, within, place, base, target, titled]
  rfl

/-- Whether a header with nothing in it ends at a place. -/
def emptyUntil (offset : Nat) : Except Page.Error (Option Fields × Nat) → Bool
  | .ok (some [], found) => found == offset
  | _ => false

theorem eq_of_emptyUntil {offset : Nat} {result : Except Page.Error (Option Fields × Nat)}
    (ends : emptyUntil offset result = true) : result = .ok (some [], offset) := by
  unfold emptyUntil at ends
  split at ends
  · rw [beq_iff_eq.mp ends]
  · cases ends

theorem readMeta_empty : Page.readMeta (Text.Utf8.encode "---\n---\nx") = .ok (some [], 8) :=
  eq_of_emptyUntil (by decide +kernel)

theorem readMeta_none : Page.readMeta (Text.Utf8.encode "y") = .ok (none, 0) := rfl

def firstPage : Page := barePage "a.html" "A" (some []) 8

def secondPage : Page := barePage "b.html" "B" none 0

theorem readPages_pair {files : FileSystem} {site : Site} {content content' : Bytes} {meta? meta'? : Option Fields}
    {offset offset' : Nat} (source : site.sourceDirectory = ⟨"/s"⟩) (base : site.config.baseUrl = "/")
    (known : Page.content files ⟨"/s/a.html"⟩ = .ok content)
    (known' : Page.content files ⟨"/s/b.html"⟩ = .ok content')
    (header : Page.readMeta content = .ok (meta?, offset)) (header' : Page.readMeta content' = .ok (meta'?, offset'))
    (untitled : meta?.bind Page.titleFromMeta? = none) (untitled' : meta'?.bind Page.titleFromMeta? = none) :
    site.readPages files [(⟨"/s/a.html"⟩, ".html", .markup), (⟨"/s/b.html"⟩, ".html", .markup)] =
      ([barePage "a.html" "A" meta? offset, barePage "b.html" "B" meta'? offset'], []) := by
  have facts : ∀ file ∈ [("a.html", "A", "a"), ("b.html", "B", "b")],
      Path.Proper file.1 ∧ Location.path ["s", file.1] = ⟨"/s/" ++ file.1⟩ ∧
        Path.withExtension ⟨file.1⟩ "" = ⟨file.2.2⟩ ∧ Page.target "/" ⟨file.2.2⟩ = (⟨file.1⟩, "/" ++ file.1) ∧
        Page.titleFromFile ⟨"/s"⟩ ⟨"/s/" ++ file.1⟩ ((Path.fileName? ⟨file.2.2⟩).getD "") = file.2.1 := by
    decide +kernel
  obtain ⟨proper, path, place, target, titled⟩ := facts _ List.mem_cons_self
  obtain ⟨proper', path', place', target', titled'⟩ := facts _ (List.mem_cons_of_mem _ List.mem_cons_self)
  have first : Page.read files site.config site.sourceDirectory ⟨"/s/a.html"⟩ ".html" .markup =
      .ok (barePage "a.html" "A" meta? offset) := by
    rw [source]
    exact @read_barePage _ _ "a.html" "A" "a" _ _ _ proper path known header base place target
      (by rw [untitled, Option.getD_none, titled])
  have second : Page.read files site.config site.sourceDirectory ⟨"/s/b.html"⟩ ".html" .markup =
      .ok (barePage "b.html" "B" meta'? offset') := by
    rw [source]
    exact @read_barePage _ _ "b.html" "B" "b" _ _ _ proper' path' known' header' base place' target'
      (by rw [untitled', Option.getD_none, titled'])
  simp only [Site.readPages, List.map_cons, List.map_nil, first, second]
  rfl

theorem readPages_bare {files : FileSystem} {site : Site} (source : site.sourceDirectory = ⟨"/s"⟩)
    (base : site.config.baseUrl = "/")
    (first : Page.content files ⟨"/s/a.html"⟩ = Page.content barePages ⟨"/s/a.html"⟩)
    (second : Page.content files ⟨"/s/b.html"⟩ = Page.content barePages ⟨"/s/b.html"⟩) :
    site.readPages files [(⟨"/s/a.html"⟩, ".html", .markup), (⟨"/s/b.html"⟩, ".html", .markup)] =
      ([firstPage, secondPage], []) :=
  readPages_pair source base (first.trans rfl) (second.trans rfl) readMeta_empty readMeta_none rfl rfl

/-- Pages without any links to each other. -/
def unlinked (pages : List Page) : Links where
  pages := pages.map fun page => { page, parent? := none, children := [] }
  home? := none
  conflicts := []

theorem ofPages_pair {first second : Page} (sorted : first.url ≤ second.url)
    (parents : [first, second].map (Page.parentIn? [first, second]) = [none, none])
    (conflicts : Page.conflicts [first, second] = []) (home : first.isHome = false ∧ second.isHome = false) :
    Links.ofPages [first, second] = unlinked [first, second] := by
  have sorted : Page.sortByUrl [first, second] = [first, second] :=
    List.mergeSort_of_pairwise (by simpa using sorted)
  unfold Links.ofPages
  simp only [sorted, parents, conflicts]
  simp [List.zipIdx_cons, home, unlinked]

/-- The pages without any links to each other. -/
def bareLinks : Links where
  pages := [firstPage, secondPage].map fun page => { page, parent? := none, children := [] }
  home? := none
  conflicts := []

theorem ofPages_bare : Links.ofPages [firstPage, secondPage] = bareLinks :=
  ofPages_pair (by decide) (by decide +kernel) rfl (by decide)

theorem listed_bare : roundaboutSite.jobs bareLinks =
    roundaboutSite.jobs (.ofPages (roundaboutSite.readPages barePages
      [(⟨"/s/a.html"⟩, ".html", .markup), (⟨"/s/b.html"⟩, ".html", .markup)]).1) := by
  rw [readPages_bare rfl rfl rfl rfl, ofPages_bare]

/-- The layout of the first page. -/
def roundaboutLayout : Path := ⟨"/s/_templates/../_build/../_templates/default.html"⟩

theorem exists_load_eq_error {fs : FileSystem} {cache : Template.Cache} {path : Path} (tidy : path.Tidy)
    (uncached : cache.get? path = none) {error : IoError}
    (missing : fs.readText (path.absolute fs.here) = .error error) (bindings : Fields) :
    ∃ error, Template.load fs cache path { bindings } = .error error := by
  rw [Template.load_tidy tidy rfl, uncached, Template.compileFile, missing]
  exact ⟨_, rfl⟩

theorem renderPage_ne_written {site : Site} {page : Page} {bindings : Fields} {work : Workspace}
    (fails : (site.buildPage page bindings work).1.toOption = none) :
    (site.renderPage page bindings work).1 ≠ .written := by
  rw [renderPage_apply]
  generalize site.buildPage page bindings work = outcome at fails ⊢
  obtain ⟨error | done, after⟩ := outcome
  · dsimp only
    rw [copyInstead_eq]
    split <;> simp
  · cases fails

theorem forEach_pair {α : Type} (step : α → BuildM Outcome) (first second : α) (work : Workspace) :
    (forEach step [first, second] work).1 =
      [(step first work).1, (step second (step first work).2).1] := rfl

theorem mem_jobs_bare {job : Page × Fields} (member : job ∈ roundaboutSite.jobs bareLinks) :
    job.1 = firstPage ∨ job.1 = secondPage := by
  have pages : (roundaboutSite.jobs bareLinks).map (·.1) = [firstPage, secondPage] := rfl
  have among := List.mem_map_of_mem (f := fun job => job.1) member
  rw [pages] at among
  simpa using among

/-- A page without code asks for what its layout asks for. -/
theorem Asks.of_codeless {page : Page} {bindings : Fields} {body : Bytes} {work : Workspace} {asked : Path}
    (asks : site.Asks work page bindings asked) (reads : page.readBody work.fs = .ok body)
    (format : page.format = .markup) (codeless : mayHoldCode body = false) :
    ∃ layout cache properties outcome, page.layout? site.config.defaultLayout = some layout ∧
      .load cache asked properties outcome ∈
        (Template.Course.ofFile work.fs site.shared site.includeDepth (site.layoutFile layout)
          { bindings := bindings.insert "content" (.string (Text.Utf8.decodeLossy body)) } work.cache).events := by
  cases asks with
  | body read _ code =>
      cases reads.symm.trans read
      rw [codeless] at code
      cases code
  | layout read evaluates named event =>
      cases reads.symm.trans read
      have content : site.pageContent page bindings body work = (.ok body, work) := by
        rw [pageContent, format]
        dsimp only
        rw [codeless]
        rfl
      cases content.symm.trans evaluates
      exact ⟨_, _, _, _, named, event⟩

/-- If the layout cannot be read, nothing else is asked for. -/
theorem asks_firstPage {run : Workspace} {bindings : Fields} {asked : Path}
    (asks : roundaboutSite.Asks run firstPage bindings asked) (cached : run.cache = {})
    (reads : run.fs.read firstPage.sourceFile = barePages.read firstPage.sourceFile) {error : IoError}
    (missing : run.fs.readText (roundaboutLayout.absolute run.fs.here) = .error error) :
    asked = roundaboutLayout := by
  have read : firstPage.readBody run.fs = .ok (Text.Utf8.encode "x") := by
    rw [Page.readBody, reads]
    rfl
  obtain ⟨name, cache, properties, outcome, named, event⟩ := asks.of_codeless read rfl rfl
  cases named
  have layout : roundaboutSite.layoutFile "../_build/../_templates/default" = roundaboutLayout := rfl
  have tidy : roundaboutLayout.Tidy := layout ▸ tidy_layoutFile rfl _
  rw [cached] at event
  change _ ∈ (Template.Course.ofFile run.fs _ (999 + 1)
    (roundaboutSite.layoutFile "../_build/../_templates/default") _ {}).events at event
  generalize bindings.insert _ _ = bindings at event
  obtain ⟨failure, failed⟩ := @exists_load_eq_error run.fs {} _ tidy rfl _ missing bindings
  rw [layout, Template.Course.ofFile, failed] at event
  cases List.mem_singleton.mp event
  rfl

theorem asks_bare {fs : FileSystem}
    (reads : ∀ page ∈ [firstPage, secondPage], fs.read page.sourceFile = barePages.read page.sourceFile)
    {error : IoError} (missing : fs.readText (roundaboutLayout.absolute fs.here) = .error error)
    {job : Page × Fields} (member : job ∈ roundaboutSite.jobs bareLinks) {asked : Path}
    (asks : roundaboutSite.Asks { fs } job.1 job.2 asked) : asked = roundaboutLayout := by
  obtain same | same := mem_jobs_bare member
  · rw [same] at asks
    exact asks_firstPage asks rfl (reads _ (by simp)) missing
  · rw [same] at asks
    have read : secondPage.readBody fs = .ok (Text.Utf8.encode "y") := by
      rw [Page.readBody, reads _ (by simp)]
      rfl
    obtain ⟨layout, -, -, -, named, -⟩ := asks.of_codeless read rfl rfl
    cases named

theorem targets_barePage (name title : String) (meta? : Option Fields) (offset : Nat)
    (proper : Path.Proper name) (path : Location.path ["s", name] = ⟨"/s/" ++ name⟩) :
    roundaboutSite.targets (barePage name title meta? offset) = [⟨name⟩, ⟨name⟩] := by
  have within := rooted_roundaboutSite.within_path (List.cons_ne_nil name []) (by simpa [Plain] using proper)
  rw [Path.ofNames, String.intercalate_singleton, List.singleton_append, path] at within
  rw [targets, barePage, within]

theorem apart_bare : (roundaboutSite.jobs bareLinks).Pairwise fun job other =>
    ∀ target ∈ roundaboutSite.targets job.1, ∀ elsewhere ∈ roundaboutSite.targets other.1,
      target.Apart elsewhere := by
  have pages : (roundaboutSite.jobs bareLinks).map (·.1) = [firstPage, secondPage] := rfl
  have first : roundaboutSite.targets firstPage = [⟨"a.html"⟩, ⟨"a.html"⟩] :=
    targets_barePage "a.html" "A" _ _ (by decide) rfl
  have second : roundaboutSite.targets secondPage = [⟨"b.html"⟩, ⟨"b.html"⟩] :=
    targets_barePage "b.html" "B" _ _ (by decide) rfl
  have away : Path.Apart ⟨"a.html"⟩ ⟨"b.html"⟩ := by
    unfold Path.Apart
    decide
  rw [← List.pairwise_map (f := fun job : Page × Fields => job.1)
    (R := fun page other => ∀ target ∈ roundaboutSite.targets page,
      ∀ elsewhere ∈ roundaboutSite.targets other, target.Apart elsewhere), pages]
  simp [first, second, away]

theorem unlinked_of_entries {fs : FileSystem} (solid : ∀ found ∈ fs.entries, ∀ target, found.2 ≠ .link target)
    (place : Location) (target : Path) : fs.get? place ≠ some (.link target) := by
  intro link
  by_cases root : place = []
  · rw [root, FileSystem.get?, if_pos rfl] at link
    cases link
  · exact solid _ (FileSystem.mem_entries_of_get? root link) target rfl

theorem lies_bare {fs : FileSystem} (known : fs.get? ["s"] = some (.directory 0))
    (walked : fs.walk true (Location.path ["s"]) = .ok ["s"])
    (absent : fs.isDirectory (Location.path ["s", "_build"]) = false) :
    fs.Lies roundaboutSite.outputDirectory.names ["s", "_build"] := by
  rw [rooted_roundaboutSite.names_outputDirectory]
  refine ⟨["s"], ["_build"], ["s"], rfl, rfl, walked, ⟨0, known⟩, ?_⟩
  rintro name behind ⟨⟩
  exact absent

theorem sources_bare {fs : FileSystem}
    (finds : ∀ page ∈ [firstPage, secondPage],
      fs.find true page.sourceFile = barePages.find true page.sourceFile) :
    ∀ job ∈ roundaboutSite.jobs bareLinks, ∃ place content time,
      fs.find true job.1.sourceFile = .ok (place, .file content time) ∧ ¬["s", "_build"] <+: place := by
  intro job member
  obtain same | same := mem_jobs_bare member
  · rw [same, finds _ (by simp)]
    exact ⟨["s", "a.html"], _, 1, rfl, by decide⟩
  · rw [same, finds _ (by simp)]
    exact ⟨["s", "b.html"], _, 1, rfl, by decide⟩

theorem find_roundaboutLayout :
    barePages.find true (roundaboutLayout.absolute barePages.here) = .error .notFound := rfl

theorem keepsOff_roundaboutLayout : barePages.KeepsOff ["s", "_build"] (roundaboutLayout.absolute barePages.here) where
  found place entry found := by
    rw [find_roundaboutLayout] at found
    cases found
  gap place gap := by
    have stops : barePages.gap? (roundaboutLayout.absolute barePages.here) = some ["s", "_templates"] := rfl
    rw [stops] at gap
    cases gap
    unfold Location.Apart
    decide

theorem asked_barePages {job : Page × Fields} (member : job ∈ roundaboutSite.jobs bareLinks) {asked : Path}
    (asks : roundaboutSite.Asks { fs := barePages } job.1 job.2 asked) :
    barePages.KeepsOff ["s", "_build"] (asked.absolute barePages.here) := by
  have missing : barePages.readText (roundaboutLayout.absolute barePages.here) = .error .notFound := rfl
  obtain rfl := asks_bare (fun _ _ => rfl) missing member asks
  exact keepsOff_roundaboutLayout

theorem pages_in_any_order_sample :
    let work : Workspace := { fs := barePages }
    let jobs := roundaboutSite.jobs bareLinks
    let run := forEach (fun job => roundaboutSite.renderPage job.1 job.2) jobs work
    let other := forEach (fun job => roundaboutSite.renderPage job.1 job.2) jobs.reverse work
    (∃ outcome : Page × Fields → Outcome, run.1 = jobs.map outcome ∧ other.1 = jobs.reverse.map outcome) ∧
      (∀ unvisited, Summary.ofOutcomes run.1 unvisited = Summary.ofOutcomes other.1 unvisited) ∧
      (∀ place, run.2.fs.get? place = other.2.fs.get? place) ∧
      ∀ path, Option.Rel Template.Compiled.Twins (run.2.cache.get? path) (other.2.cache.get? path) := by
  refine pages_in_any_order tidy_barePages prepare_barePages scan_barePages listed_bare { fs := barePages }
    tidy_barePages.orderly (fun path template cached => by cases cached)
    (lies_bare rfl rfl rfl)
    (fun place target _ _ => unlinked_of_entries (by simp [barePages]) place target) apart_bare
    (sources_bare fun _ _ => rfl) (fun job member asked asks => asked_barePages member asks) (List.reverse_perm _)

/-- The same pages, and a layout. -/
def dressedPages : FileSystem :=
  { barePages with entries := [(["s", "_templates", "default.html"], .file (Text.Utf8.encode "z") 1),
      (["s", "_templates"], .directory 0)] ++ barePages.entries }

theorem tidy_dressedPages : dressedPages.Tidy := by
  refine FileSystem.tidy_of_entries ?_ (by decide)
  simp only [dressedPages, barePages, List.cons_append, List.nil_append, List.forall_mem_cons]
  exact ⟨⟨0, rfl⟩, ⟨0, rfl⟩, ⟨0, rfl⟩, ⟨0, rfl⟩, ⟨0, rfl⟩, by simp⟩

theorem names_dressedPages : dressedPages.names ["s"] = ["_templates", "a.html", "b.html"] :=
  FileSystem.names_of_ordered rfl (by decide)

/-- Before the output directory is made, no path leads through it, and then the order of pages matters. -/
theorem order_matters_through_output :
    ¬ ∀ (files : FileSystem) (config : Config) (source? output? : Option Path) (site : Site) (scan : Scan)
        (jobs order : List (Page × Fields)) (work : Workspace) (output : Location),
      files.Tidy → Site.prepare files config source? output? = .ok site → site.scan files = .ok scan →
      jobs = site.jobs (.ofPages (site.readPages files scan.pages).1) → work.fs.Orderly → work.cache.Grounded →
      work.fs.Lies site.outputDirectory.names output →
      (∀ place target, output <+: place → place ≠ output → work.fs.get? place ≠ some (.link target)) →
      (jobs.Pairwise fun job other => ∀ target ∈ site.targets job.1,
        ∀ elsewhere ∈ site.targets other.1, target.Apart elsewhere) →
      (∀ job ∈ jobs, ∃ place content time,
        work.fs.find true job.1.sourceFile = .ok (place, .file content time) ∧ ¬output <+: place) →
      (∀ job ∈ jobs, ∀ asked, site.Asks work job.1 job.2 asked →
        ¬site.outputDirectory.components <+: asked.components ∧
          ∀ place entry, work.fs.find true (asked.absolute work.fs.here) = .ok (place, entry) →
            ¬output <+: place) →
      order.Perm jobs →
      ∀ unvisited,
        Summary.ofOutcomes (forEach (fun job => site.renderPage job.1 job.2) jobs work).1 unvisited =
          Summary.ofOutcomes (forEach (fun job => site.renderPage job.1 job.2) order work).1 unvisited := by
  intro same
  have reads : ∀ page ∈ [firstPage, secondPage],
      dressedPages.find true page.sourceFile = barePages.find true page.sourceFile := by decide
  have missing : dressedPages.readText (roundaboutLayout.absolute dressedPages.here) = .error .notFound := rfl
  have finds : dressedPages.find true (roundaboutLayout.absolute dressedPages.here) = .error .notFound := rfl
  have summary := same barePages roundabout _ _ roundaboutSite _ _ _ { fs := dressedPages } ["s", "_build"]
    tidy_barePages prepare_barePages scan_barePages listed_bare tidy_dressedPages.orderly
    (fun path template cached => by cases cached) (lies_bare rfl rfl rfl)
    (fun place target _ _ => unlinked_of_entries (by simp [dressedPages, barePages]) place target) apart_bare
    (sources_bare reads) (fun job member asked asks => ?_) (List.reverse_perm _) 0
  · have first : (forEach (fun job => roundaboutSite.renderPage job.1 job.2) (roundaboutSite.jobs bareLinks)
        { fs := dressedPages }).1.count .written ≤ 1 := by
      have fails : ∀ job ∈ (roundaboutSite.jobs bareLinks).head?,
          (roundaboutSite.buildPage job.1 job.2 { fs := dressedPages }).1.toOption = none := by decide
      obtain ⟨job, other, two⟩ : ∃ job other, roundaboutSite.jobs bareLinks = [job, other] := ⟨_, _, rfl⟩
      rw [two] at fails ⊢
      have unwritten := renderPage_ne_written (fails job rfl)
      rw [forEach_pair, List.count_cons_of_ne unwritten]
      exact List.count_le_length
    have second : (forEach (fun job => roundaboutSite.renderPage job.1 job.2)
        (roundaboutSite.jobs bareLinks).reverse { fs := dressedPages }).1.count .written = 2 := by
      decide +kernel
    have pages := congrArg Summary.pages summary
    simp only [Summary.ofOutcomes, second] at pages
    omega
  · obtain rfl :=
      asks_bare (fun page member => by simp only [FileSystem.read, reads page member]) missing member asks
    refine ⟨by decide, fun place entry found => ?_⟩
    rw [finds] at found
    cases found

end Sample

end Site

end StaticSite
