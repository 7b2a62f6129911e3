import StaticSite.Proofs.Site.Building

/-!
The stages of a build and what they change. Files are put at places below the output directory that no link
leads away from, and links last of all.
-/

namespace StaticSite.Site

open Path (Proper ofNames)
open Location (Plain)
open FileSystem (Alters Ready Composes Tidy)

variable {site : Site} {source output : Location} {names : List String} {scan : Scan}
  {base fs after : FileSystem} {outcomes : List Outcome} {content : Bytes} {time : Time}

/-! ## The parts of a build -/

/-- Files are copied, then pages that cannot be read, then pages are built, and at last links are
recreated. -/
inductive Course (site : Site) (scan : Scan) (base : FileSystem) : List Outcome → FileSystem → Prop
  | parts {copied fallen built after : FileSystem} {first second third fourth : List Outcome}
      (copies : Run site.copyVerbatim scan.files base first copied)
      (fallbacks : Run site.copyInstead ((site.readPages base scan.pages).2.map (·.1)) copied second fallen)
      (pages : Run (fun job => site.renderPage job.1 job.2)
        (site.jobs (.ofPages (site.readPages base scan.pages).1)) fallen third built)
      (links : Run site.recreateLink scan.links built fourth after) :
      Course site scan base (first ++ second ++ third ++ fourth) after

/-- Something is noted down. -/
def noting (work : Workspace) (notices : List Notice) : Workspace :=
  { work with log := work.log ++ notices }

@[simp] theorem fs_noting (work : Workspace) (notices : List Notice) : (noting work notices).fs = work.fs := rfl

@[simp] theorem cache_noting (work : Workspace) (notices : List Notice) :
    (noting work notices).cache = work.cache := rfl

theorem noteAll_apply (notices : List Notice) (work : Workspace) :
    noteAll notices work = ((), noting work notices) := by
  induction notices generalizing work with
  | nil => exact Prod.ext rfl (by rw [noting, List.append_nil]; rfl)
  | cons notice rest ih =>
      refine (ih (noting work [notice])).trans (Prod.ext rfl ?_)
      simp [noting]

/-- The stages of a build, one after the other. -/
structure Stages (site : Site) (scan : Scan) (work copied fallen built linked : Workspace)
    (first second third fourth : List Outcome) : Prop where
  copies : forEach site.copyVerbatim scan.files (noting work (scan.failures.map .skipped)) = (first, copied)
  fallbacks : forEach site.copyInstead ((site.readPages work.fs scan.pages).2.map (·.1))
    (noting copied ((site.readPages work.fs scan.pages).2.map fun unread =>
      site.unreadNotice unread.1 unread.2)) = (second, fallen)
  pages : forEach (fun job => site.renderPage job.1 job.2)
    (site.jobs (.ofPages (site.readPages work.fs scan.pages).1))
    (noting (noting fallen ((Links.ofPages (site.readPages work.fs scan.pages).1).conflicts.map .conflict))
      ((Links.ofPages (site.readPages work.fs scan.pages).1).tree?.toList.map .pageTree)) = (third, built)
  links : forEach site.recreateLink scan.links built = (fourth, linked)

section Stages

variable {work copied fallen built linked : Workspace} {first second third fourth : List Outcome}

theorem Stages.buildScan_apply (stages : Stages site scan work copied fallen built linked first second third
      fourth) :
    let summary := Summary.ofOutcomes (first ++ second ++ third ++ fourth) scan.failures.length
    site.buildScan scan work =
      (summary, if 0 < summary.fallbacks then noting linked [.fallbacks summary.fallbacks] else linked) := by
  obtain ⟨copies, fallbacks, pages, links⟩ := stages
  simp only [buildScan, bind, StateT.bind, get, getThe, MonadStateOf.get, StateT.get, pure, noteAll_apply,
    fs_noting, copies, fallbacks, pages, links]
  split <;> rfl

theorem Stages.fs_eq (stages : Stages site scan work copied fallen built linked first second third fourth) :
    (site.buildScan scan work).2.fs = linked.fs := by
  rw [stages.buildScan_apply]
  dsimp only
  split <;> rfl

theorem Stages.cache_eq (stages : Stages site scan work copied fallen built linked first second third fourth) :
    (site.buildScan scan work).2.cache = linked.cache := by
  rw [stages.buildScan_apply]
  dsimp only
  split <;> rfl

theorem exists_stages (site : Site) (scan : Scan) (work : Workspace) :
    ∃ copied fallen built linked first second third fourth,
      Stages site scan work copied fallen built linked first second third fourth :=
  ⟨_, _, _, _, _, _, _, _, rfl, rfl, rfl, rfl⟩

theorem run_of_forEach {α : Type} {step : α → BuildM Outcome} {items : List α} {start done : Workspace}
    {outcomes : List Outcome} (ran : forEach step items start = (outcomes, done)) (same : start.fs = base) :
    Run step items base outcomes done.fs := by
  have run := run_forEach step items start
  rwa [ran, same] at run

theorem course_buildScan (site : Site) (scan : Scan) (work : Workspace) :
    ∃ outcomes, Course site scan work.fs outcomes (site.buildScan scan work).2.fs ∧
      (site.buildScan scan work).1 = Summary.ofOutcomes outcomes scan.failures.length := by
  obtain ⟨copied, fallen, built, linked, first, second, third, fourth, stages⟩ := exists_stages site scan work
  rw [stages.fs_eq, stages.buildScan_apply]
  exact ⟨_, .parts (run_of_forEach stages.copies rfl) (run_of_forEach stages.fallbacks rfl)
    (run_of_forEach stages.pages rfl) (run_of_forEach stages.links rfl), rfl⟩

/-- A build of files and links only. -/
theorem buildScan_verbatim {files links : List Path}
    (copies : forEach site.copyVerbatim files work = (first, copied))
    (relinks : forEach site.recreateLink links copied = (second, linked))
    (rendered : (Summary.ofOutcomes (first ++ second) 0).fallbacks = 0) :
    site.buildScan ⟨[], files, links, []⟩ work = (Summary.ofOutcomes (first ++ second) 0, linked) := by
  have quiet (work : Workspace) : noting work [] = work := by rw [noting, List.append_nil]
  have read : site.readPages work.fs [] = ([], []) := rfl
  have links_nil : Links.ofPages [] = { pages := [], home? := none, conflicts := [] } := by
    simp [Links.ofPages, Page.sortByUrl, Page.conflicts]
  have jobs : site.jobs { pages := [], home? := none, conflicts := [] } = [] := rfl
  have tree : Links.tree? { pages := [], home? := none, conflicts := [] } = none := rfl
  have stages : Stages site ⟨[], files, links, []⟩ work copied copied copied linked first [] [] second := by
    constructor <;> simp only [read, links_nil, jobs, tree, Option.toList_none, List.map_nil, quiet, forEach_nil,
      copies, relinks]
  rw [stages.buildScan_apply]
  simp only [List.append_nil, List.length_nil, rendered, Nat.lt_irrefl, if_false]

end Stages

theorem renderAll_eq {work : Workspace} (scanned : site.scan work.fs = .ok scan) :
    site.renderAll work = (.ok (site.buildScan scan work).1, (site.buildScan scan work).2) := by
  simp only [renderAll, bind, StateT.bind, get, getThe, MonadStateOf.get, StateT.get, pure, scanned]
  rfl

/-! ## What a build goes through -/

/-- The output file of a page lies below the output directory as its source lies below the source directory. -/
theorem Rooted.exists_target (rooted : Rooted site source output) {directories : List String} {name : String}
    (plain : Plain (directories ++ [name])) (listed : Listed site source (directories ++ [name])) {page : Page}
    {extension : String} {format : PageFormat}
    (read : Page.read fs site.config site.sourceDirectory (Location.path (source ++ (directories ++ [name])))
      extension format = .ok page) :
    ∃ target, page.outputFile = ofNames (directories ++ [target]) ∧ Plain (directories ++ [target]) := by
  let place : Page.Place := ⟨directories, name, fun directory member => plain directory (by simp [member]),
    ⟨plain.last, listed.undotted (by simp)⟩⟩
  have path : Location.path (source ++ (directories ++ [name])) = site.sourceDirectory.join place.path := by
    rw [rooted.sourceDirectory, Page.Place.path, Location.path_join rooted.plain_source (by simp) plain]
  rw [path] at read
  exact ⟨place.file, (Page.target_of_read read).1, place.proper_output⟩

theorem exists_of_mem_readPages {page : Page} {sources : List (Path × String × PageFormat)}
    (member : page ∈ (site.readPages fs sources).1) :
    ∃ file extension format, (file, extension, format) ∈ sources ∧
      Page.read fs site.config site.sourceDirectory file extension format = .ok page := by
  simp only [readPages, List.mem_filterMap, List.mem_map] at member
  obtain ⟨result, ⟨⟨file, extension, format⟩, member, rfl⟩, picked⟩ := member
  refine ⟨file, extension, format, member, ?_⟩
  dsimp only at picked
  cases read : Page.read fs site.config site.sourceDirectory file extension format with
  | error error => simp [read, Except.toOption] at picked
  | ok found => simpa [read, Except.toOption] using picked

theorem exists_of_mem_unread {file : Path} {sources : List (Path × String × PageFormat)}
    (member : file ∈ (site.readPages fs sources).2.map (·.1)) :
    ∃ extension format, (file, extension, format) ∈ sources := by
  simp only [readPages, List.mem_map, List.mem_filterMap] at member
  obtain ⟨unread, ⟨result, ⟨⟨file', extension, format⟩, member, rfl⟩, picked⟩, rfl⟩ := member
  dsimp only at picked
  split at picked
  · cases picked
  · cases picked
    exact ⟨extension, format, member⟩

theorem page_mem_of_mem_jobs {pages : List Page} {job : Page × Json.Fields}
    (member : job ∈ site.jobs (.ofPages pages)) : job.1 ∈ pages := by
  simp only [jobs, List.mem_map] at member
  obtain ⟨⟨linked, summary⟩, zipped, rfl⟩ := member
  have inside := (List.of_mem_zip zipped).1
  simp only [Links.ofPages, List.mem_map] at inside
  obtain ⟨⟨⟨page, parent⟩, i⟩, there, rfl⟩ := inside
  have sorted := (List.of_mem_zip (List.fst_mem_of_mem_zipIdx there)).1
  rwa [Page.sortByUrl, List.mem_mergeSort] at sorted

theorem source_of_mem_unread {file : Path} {sources : List (Path × String × PageFormat)}
    (member : file ∈ (site.readPages fs sources).2.map (·.1)) : file ∈ sources.map (·.1) := by
  obtain ⟨extension, format, listing⟩ := exists_of_mem_unread member
  exact List.mem_map.mpr ⟨_, listing, rfl⟩

theorem source_of_mem_jobs {job : Page × Json.Fields} {sources : List (Path × String × PageFormat)}
    (member : job ∈ site.jobs (.ofPages (site.readPages fs sources).1)) :
    job.1.sourceFile ∈ sources.map (·.1) := by
  obtain ⟨file, extension, format, listing, read⟩ := exists_of_mem_readPages (page_mem_of_mem_jobs member)
  rw [Page.sourceFile_of_read read]
  exact List.mem_map.mpr ⟨_, listing, rfl⟩

section Sources

variable (rooted : Rooted site source output) (tidy : base.Tidy) (known : base.IsDirectory source)
  (scanned : site.scan base = .ok scan)

include rooted tidy known scanned

/-- A page that was scanned lies below the source directory as its output file lies below the output
directory, but for the last name. -/
theorem Rooted.exists_siblings {page : Page} (member : page ∈ (site.readPages base scan.pages).1) :
    ∃ directories name target, Plain (directories ++ [name]) ∧ Plain (directories ++ [target]) ∧
      page.sourceFile = Location.path (source ++ (directories ++ [name])) ∧
      page.outputFile = ofNames (directories ++ [target]) := by
  rw [rooted.scan_eq tidy known] at scanned
  cases scanned
  obtain ⟨file, extension, format, listing, read⟩ := exists_of_mem_readPages member
  obtain ⟨names, listed, plain, rfl⟩ :=
    rooted.exists_of_mem_findings tidy rfl (finding_of_mem_pages listing).1
  rcases List.eq_nil_or_concat names with rfl | ⟨directories, name, rfl⟩
  · exact absurd rfl listed.some_name
  rw [List.concat_eq_append] at *
  obtain ⟨target, outputFile, plain'⟩ := rooted.exists_target plain listed read
  exact ⟨directories, name, target, plain, plain', Page.sourceFile_of_read read, outputFile⟩

theorem Rooted.exists_names {page : Page} (member : page ∈ (site.readPages base scan.pages).1) :
    ∃ copy below, copy ≠ [] ∧ Plain copy ∧ below ≠ [] ∧ Plain below ∧
      page.sourceFile = Location.path (source ++ copy) ∧ page.outputFile = ofNames below := by
  obtain ⟨directories, name, target, plain, plain', sourceFile, outputFile⟩ :=
    rooted.exists_siblings tidy known scanned member
  exact ⟨_, _, by simp, plain, by simp, plain', sourceFile, outputFile⟩

end Sources

/-! ## What the stages change -/

/-- The places below the output directory on which no link stands. -/
def openPlaces (base : FileSystem) (output : Location) : Set Location :=
  {place | output <+: place ∧ base.Straight true place}

/-- The places at which links are recreated. -/
def linkPlaces (site : Site) (source output : Location) (base : FileSystem) : Set Location :=
  {place | ∃ names target, place = output ++ names ∧ Listed site source names ∧
    base.get? (source ++ names) = some (.link target)}

/-- A link of the site lies in a directory, so no other one is recreated above its place. -/
theorem eq_of_linkPlaces (tidy : base.Tidy) {place other : Location}
    (first : place ∈ linkPlaces site source output base) (second : other ∈ linkPlaces site source output base)
    (inside : place <+: other) : place = other := by
  obtain ⟨names, target, rfl, -, there⟩ := first
  obtain ⟨others, target', rfl, -, there'⟩ := second
  by_contra strict
  rw [List.prefix_append_right_inj] at inside
  obtain ⟨time, directory⟩ := tidy.orderly.isDirectory_above there'
    ((List.prefix_append_right_inj source).mpr inside) (by simpa using strict)
  rw [there] at directory
  cases directory

/-- The files of a build at some moment, as long as no link was recreated. -/
abbrev Underway (base : FileSystem) (output : Location) (fs : FileSystem) : Prop :=
  Alters (openPlaces base output) ∅ base fs

/-- Files are put at open places of one kind. -/
abbrev Puts (base : FileSystem) (output : Location) (kept : Location → Prop) (fs after : FileSystem) : Prop :=
  Alters {place | place ∈ openPlaces base output ∧ kept place} ∅ fs after

section Puts

variable {kept : Location → Prop} {place : Location}

theorem puts_at (alters : Alters {place} ∅ fs after) (free : place ∈ openPlaces base output)
    (there : kept place) : Puts base output kept fs after :=
  alters.mono (Set.singleton_subset_iff.mpr ⟨free, there⟩) (subset_refl _)

theorem Underway.puts (underway : Underway base output fs) (puts : Puts base output kept fs after) :
    Underway base output after :=
  underway.trans (puts.mono (fun _ => And.left) (subset_refl _))

theorem Underway.puts_at (underway : Underway base output fs) (alters : Alters {place} ∅ fs after)
    (free : place ∈ openPlaces base output) : Underway base output after :=
  underway.trans (alters.mono (Set.singleton_subset_iff.mpr free) (subset_refl _))

theorem composes_puts : Composes (Underway base output) (Puts base output kept) :=
  ⟨.refl _ ∅, .trans, Underway.puts⟩

end Puts

theorem Underway.ready (underway : Underway base output fs) (tidy : base.Tidy) {place : Location}
    (free : place ∈ openPlaces base output) : Ready true place fs :=
  Alters.ready underway (by simp) ⟨tidy.orderly, free.2⟩

theorem plain_names (tidy : base.Tidy) {entry : Entry} (known : base.get? (source ++ names) = some entry) :
    Plain names :=
  fun name member => tidy.plain known name (by simp [member])

/-- A file of the site can be copied at any moment of a build. -/
theorem Layout.copyable (layout : Layout site source output) (tidy : base.Tidy)
    (listed : Listed site source names) (file : base.get? (source ++ names) = some (.file content time))
    (free : output ++ names ∈ openPlaces base output) (underway : Underway base output fs) :
    Copyable fs (source ++ names) (output ++ names) content time where
  ready := underway.ready tidy free
  plain := layout.plain_output.append (plain_names tidy file)
  some_name := by simp [listed.some_name]
  plain' := tidy.plain file
  known := underway.keeps file (fun inside => layout.outside listed inside.1) (by simp)
  apart := fun same => layout.outside listed ⟨names, same.symm⟩

theorem Layout.copies_copyVerbatim (layout : Layout site source output) (tidy : base.Tidy)
    (listed : Listed site source names) (file : base.get? (source ++ names) = some (.file content time))
    (free : output ++ names ∈ openPlaces base output) {work : Workspace}
    (underway : Underway base output work.fs) :
    Copies (Location.path (source ++ names)) (output ++ names) content work
      (site.copyVerbatim (Location.path (source ++ names)) work) :=
  Site.copies_copyVerbatim (layout.copyable tidy listed file free underway)
    (layout.rooted.placeOf_path listed.some_name (plain_names tidy file))

/-- A source is a file of the site. -/
def IsSource (site : Site) (source : Location) (base : FileSystem) (file : Path)
    (names : List String) : Prop :=
  Listed site source names ∧ file = Location.path (source ++ names) ∧
    ∃ content time, base.get? (source ++ names) = some (.file content time)

theorem Layout.alters_copyVerbatim (layout : Layout site source output) (tidy : base.Tidy) {file : Path}
    (isSource : IsSource site source base file names) (free : output ++ names ∈ openPlaces base output)
    {work : Workspace} (underway : Underway base output work.fs) :
    Alters {output ++ names} ∅ work.fs (site.copyVerbatim file work).2.fs := by
  obtain ⟨listed, rfl, content, time, file⟩ := isSource
  exact (layout.copies_copyVerbatim tidy listed file free underway).alters

theorem Layout.alters_copyInstead (layout : Layout site source output) (tidy : base.Tidy) {file : Path}
    (isSource : IsSource site source base file names) (free : output ++ names ∈ openPlaces base output)
    {work : Workspace} (underway : Underway base output work.fs) :
    Alters {output ++ names} ∅ work.fs (site.copyInstead file work).2.fs := by
  rw [copyInstead_eq]
  exact layout.alters_copyVerbatim tidy isSource free underway

theorem copyInstead_outcome (site : Site) (file : Path) (work : Workspace) :
    (site.copyInstead file work).1 = .failed ∨ (site.copyInstead file work).1 = .fallback := by
  rw [copyInstead_eq]
  dsimp only
  split
  · exact .inl rfl
  · exact .inr rfl

/-- Every place below the output directory is open, or nothing failed and no page was copied instead of
being built. -/
def Settled (base : FileSystem) (output : Location) (outcome : Outcome) : Prop :=
  (∀ place, output <+: place → base.Straight true place) ∨ outcome ≠ .failed ∧ outcome ≠ .fallback

/-- A page is copied only where every place is open. -/
theorem Settled.free {place : Location} {file : Path} {work : Workspace}
    (settled : Settled base output (site.copyInstead file work).1) (inside : output <+: place) :
    place ∈ openPlaces base output := by
  obtain free | ⟨succeeds, built⟩ := settled
  · exact ⟨inside, free place inside⟩
  · exact ((copyInstead_outcome site file work).elim succeeds built).elim

section Stages

variable {items : List Path} {kept : Location → Prop}

theorem Layout.alters_copies (layout : Layout site source output) (tidy : base.Tidy)
    (each : ∀ file ∈ items, ∃ names, IsSource site source base file names ∧
      output ++ names ∈ openPlaces base output ∧ kept (output ++ names))
    (run : Run site.copyVerbatim items fs outcomes after) (underway : Underway base output fs) :
    Puts base output kept fs after := by
  refine run.within composes_puts (fun file member work underway _ => ?_)
    (fun _ _ => trivial) underway
  obtain ⟨names, isSource, free, there⟩ := each file member
  exact puts_at (layout.alters_copyVerbatim tidy isSource free underway) free there

theorem Layout.alters_fallbacks (layout : Layout site source output) (tidy : base.Tidy)
    (each : ∀ file ∈ items, ∃ names, IsSource site source base file names ∧ kept (output ++ names))
    (run : Run site.copyInstead items fs outcomes after)
    (settled : ∀ outcome ∈ outcomes, Settled base output outcome) (underway : Underway base output fs) :
    Puts base output kept fs after := by
  refine run.within composes_puts (fun file member work underway settled => ?_)
    settled underway
  obtain ⟨names, isSource, there⟩ := each file member
  have free := settled.free (List.prefix_append output names)
  exact puts_at (layout.alters_copyInstead tidy isSource free underway) free there

/-- A page with the places of its source and of its output file. -/
structure IsPage (site : Site) (source output : Location) (base : FileSystem) (page : Page)
    (names target : List String) : Prop where
  isSource : IsSource site source base page.sourceFile names
  outputFile : page.outputFile = ofNames target
  some_name : target ≠ []
  plain : Plain target

theorem Layout.alters_pages (layout : Layout site source output) (tidy : base.Tidy)
    {jobs : List (Page × Json.Fields)}
    (each : ∀ job ∈ jobs, ∃ names target, IsPage site source output base job.1 names target ∧
      output ++ target ∈ openPlaces base output ∧ kept (output ++ target) ∧ kept (output ++ names))
    (run : Run (fun job => site.renderPage job.1 job.2) jobs fs outcomes after)
    (settled : ∀ outcome ∈ outcomes, Settled base output outcome) (underway : Underway base output fs) :
    Puts base output kept fs after := by
  refine run.within composes_puts (fun job member work underway settled => ?_)
    settled underway
  obtain ⟨names, target, isPage, free, there, there'⟩ := each job member
  have place : site.outputDirectory.join job.1.outputFile = Location.path (output ++ target) := by
    rw [isPage.outputFile, layout.rooted.join_ofNames isPage.some_name isPage.plain]
  obtain ⟨mid, alters, written | copied⟩ := renderPage_cases job.2 place
    (layout.plain_output.append isPage.plain) (by simp [isPage.some_name]) (underway.ready tidy free)
  · rw [written]
    exact puts_at alters free there
  · rw [copied] at settled ⊢
    have free' := settled.free (List.prefix_append output names)
    have again := layout.alters_copyInstead tidy isPage.isSource free' (underway.puts_at alters free)
    exact .trans (puts_at alters free there) (puts_at again free' there')

/-- A link is recreated where no other link is on the way. -/
theorem Layout.alters_links (layout : Layout site source output) (tidy : base.Tidy)
    (each : ∀ link ∈ items, ∃ names target, Listed site source names ∧
      link = Location.path (source ++ names) ∧ base.get? (source ++ names) = some (.link target) ∧
      base.Straight false (output ++ names) ∧ kept (output ++ names))
    (run : Run site.recreateLink items fs outcomes after) (underway : Underway base output fs) :
    Alters ∅ {place | place ∈ linkPlaces site source output base ∧ kept place} fs after := by
  have composes : Composes
      (Alters (openPlaces base output) (linkPlaces site source output base) base)
      (Alters ∅ {place | place ∈ linkPlaces site source output base ∧ kept place}) :=
    ⟨.refl _ _, .trans, fun underway alters => underway.trans
      (alters.mono (Set.empty_subset _) fun place => And.left)⟩
  refine run.within composes (fun link member work underway _ => ?_) (fun _ _ => trivial)
    (underway.mono (subset_refl _) (Set.empty_subset _))
  obtain ⟨names, target, listed, rfl, there, straight, spared⟩ := each link member
  have plain := plain_names tidy there
  have own : ∀ place ∈ linkPlaces site source output base, place <+: output ++ names →
      false = false ∧ place = output ++ names :=
    fun place among inside => ⟨rfl, eq_of_linkPlaces tidy among ⟨names, target, rfl, listed, there⟩ inside⟩
  have ready : Ready false (output ++ names) work.fs := underway.ready own ⟨tidy.orderly, straight⟩
  refine (alters_recreateLink (layout.rooted.placeOf_path listed.some_name plain)
    (layout.plain_output.append plain)
    (by simp [listed.some_name]) ready).mono (subset_refl _) ?_
  exact Set.singleton_subset_iff.mpr ⟨⟨names, target, rfl, listed, there⟩, spared⟩

end Stages

/-! ## One file in a build -/

/-- No link is in the way of what a build does. -/
structure Room (site : Site) (source output : Location) (base : FileSystem) (scan : Scan) : Prop where
  files : ∀ names, Plain names → Location.path (source ++ names) ∈ scan.files →
    base.Straight true (output ++ names)
  pages : ∀ page ∈ (site.readPages base scan.pages).1, ∀ names, Plain names →
    page.outputFile = ofNames names → base.Straight true (output ++ names)
  links : ∀ names, Plain names → Location.path (source ++ names) ∈ scan.links →
    base.Straight false (output ++ names)

theorem room_of_open (free : ∀ place, output <+: place → base.Straight true place) :
    Room site source output base scan where
  files _ _ _ := free _ (List.prefix_append _ _)
  pages _ _ _ _ _ := free _ (List.prefix_append _ _)
  links _ _ _ := (free _ (List.prefix_append _ _)).unfollowed false

/-- Where a scan leads to, as seen from the output directory. -/
def outputs (site : Site) (base : FileSystem) (scan : Scan) : List Path :=
  scan.files.map site.within ++ (site.readPages base scan.pages).1.map (·.outputFile) ++
    scan.links.map site.within

/-- A place does not lie at or below another one. -/
def Beside (other place : Location) : Prop := ¬other <+: place

/-- Nothing else of the site goes to the place of a file or below. -/
theorem beside_of_file (tidy : base.Tidy) (file : base.get? (source ++ names) = some (.file content time))
    {others : List String} {entry : Entry} (known : base.get? (source ++ others) = some entry)
    (different : names ≠ others) : Beside (output ++ names) (output ++ others) := by
  intro inside
  rw [List.prefix_append_right_inj] at inside
  obtain ⟨time, directory⟩ := tidy.orderly.isDirectory_above known
    ((List.prefix_append_right_inj source).mpr inside) (by simpa using different)
  rw [file] at directory
  cases directory

/-- A file that is no page, with the names that lead to it. -/
structure IsFile (site : Site) (source : Location) (base : FileSystem) (names : List String)
    (content : Bytes) (time : Time) : Prop where
  listed : Listed site source names
  known : base.get? (source ++ names) = some (.file content time)
  other : site.config.pageFormat? (Location.path (source ++ names)) = none

theorem Room.open_file (room : Room site source output base scan) (tidy : base.Tidy)
    (isFile : IsFile site source base names content time)
    (member : Location.path (source ++ names) ∈ scan.files) : output ++ names ∈ openPlaces base output :=
  ⟨List.prefix_append _ _, room.files _ (plain_names tidy isFile.known) member⟩

theorem IsFile.isSource (isFile : IsFile site source base names content time) :
    IsSource site source base (Location.path (source ++ names)) names :=
  ⟨isFile.listed, rfl, content, time, isFile.known⟩

theorem IsFile.beside_source (isFile : IsFile site source base names content time) (tidy : base.Tidy)
    {file : Path} {others : List String} (isSource : IsSource site source base file others)
    (isPage : site.config.pageFormat? file ≠ none) : Beside (output ++ names) (output ++ others) := by
  obtain ⟨-, rfl, content, time, known⟩ := isSource
  refine beside_of_file tidy isFile.known known ?_
  rintro rfl
  exact isPage isFile.other

/-- The output file of a page lies in the same directory as its source. -/
theorem IsFile.beside_target (isFile : IsFile site source base names content time) (tidy : base.Tidy)
    {file : Path} {directories : List String} {name target : String}
    (isSource : IsSource site source base file (directories ++ [name]))
    (different : names ≠ directories ++ [target]) :
    Beside (output ++ names) (output ++ (directories ++ [target])) := by
  intro inside
  rw [List.prefix_append_right_inj] at inside
  obtain same | above := List.prefix_concat_iff.mp inside
  · exact different same
  · obtain ⟨-, -, content, time, known⟩ := isSource
    have shorter : names ≠ directories ++ [name] := by
      rintro rfl
      have bound := above.length_le
      rw [List.length_append, List.length_singleton] at bound
      omega
    exact beside_of_file tidy isFile.known known shorter
      ((List.prefix_append_right_inj output).mpr (above.trans (List.prefix_append _ _)))

section Build

variable (layout : Layout site source output) (tidy : base.Tidy) (known : base.IsDirectory source)
  (scanned : site.scan base = .ok scan)

include layout tidy known scanned

theorem Layout.exists_isPage {page : Page} (member : page ∈ (site.readPages base scan.pages).1) :
    ∃ directories name target, IsPage site source output base page (directories ++ [name])
      (directories ++ [target]) ∧ site.config.pageFormat? page.sourceFile ≠ none := by
  obtain ⟨file, extension, format, listing, read⟩ := exists_of_mem_readPages member
  obtain ⟨names, content, time, listed, rfl, known, isPage⟩ :=
    layout.exists_of_mem_pages tidy known scanned listing
  have plain := plain_names tidy known
  rcases List.eq_nil_or_concat names with rfl | ⟨directories, name, rfl⟩
  · exact absurd rfl listed.some_name
  rw [List.concat_eq_append] at *
  have sourceFile := Page.sourceFile_of_read read
  obtain ⟨target, outputFile, plain'⟩ := layout.rooted.exists_target plain listed read
  exact ⟨directories, name, target, ⟨⟨listed, sourceFile, content, time, known⟩, outputFile, by simp, plain'⟩,
    by simp [sourceFile, isPage]⟩

theorem Layout.exists_isSource {file : Path} {extension : String} {format : PageFormat}
    (member : (file, extension, format) ∈ scan.pages) :
    ∃ others, IsSource site source base file others ∧ site.config.pageFormat? file ≠ none := by
  obtain ⟨others, content, time, listed, same, known, isPage⟩ :=
    layout.exists_of_mem_pages tidy known scanned member
  exact ⟨others, ⟨listed, same, content, time, known⟩, by simp [isPage]⟩

theorem Layout.exists_isFile {file : Path} (member : file ∈ scan.files) :
    ∃ names content time, file = Location.path (source ++ names) ∧
      IsFile site source base names content time := by
  obtain ⟨names, content, time, listed, rfl, there, other⟩ :=
    layout.exists_of_mem_files tidy known scanned member
  exact ⟨names, content, time, rfl, listed, there, other⟩

/-- What the stages behind the copying of files do, they do at places of one kind. -/
structure Keeps (site : Site) (source output : Location) (base : FileSystem) (scan : Scan)
    (kept : Location → Prop) : Prop where
  sources : ∀ {file others}, IsSource site source base file others →
    site.config.pageFormat? file ≠ none → kept (output ++ others)
  pages : ∀ {page directories name target}, page ∈ (site.readPages base scan.pages).1 →
    IsPage site source output base page (directories ++ [name]) (directories ++ [target]) →
    kept (output ++ (directories ++ [target]))
  links : ∀ {others target}, base.get? (source ++ others) = some (.link target) → kept (output ++ others)

omit layout tidy known scanned in
theorem mem_of_middle {first second third fourth : List Outcome} {outcome : Outcome}
    (member : outcome ∈ second ++ third) : outcome ∈ first ++ second ++ third ++ fourth := by
  simp only [List.mem_append] at member ⊢
  tauto

omit layout tidy known scanned in
theorem keeps_all : Keeps site source output base scan fun _ => True := ⟨by simp, by simp, by simp⟩

/-- Behind the copying of files. -/
theorem Layout.alters_behind {kept : Location → Prop} (keeps : Keeps site source output base scan kept)
    (room : Room site source output base scan) {copied fallen built : FileSystem}
    {second third fourth : List Outcome}
    (fallbacks : Run site.copyInstead ((site.readPages base scan.pages).2.map (·.1)) copied second fallen)
    (pages : Run (fun job => site.renderPage job.1 job.2)
      (site.jobs (.ofPages (site.readPages base scan.pages).1)) fallen third built)
    (links : Run site.recreateLink scan.links built fourth after)
    (settled : ∀ outcome ∈ second ++ third, Settled base output outcome)
    (underway : Underway base output copied) :
    Alters {place | place ∈ openPlaces base output ∧ kept place}
      {place | place ∈ linkPlaces site source output base ∧ kept place} copied after := by
  have fallen_puts : Puts base output kept copied fallen := by
    refine layout.alters_fallbacks tidy (fun path member => ?_) fallbacks
      (fun outcome member => settled outcome (List.mem_append_left _ member)) underway
    obtain ⟨extension, format, listing⟩ := exists_of_mem_unread member
    obtain ⟨others, isSource, isPage⟩ := layout.exists_isSource tidy known scanned listing
    exact ⟨others, isSource, keeps.sources isSource isPage⟩
  have built_puts : Puts base output kept fallen built := by
    refine layout.alters_pages tidy (fun job member => ?_) pages
      (fun outcome member => settled outcome (List.mem_append_right _ member)) (underway.puts fallen_puts)
    have member := page_mem_of_mem_jobs member
    obtain ⟨directories, name, target, isPage, format⟩ := layout.exists_isPage tidy known scanned member
    have free := room.pages _ member _ isPage.plain isPage.outputFile
    exact ⟨_, _, isPage, ⟨List.prefix_append _ _, free⟩, keeps.pages member isPage,
      keeps.sources isPage.isSource format⟩
  have linked_alters : Alters ∅ {place | place ∈ linkPlaces site source output base ∧ kept place}
      built after := by
    refine layout.alters_links tidy (fun link member => ?_) links
      ((underway.puts fallen_puts).puts built_puts)
    obtain ⟨others, target, listed, rfl, there⟩ := layout.rooted.exists_of_mem_links tidy known scanned member
    exact ⟨others, target, listed, rfl, there, room.links _ (plain_names tidy there) member,
      keeps.links there⟩
  exact ((fallen_puts.trans built_puts).mono (subset_refl _) (Set.empty_subset _)).trans
    (linked_alters.mono (Set.empty_subset _) (subset_refl _))

/-- A whole build puts files at open places and recreates links. -/
theorem Layout.alters_build (room : Room site source output base scan)
    (course : Course site scan base outcomes after)
    (settled : ∀ outcome ∈ outcomes, Settled base output outcome) :
    Alters (openPlaces base output) (linkPlaces site source output base) base after := by
  cases course with
  | @parts copied fallen built _ first second third fourth copies fallbacks pages links =>
      have copied_puts : Puts base output (fun _ => True) base copied := by
        refine layout.alters_copies tidy (fun file member => ?_) copies (.refl _ _ base)
        obtain ⟨names, content, time, rfl, isFile⟩ := layout.exists_isFile tidy known scanned member
        exact ⟨names, isFile.isSource, room.open_file tidy isFile member, trivial⟩
      have underway := Underway.puts (.refl _ _ base) copied_puts
      have behind := layout.alters_behind tidy known scanned keeps_all room fallbacks pages links
        (fun outcome member => settled outcome (mem_of_middle member)) underway
      exact (underway.mono (subset_refl _) (Set.empty_subset _)).trans
        (behind.mono (fun place => And.left) fun place => And.left)

omit known scanned in
/-- The places of the other stages lie beside the place of a file. -/
theorem Layout.keeps_beside (distinct : (site.outputs base scan).Nodup)
    (isFile : IsFile site source base names content time)
    (member : Location.path (source ++ names) ∈ scan.files) :
    Keeps site source output base scan (Beside (output ++ names)) where
  sources isSource isPage := isFile.beside_source tidy isSource isPage
  pages pageMember isPage := by
    refine isFile.beside_target tidy isPage.isSource ?_
    rintro rfl
    rw [outputs, List.append_assoc, List.nodup_append] at distinct
    refine distinct.2.2 _ (List.mem_map_of_mem member) _
      (List.mem_append_left _ (List.mem_map_of_mem pageMember)) ?_
    rw [layout.rooted.within_path isFile.listed.some_name isPage.plain, isPage.outputFile]
  links there := by
    refine beside_of_file tidy isFile.known there ?_
    rintro rfl
    rw [isFile.known] at there
    cases there

/-- The other files of the site are copied beside the place of a file. -/
theorem Layout.beside_others (room : Room site source output base scan)
    (distinct : (site.outputs base scan).Nodup) (isFile : IsFile site source base names content time)
    {front rest : List Path} (split : scan.files = front ++ Location.path (source ++ names) :: rest) :
    ∀ file ∈ front ++ rest, ∃ others, IsSource site source base file others ∧
      output ++ others ∈ openPlaces base output ∧ Beside (output ++ names) (output ++ others) := by
  intro file member
  have among : file ∈ scan.files := by
    rw [split]
    simp only [List.mem_append, List.mem_cons] at member ⊢
    tauto
  obtain ⟨others, content', time', rfl, isFile'⟩ := layout.exists_isFile tidy known scanned among
  refine ⟨others, isFile'.isSource, room.open_file tidy isFile' among,
    beside_of_file tidy isFile.known isFile'.known ?_⟩
  rintro rfl
  rw [outputs, List.append_assoc, List.nodup_append, split, List.map_append, List.map_cons,
    List.nodup_middle, List.nodup_cons, ← List.map_append] at distinct
  exact distinct.1.1 (List.mem_map_of_mem member)

/-- The moment of a build at which a file is copied. -/
theorem Layout.exists_copies (room : Room site source output base scan)
    (distinct : (site.outputs base scan).Nodup) (isFile : IsFile site source base names content time)
    (member : Location.path (source ++ names) ∈ scan.files) (course : Course site scan base outcomes after)
    (settled : ∀ outcome ∈ outcomes, Settled base output outcome) :
    ∃ mid result, Underway base output mid.fs ∧
      mid.fs.get? (output ++ names) = base.get? (output ++ names) ∧
      Copies (Location.path (source ++ names)) (output ++ names) content mid result ∧
      result.1 ∈ outcomes ∧ after.get? (output ++ names) = result.2.fs.get? (output ++ names) := by
  cases course with
  | @parts copied fallen built _ first second third fourth copies fallbacks pages links =>
      obtain ⟨front, rest, split⟩ := List.append_of_mem member
      have others := layout.beside_others tidy known scanned room distinct isFile split
      have free := room.open_file tidy isFile member
      rw [split] at copies
      obtain ⟨mid, before, later, rfl, run, run'⟩ := copies.append
      cases run' with
      | @cons _ _ later _ mid rest_run =>
          have front_puts : Puts base output (Beside (output ++ names)) base mid.fs :=
            layout.alters_copies tidy (fun file among => others file (List.mem_append_left _ among)) run
              (.refl _ _ base)
          have underway := Underway.puts (.refl _ _ base) front_puts
          have copying := layout.copies_copyVerbatim tidy isFile.listed isFile.known free underway
          have underway' := underway.puts_at copying.alters free
          have rest_puts : Puts base output (Beside (output ++ names))
              (site.copyVerbatim (Location.path (source ++ names)) mid).2.fs copied :=
            layout.alters_copies tidy (fun file among => others file (List.mem_append_right _ among)) rest_run
              underway'
          have behind := layout.alters_behind tidy known scanned
            (layout.keeps_beside tidy distinct isFile member) room fallbacks pages links
            (fun outcome member => settled outcome (mem_of_middle member)) (underway'.puts rest_puts)
          have listed : (site.copyVerbatim (Location.path (source ++ names)) mid).1 ∈
              before ++ (site.copyVerbatim (Location.path (source ++ names)) mid).1 :: later :=
            List.mem_append_right _ List.mem_cons_self
          refine ⟨mid, _, underway, front_puts.get?_eq (fun place => And.right) (by simp), copying,
            List.mem_append_left _ (List.mem_append_left _ (List.mem_append_left _ listed)), ?_⟩
          -- neither the files that come later nor the stages behind them get to the place of the file
          rw [behind.get?_eq (fun place => And.right) fun place => And.right,
            rest_puts.get?_eq (fun place => And.right) (by simp)]

end Build

end StaticSite.Site
