import StaticSite.Proofs.Site.Comparison

/-!
What the body of a page has an influence on. Two builds of trees that differ in nothing but the content of a page,
and not in its header, leave the same in all places but those of the page itself.
-/

namespace StaticSite

/-- A workspace in which a file has another content. -/
def Workspace.edit (work : Workspace) (place : Location) (content : Bytes) (time : Time) : Workspace :=
  { work with fs := work.fs.put place (.file content time) }

namespace Site

open Json (Fields)
open FileSystem (Alike Tidy)
open Location (Plain)

/-! ## Whole builds -/

section Whole

variable {site : Site} {work : Workspace} {scan : Scan} {output origin : Location} {file : Path}
  {content content' : Bytes} {time time' : Time}

theorem prepare_alike {fs other : FileSystem} (alike : Alike fs other origin) (config : Config)
    (source? output? : Option Path) :
    Site.prepare other config source? output? = Site.prepare fs config source? output? := by
  simp only [Site.prepare, alike.isDirectory_eq, alike.canonicalize_eq]

/-- Pages are read as before if nothing but the body of one of them has changed. -/
theorem readPages_alike {fs other : FileSystem} (alike : Alike fs other origin)
    {sources : List (Path × String × PageFormat)}
    (finds : fs.find true file = .ok (origin, .file content time))
    (finds' : other.find true file = .ok (origin, .file content' time'))
    (header : Page.readMeta content' = Page.readMeta content)
    (alone : ∀ source ∈ sources.map (·.1), source ≠ file → ∀ entry, fs.find true source ≠ .ok (origin, entry)) :
    site.readPages other sources = site.readPages fs sources := by
  refine readPages_congr fun source member => ?_
  by_cases same : source.1 = file
  · simp only [same, Page.read, Page.content, finds, finds', bind, Except.bind, Page.ofContent, header]
  · have found := alike.find_eq fun _ entry there equal =>
      alone source.1 (List.mem_map_of_mem member) same entry (equal ▸ there)
    rw [Page.read, Page.read, Page.content, Page.content, found]

/-- The content of a page is to change and its header is not, before a site is built into an output directory that is
not there. All that a scan lists has places of its own to end up in. -/
structure Revision (site : Site) (scan : Scan) (output : Location) (work : Workspace) (file : Path)
    (origin : Location) (content content' : Bytes) (time : Time) : Prop where
  tidy : work.fs.Tidy
  distinct : work.fs.Distinct
  prepared : ∃ config source? output?, Site.prepare work.fs config source? output? = .ok site
  scanned : site.scan work.fs = .ok scan
  grounded : work.cache.Grounded
  lies : work.fs.Lies site.outputDirectory.names output
  absent : ∀ found, work.fs.find false site.outputDirectory ≠ .ok found
  links : ∀ place target, work.fs.get? place = some (.link target) → target.text.isEmpty = false
  listed : file ∈ scan.pages.map (·.1)
  finds : work.fs.find true file = .ok (origin, .file content time)
  header : Page.readMeta content' = Page.readMeta content
  apart : (site.entryTargets work.fs scan).Pairwise fun targets others =>
    ∀ target ∈ targets, ∀ elsewhere ∈ others, target.Apart elsewhere

/-- Nothing else that a scan lists is read from the place of a source. -/
def Alone (scan : Scan) (work : Workspace) (file : Path) (origin : Location) : Prop :=
  ∀ source ∈ scan.pages.map (·.1) ++ scan.files, source ≠ file →
    ∀ entry, work.fs.find true source ≠ .ok (origin, entry)

/-- No page asks for what is at the place of a source, or below the output directory, or for something by a path that
waits for the output directory. -/
def AsksElsewhere (site : Site) (scan : Scan) (output origin : Location) (run : Workspace) : Prop :=
  ∀ job ∈ site.jobsOf run.fs scan, ∀ asked, site.Asks run job.1 job.2 asked →
    run.fs.KeepsOff output (asked.absolute run.fs.here) ∧
      ∀ entry, run.fs.find true (asked.absolute run.fs.here) ≠ .ok (origin, entry)

/-- A place where a page neither is nor ends up, be it built or copied. -/
structure Elsewhere (site : Site) (scan : Scan) (output : Location) (work : Workspace) (file : Path)
    (origin place : Location) : Prop where
  source : place ≠ origin
  copy : place ≠ output.down (site.within file)
  built : ∀ job ∈ site.jobsOf work.fs scan, job.1.sourceFile = file → place ≠ output.down job.1.outputFile

/-- Building a site leaves the same files and links at a place after a change as without it. -/
def LeavesAlike (site : Site) (work edited : Workspace) (place : Location) : Prop :=
  ∀ entry, (∀ made, entry ≠ .directory made) →
    ((site.renderAll work).2.fs.get? place = some entry ↔ (site.renderAll edited).2.fs.get? place = some entry)

namespace Revision

variable (revision : Revision site scan output work file origin content content' time)

include revision

theorem alike (time' : Time) : Alike work.fs (work.edit origin content' time').fs origin :=
  FileSystem.alike_put_file (FileSystem.get?_of_find revision.finds) content' time'

theorem find_edit (time' : Time) :
    (work.edit origin content' time').fs.find true file = .ok (origin, .file content' time') :=
  FileSystem.find_put_file_self revision.finds content' time'

theorem scan_edit (time' : Time) : site.scan (work.edit origin content' time').fs = .ok scan := by
  obtain ⟨config, source?, output?, prepared⟩ := revision.prepared
  obtain ⟨source, path, rooted, known, -⟩ := exists_rooted_of_prepare revision.tidy prepared
  have alike := revision.alike time'
  have some_name : origin ≠ [] := by
    rintro rfl
    cases FileSystem.get?_of_find revision.finds
  exact (rooted.scan_alike known revision.tidy (alike.tidy revision.tidy) revision.distinct
    (revision.distinct.put some_name _) alike).trans revision.scanned

theorem readPages_edit (alone : Alone scan work file origin) (time' : Time) :
    site.readPages (work.edit origin content' time').fs scan.pages = site.readPages work.fs scan.pages :=
  readPages_alike (revision.alike time') revision.finds (revision.find_edit time') revision.header
    fun source member => alone source (List.mem_append_left _ member)

end Revision

/-- The body of a page has an influence on nothing but the page: whether it can be built before and after a change,
all other places hold the same, if nothing else is made from its source and no template is found only when the output
directory is there. Directories may be missing from one of the trees only if the page is as old as the epoch. -/
theorem body_influences_its_page_only
    (revision : Revision site scan output work file origin content content' time)
    (alone : Alone scan work file origin)
    (asked : ∀ run ∈ [work, work.edit origin content' time'], AsksElsewhere site scan output origin run) :
    let edited := work.edit origin content' time'
    let first := site.renderAll work
    let second := site.renderAll edited
    (∀ config source? output?,
      Site.prepare edited.fs config source? output? = Site.prepare work.fs config source? output?) ∧
      (∃ summary, first.1 = .ok summary) ∧ (∃ summary, second.1 = .ok summary) ∧
      ∀ place, Elsewhere site scan output work file origin place →
        LeavesAlike site work edited place ∧
          (0 < time → 0 < time' → first.2.fs.get? place = second.2.fs.get? place) := by
  intro edited first second
  have alike : Alike work.fs edited.fs origin := revision.alike time'
  have scanned' : site.scan edited.fs = .ok scan := revision.scan_edit time'
  have read : site.readPages edited.fs scan.pages = site.readPages work.fs scan.pages :=
    revision.readPages_edit alone time'
  have finds' := revision.find_edit time'
  obtain ⟨tidy, -, ⟨config, source?, output?, prepared⟩, scanned, grounded, lies, absent, links, -, finds, -, apart⟩ :=
    revision
  have tidy' : edited.fs.Tidy := alike.tidy tidy
  obtain ⟨source, path, rooted, directory, templates⟩ := exists_rooted_of_prepare tidy prepared
  rw [rooted.outputDirectory] at absent
  rw [rooted.names_outputDirectory] at lies
  have missing := lies.absent tidy.orderly rooted.plain_output absent
  have missing' := alike.absent missing
  -- nothing is below what is missing, so no link is either
  have ground {fs : FileSystem} (orderly : fs.Orderly) (missing : fs.get? output = none)
      (lies : fs.Lies path output) : fs.Ground path output :=
    lies.ground orderly rooted.plain_output fun place target under _ link => by
      rw [orderly.absent_below missing under] at link
      cases link
  have links' (place : Location) (target : Path) (link : edited.fs.get? place = some (.link target)) :
      target.text.isEmpty = false := links place target (alike.symm.keeps.link link)
  obtain ⟨accepts, loaded, sound⟩ := rooted.exists_sound tidy directory scanned (ground tidy.orderly missing lies)
    missing grounded templates links fun job member asking asks => (asked work (by simp) job member asking asks).1
  have grounded' : edited.cache.Grounded := grounded
  obtain ⟨accepts', loaded', sound'⟩ := rooted.exists_sound tidy' (alike.isDirectory directory) scanned'
    (ground tidy'.orderly missing' (alike.lies lies)) missing' grounded' templates links'
    fun job member asking asks => (asked edited (by simp [edited]) job member asking asks).1
  -- each build goes by its own forecast, and the forecasts are of trees that differ in one file
  have compared : Compared ⟨site, work.fs, work, output, accepts, loaded⟩ edited accepts' loaded' path origin scan file
      time time' :=
    ⟨sound, sound', rfl, alike, rfl, rfl, missing, read, ⟨content, finds⟩, ⟨content', finds'⟩, alone,
      fun job member asking asks => (asked work (by simp) job member asking asks).2⟩
  have apart' : (site.entryTargets edited.fs scan).Pairwise fun targets others =>
      ∀ target ∈ targets, ∀ elsewhere ∈ others, target.Apart elsewhere := by
    rw [entryTargets, Site.unread, jobsOf, read]
    exact apart
  obtain ⟨-, after⟩ := sound.buildScan rfl ⟨by simp, sound.footing.nil, .nil⟩ (sound.apart apart)
  obtain ⟨-, after'⟩ := sound'.buildScan rfl ⟨by simp, sound'.footing.nil, .nil⟩ (sound'.apart apart')
  have ran : first = (.ok (site.buildScan scan work).1, (site.buildScan scan work).2) := renderAll_eq scanned
  have ran' : second = (.ok (site.buildScan scan edited).1, (site.buildScan scan edited).2) :=
    renderAll_eq scanned'
  refine ⟨prepare_alike alike, ⟨_, congrArg Prod.fst ran⟩, ⟨_, congrArg Prod.fst ran'⟩, fun place elsewhere => ?_⟩
  change (∀ entry, _ → (first.2.fs.get? place = some entry ↔ second.2.fs.get? place = some entry)) ∧ _
  rw [ran, ran']
  refine compared.get?_after after after' ?_ elsewhere.source
  rintro (same | ⟨job, member, own, same⟩)
  · exact elsewhere.copy same
  · exact elsewhere.built job member own same

end Whole

/-! ## A page of the small site -/

section Sample

/-- A page whose code is broken asks for nothing. -/
theorem not_asks_of_broken {site : Site} {page : Page} {bindings : Fields} {body : Bytes} {work : Workspace}
    {asked : Path} (reads : page.readBody work.fs = .ok body) (format : page.format = .markup)
    (code : mayHoldCode body = true) {error : Template.Error}
    (broken : Template.compile (Text.Utf8.decodeLossy body) page.sourceFile.text = .error error) :
    ¬site.Asks work page bindings asked := by
  intro asks
  cases asks with
  | body read _ _ compiles =>
      cases reads.symm.trans read
      cases broken.symm.trans compiles
  | layout read evaluates =>
      cases reads.symm.trans read
      have fails : site.pageContent page bindings body work = (.error (.template error), work) := by
        rw [pageContent, format]
        dsimp only
        rw [if_pos code, evalBody, broken]
        rfl
      cases fails.symm.trans evaluates

theorem down_bare (name : String) (proper : Path.Proper name) (path : Location.path ["s", name] = ⟨"/s/" ++ name⟩)
    (config : Config) :
    Location.down ["s", "_build"] ((smallSite config).within ⟨"/s/" ++ name⟩) = ["s", "_build", name] := by
  have plain : Plain [name] := by simpa [Plain] using proper
  have within := (rooted_smallSite config).within_path (List.cons_ne_nil name []) plain
  rw [List.singleton_append, path] at within
  rw [within, Location.down_ofNames _ plain]
  rfl

/-- Code that is no template. -/
def brokenBody : Bytes := Text.Utf8.encode "<? ) ?>"

theorem compile_brokenBody : ∀ name ∈ ["/s/a.html", "/s/b.html"],
    ∃ error, Template.compile (Text.Utf8.decodeLossy brokenBody) name = .error error := by
  have fails : ∀ name ∈ ["/s/a.html", "/s/b.html"],
      (Template.compile (Text.Utf8.decodeLossy brokenBody) name).toOption.isSome = false := by
    decide +kernel
  intro name among
  have fails := fails name among
  cases compiled : Template.compile (Text.Utf8.decodeLossy brokenBody) name with
  | error error => exact ⟨error, rfl⟩
  | ok template =>
      rw [compiled] at fails
      cases fails

theorem revision_bare : Revision roundaboutSite bareScan ["s", "_build"] { fs := barePages } ⟨"/s/b.html"⟩
    ["s", "b.html"] (Text.Utf8.encode "y") brokenBody 1 where
  tidy := tidy_barePages
  distinct := distinct_barePages
  prepared := ⟨_, _, _, prepare_barePages⟩
  scanned := scan_barePages
  grounded := fun path template cached => by cases cached
  lies := lies_bare rfl rfl rfl
  absent := fun found there => by
    have missing : barePages.find false ⟨"/s/_build"⟩ = .error .notFound := rfl
    cases missing.symm.trans there
  links := fun place target link => absurd link (unlinked_of_entries (by simp [barePages]) place target)
  listed := by simp [bareScan]
  finds := rfl
  header := rfl
  apart := by
    have targets := @entryTargets_bare barePages rfl rfl
    rw [bareScan, targets, List.pairwise_map]
    exact apart_bare

theorem find_firstPage : barePages.find true firstPage.sourceFile =
    .ok (["s", "a.html"], .file (Text.Utf8.encode "---\n---\nx") 1) := rfl

/-- The first page asks for nothing but its layout, which is nowhere, however the second page reads. -/
theorem asked_firstPage {run : Workspace} (alike : Alike barePages run.fs ["s", "b.html"]) (cached : run.cache = {})
    {bindings : Fields} {asked : Path} (asks : roundaboutSite.Asks run firstPage bindings asked) :
    run.fs.KeepsOff ["s", "_build"] (asked.absolute run.fs.here) ∧
      ∀ entry, run.fs.find true (asked.absolute run.fs.here) ≠ .ok (["s", "b.html"], entry) := by
  have here : run.fs.here = barePages.here := congrArg Location.path alike.workingDirectory
  have nowhere : run.fs.find true (roundaboutLayout.absolute run.fs.here) = .error .notFound := by
    rw [here, alike.find_eq fun place entry finds => ?_, find_roundaboutLayout]
    rw [find_roundaboutLayout] at finds
    cases finds
  have reads : run.fs.read firstPage.sourceFile = barePages.read firstPage.sourceFile := by
    rw [FileSystem.read, FileSystem.read, alike.find_eq fun place entry finds => ?_]
    rw [find_firstPage] at finds
    cases finds
    decide
  have missing : run.fs.readText (roundaboutLayout.absolute run.fs.here) = .error .notFound := by
    rw [FileSystem.readText, FileSystem.read, nowhere]
    rfl
  obtain rfl := asks_firstPage asks cached reads missing
  refine ⟨?_, fun entry finds => ?_⟩
  · rw [here]
    exact alike.keepsOff keepsOff_roundaboutLayout
  · rw [nowhere] at finds
    cases finds

/-- The code of the second page is broken, and the first page is built as before. -/
theorem body_influences_its_page_only_sample :
    let work : Workspace := { fs := barePages }
    let edited := work.edit ["s", "b.html"] brokenBody 2
    let first := roundaboutSite.renderAll work
    let second := roundaboutSite.renderAll edited
    (∀ config source? output?,
      Site.prepare edited.fs config source? output? = Site.prepare work.fs config source? output?) ∧
      (∃ summary, first.1 = .ok summary) ∧ (∃ summary, second.1 = .ok summary) ∧
      ∀ place, Elsewhere roundaboutSite bareScan ["s", "_build"] work ⟨"/s/b.html"⟩ ["s", "b.html"] place →
        LeavesAlike roundaboutSite work edited place ∧
          ((0 : Time) < 1 → (0 : Time) < 2 → first.2.fs.get? place = second.2.fs.get? place) := by
  intro work edited
  have alike : Alike work.fs edited.fs ["s", "b.html"] := revision_bare.alike 2
  have finds := revision_bare.find_edit 2
  have alone : Alone bareScan work ⟨"/s/b.html"⟩ ["s", "b.html"] := by
    simp only [Alone, bareScan, List.map_cons, List.map_nil, List.append_nil, List.forall_mem_cons]
    refine ⟨fun _ entry there => ?_, fun same => absurd rfl same, by simp⟩
    have here := Except.ok.inj (find_firstPage.symm.trans there)
    simp at here
  have jobs : roundaboutSite.jobsOf work.fs bareScan = roundaboutSite.jobs bareLinks := @jobsOf_bare barePages rfl rfl
  have jobs' : roundaboutSite.jobsOf edited.fs bareScan = roundaboutSite.jobs bareLinks := by
    rw [jobsOf, revision_bare.readPages_edit alone 2]
    exact jobs
  have body : secondPage.readBody work.fs = .ok (Text.Utf8.encode "y") := rfl
  have body' : secondPage.readBody edited.fs = .ok brokenBody := by
    have source : secondPage.sourceFile = ⟨"/s/b.html"⟩ := rfl
    rw [Page.readBody, FileSystem.read, source, finds]
    rfl
  refine body_influences_its_page_only revision_bare alone ?_
  simp only [List.forall_mem_cons, AsksElsewhere]
  refine ⟨fun job member asked asks => ?_, fun job member asked asks => ?_, by simp⟩
  · rw [jobs] at member
    obtain same | same := mem_jobs_bare member <;> rw [same] at asks
    · exact asked_firstPage ⟨rfl, fun _ _ => rfl, alike.file, alike.file⟩ rfl asks
    · obtain ⟨layout, -, -, -, named, -⟩ := asks.of_codeless body rfl rfl
      cases named
  · rw [jobs'] at member
    obtain same | same := mem_jobs_bare member <;> rw [same] at asks
    · exact asked_firstPage alike rfl asks
    · obtain ⟨error, broken⟩ := compile_brokenBody secondPage.sourceFile.text (by decide)
      exact absurd asks (not_asks_of_broken body' rfl rfl broken)

/-! ## Two pages of which one has an influence on the other -/

/-- A page that comes first and has no header. -/
def leadPage : Page := barePage "a.html" "A" none 0

/-- A page that comes second and has an empty header. -/
def headedPage : Page := barePage "b.html" "B" (some []) 8

theorem ofPages_leadPage : ∀ page ∈ [secondPage, headedPage],
    Links.ofPages [leadPage, page] = unlinked [leadPage, page] := by
  simp only [List.forall_mem_cons]
  exact ⟨ofPages_pair (by decide) (by decide +kernel) rfl (by decide),
    ofPages_pair (by decide) (by decide +kernel) rfl (by decide), by simp⟩

/-- What a page is told of the site of the first page and another one. -/
def leadBindings (config : Config) (second page : Page) : Fields :=
  ((unlinked [leadPage, second]).summary { page, parent? := none, children := [] }).insert "site"
    ((smallSite config).value (unlinked [leadPage, second]))

/-- The two pages, with what they are told. -/
def leadJobs (config : Config) (second : Page) : List (Page × Fields) :=
  [leadPage, second].map fun page => (page, leadBindings config second page)

/-- What is noted down before the two pages are built. -/
def announced (second : Page) (work : Workspace) : Workspace :=
  noting (noting (noting (noting work []) []) []) ((unlinked [leadPage, second]).tree?.toList.map .pageTree)

/-- The files once the two pages are built. -/
def builtBoth (config : Config) (second : Page) (work : Workspace) : FileSystem :=
  (forEach (fun job => (smallSite config).renderPage job.1 job.2) (leadJobs config second) (announced second work)).2.fs

theorem targets_second : ∀ page ∈ [secondPage, headedPage],
    roundaboutSite.targets page = [⟨"b.html"⟩, ⟨"b.html"⟩] := by
  simp only [List.forall_mem_cons]
  exact ⟨targets_barePage "b.html" "B" _ _ (by decide) rfl, targets_barePage "b.html" "B" _ _ (by decide) rfl,
    by simp⟩

section Lead

variable {config : Config} {work : Workspace} {second : Page} (among : second ∈ [secondPage, headedPage])
  (read : (smallSite config).readPages work.fs bareScan.pages = ([leadPage, second], []))

include among read

theorem jobsOf_lead : (smallSite config).jobsOf work.fs bareScan = leadJobs config second := by
  rw [jobsOf, read, ofPages_leadPage second among]
  rfl

theorem fs_renderAll_lead (scanned : (smallSite config).scan work.fs = .ok bareScan) :
    ((smallSite config).renderAll work).2.fs = builtBoth config second work := by
  obtain ⟨copied, fallen, built, done, first, second, third, fourth, stages⟩ :=
    exists_stages (smallSite config) bareScan work
  rw [renderAll_eq scanned]
  refine stages.fs_eq.trans ?_
  obtain ⟨copies, fallbacks, pages, links⟩ := stages
  rw [read] at fallbacks pages
  rw [ofPages_leadPage _ among] at pages
  cases copies
  cases fallbacks
  cases links
  exact (congrArg (·.2.fs) pages).symm

theorem apart_lead : ((smallSite config).entryTargets work.fs bareScan).Pairwise fun targets others =>
    ∀ target ∈ targets, ∀ elsewhere ∈ others, target.Apart elsewhere := by
  have first : roundaboutSite.targets leadPage = [⟨"a.html"⟩, ⟨"a.html"⟩] :=
    targets_barePage "a.html" "A" _ _ (by decide) rfl
  have targets : (smallSite config).entryTargets work.fs bareScan =
      [roundaboutSite.targets leadPage, roundaboutSite.targets second] := by
    rw [entryTargets, Site.unread, jobsOf_lead among read, read]
    rfl
  have away : Path.Apart ⟨"a.html"⟩ ⟨"b.html"⟩ := by
    unfold Path.Apart
    decide
  rw [targets, first, targets_second second among]
  simp [away]

/-- The second page ends up elsewhere. -/
theorem elsewhere_lead : Elsewhere (smallSite config) bareScan ["s", "_build"] work ⟨"/s/a.html"⟩ ["s", "a.html"]
    ["s", "_build", "b.html"] where
  source := by decide
  copy := by
    have copy : Location.down ["s", "_build"] ((smallSite config).within ⟨"/s/a.html"⟩) = ["s", "_build", "a.html"] :=
      down_bare "a.html" (by decide) rfl config
    rw [copy]
    decide
  built job member own := by
    rw [jobsOf_lead among read] at member
    simp only [leadJobs, List.map_cons, List.map_nil, List.mem_cons, List.not_mem_nil, or_false] at member
    obtain rfl | rfl := member
    · have down : Location.down ["s", "_build"] leadPage.outputFile = ["s", "_build", "a.html"] := by decide
      rw [down]
      decide
    · have other : ∀ page ∈ [secondPage, headedPage], page.sourceFile ≠ ⟨"/s/a.html"⟩ := by decide
      exact absurd own (other second among)

end Lead

/-- Pages have no influence on other places, if something more is given. -/
def OthersStay (given : Site → Scan → Location → Workspace → Workspace → Path → Location → Prop) : Prop :=
  ∀ (site : Site) (scan : Scan) (output : Location) (work : Workspace) (file : Path) (origin : Location)
    (content content' : Bytes) (time time' : Time),
    Revision site scan output work file origin content content' time →
      given site scan output work (work.edit origin content' time') file origin →
        ∀ place, Elsewhere site scan output work file origin place →
          LeavesAlike site work (work.edit origin content' time') place

theorem not_leavesAlike {site : Site} {work edited : Workspace} {place : Location} {content content' : Bytes}
    {time time' : Time} (left : (site.renderAll work).2.fs.get? place = some (.file content time))
    (right : (site.renderAll edited).2.fs.get? place = some (.file content' time')) (different : content ≠ content') :
    ¬LeavesAlike site work edited place := by
  intro alike
  have same := (alike (.file content time) (by simp)).mp left
  rw [right] at same
  cases same
  exact different rfl

/-! ### A link to the page -/

section Followed

/-- A page, and a link to it. -/
def linkedPages : FileSystem where
  entries :=
    [(["s"], .directory 0), (["s", "a.html"], .file (Text.Utf8.encode "y") 1), (["s", "b.html"], .link ⟨"a.html"⟩)]
  now := 9
  workingDirectory := []

def retouched : Workspace := Workspace.edit { fs := linkedPages } ["s", "a.html"] (Text.Utf8.encode "w") 1

/-- Links are followed. -/
def following : Config := { verbatimLinks := false }

theorem tidy_linkedPages : linkedPages.Tidy := by
  refine FileSystem.tidy_of_entries ?_ (by decide)
  simp only [linkedPages, List.forall_mem_cons]
  exact ⟨⟨0, rfl⟩, ⟨0, rfl⟩, ⟨0, rfl⟩, by simp⟩

theorem scan_linkedPages : (smallSite following).scan linkedPages = .ok bareScan := by
  have names : linkedPages.names ["s"] = ["a.html", "b.html"] := FileSystem.names_of_ordered rfl (by decide)
  have found (name : String) (member : name ∈ ["a.html", "b.html"]) :
      walkUnder linkedPages (smallSite following).rule 3 ⟨["s"], Location.path ["s"]⟩ [] name =
        [.file (Location.path ["s", name])] := by
    have kept : ∀ name ∈ ["a.html", "b.html"], name.toList.head? ≠ some '.' ∧
        (Location.path ["s"]).join ⟨name⟩ = Location.path ["s", name] ∧
        ((Location.path ["s", name]).same (smallSite following).templateDirectory ||
          (Location.path ["s", name]).same (smallSite following).outputDirectory) = false := by decide
    have visited : ∀ name ∈ ["a.html", "b.html"], visit linkedPages (smallSite following).rule
        [⟨["s"], Location.path ["s"]⟩] ["s", name] (Location.path ["s", name]) = .file := by decide
    obtain ⟨undotted, path, inside⟩ := kept name member
    have skip : (smallSite following).rule.skip name (Location.path ["s", name]) = _ :=
      leavesOut_eq (smallSite following) undotted _
    simp only [walkUnder, path, List.cons_append, List.nil_append, visited name member, skip, inside,
      Bool.false_eq_true, if_false]
  rw [(rooted_smallSite following).scan_eq tidy_linkedPages ⟨0, rfl⟩, FileSystem.levels, walkDirectory_succ, names]
  refine congrArg Except.ok (Eq.trans (congrArg _ ?_) (ofFindings_bare rfl))
  exact (List.flatMap_congr found).trans rfl

theorem readPages_linkedPages :
    (smallSite following).readPages linkedPages bareScan.pages = ([leadPage, secondPage], []) :=
  readPages_pair rfl rfl rfl rfl readMeta_none readMeta_none rfl rfl

theorem revision_linkedPages : Revision (smallSite following) bareScan ["s", "_build"] { fs := linkedPages }
    ⟨"/s/a.html"⟩ ["s", "a.html"] (Text.Utf8.encode "y") (Text.Utf8.encode "w") 1 where
  tidy := tidy_linkedPages
  distinct := by decide
  prepared := ⟨_, _, _, prepare_smallSite rfl rfl rfl rfl⟩
  scanned := scan_linkedPages
  grounded := fun path template cached => by cases cached
  lies := lies_bare rfl rfl rfl
  absent := fun found there => by
    have missing : linkedPages.find false ⟨"/s/_build"⟩ = .error .notFound := rfl
    cases missing.symm.trans there
  links := fun place target link => by
    have some_name : place ≠ [] := by
      rintro rfl
      cases link
    have among := FileSystem.mem_entries_of_get? some_name link
    simp only [linkedPages, List.mem_cons, Prod.mk.injEq, reduceCtorEq, and_false, false_or, List.not_mem_nil,
      or_false, Entry.link.injEq] at among
    rw [among.2]
    decide
  listed := by simp [bareScan]
  finds := rfl
  header := rfl
  apart := apart_lead (by simp) readPages_linkedPages

/-- Both pages are written with what the first one holds. -/
theorem get?_linkedPages :
    (builtBoth following secondPage { fs := linkedPages }).get? ["s", "_build", "b.html"] =
        some (.file (Text.Utf8.encode "y") 9) ∧
      (builtBoth following secondPage retouched).get? ["s", "_build", "b.html"] =
        some (.file (Text.Utf8.encode "w") 9) := by
  decide +kernel

/-- Neither of the pages asks for anything. -/
theorem asksElsewhere_following {run : Workspace}
    (read : (smallSite following).readPages run.fs bareScan.pages = ([leadPage, secondPage], [])) {body : Bytes}
    (codeless : mayHoldCode body = false)
    (reads : ∀ page ∈ [leadPage, secondPage], page.readBody run.fs = .ok body) :
    AsksElsewhere (smallSite following) bareScan ["s", "_build"] ["s", "a.html"] run := by
  intro job member asked asks
  rw [jobsOf_lead (by simp) read] at member
  obtain ⟨page, among, rfl⟩ := List.mem_map.mp member
  have bare : ∀ page ∈ [leadPage, secondPage], page.format = .markup ∧ page.layout? following.defaultLayout = none := by
    decide
  obtain ⟨format, bare⟩ := bare page among
  obtain ⟨layout, -, -, -, named, -⟩ := asks.of_codeless (reads page among) format codeless
  cases bare.symm.trans named

theorem influence_through_link : ¬OthersStay fun site scan output work edited _ origin =>
    ∀ run ∈ [work, edited], AsksElsewhere site scan output origin run := by
  intro stay
  have header : Page.readMeta (Text.Utf8.encode "w") = .ok (none, 0) := rfl
  have read : (smallSite following).readPages retouched.fs bareScan.pages = ([leadPage, secondPage], []) :=
    readPages_pair rfl rfl rfl rfl header header rfl rfl
  obtain ⟨before, after⟩ := get?_linkedPages
  rw [← @fs_renderAll_lead following { fs := linkedPages } secondPage (by simp) readPages_linkedPages
    scan_linkedPages] at before
  rw [← @fs_renderAll_lead following retouched secondPage (by simp) read (revision_linkedPages.scan_edit 1)] at after
  refine not_leavesAlike before after (by decide)
    (stay _ _ _ _ _ _ _ _ _ 1 revision_linkedPages ?_ _
      (@elsewhere_lead following { fs := linkedPages } secondPage (by simp) readPages_linkedPages))
  simp only [List.forall_mem_cons]
  refine ⟨@asksElsewhere_following { fs := linkedPages } readPages_linkedPages (Text.Utf8.encode "y") rfl ?_,
    @asksElsewhere_following retouched read (Text.Utf8.encode "w") rfl ?_, by simp⟩
  · simp only [List.forall_mem_cons]
    exact ⟨rfl, rfl, by simp⟩
  · simp only [List.forall_mem_cons]
    exact ⟨rfl, rfl, by simp⟩

end Followed

/-! ### A layout that is the page -/

/-- A page without a header, and a way through the output directory for another page. -/
def laggingPages : FileSystem where
  entries :=
    [(["s", "_templates", "default.html"], .file (Text.Utf8.encode "z") 1), (["s", "_templates"], .directory 0),
      (["s"], .directory 0), (["s", "a.html"], .file (Text.Utf8.encode "y") 0),
      (["s", "b.html"], .file (Text.Utf8.encode "---\n---\nx") 1)]
  now := 9
  workingDirectory := []

theorem tidy_laggingPages : laggingPages.Tidy := by
  refine FileSystem.tidy_of_entries ?_ (by decide)
  simp only [laggingPages, List.forall_mem_cons]
  exact ⟨⟨0, rfl⟩, ⟨0, rfl⟩, ⟨0, rfl⟩, ⟨0, rfl⟩, ⟨0, rfl⟩, by simp⟩

theorem scan_laggingPages {config : Config} (verbatim : config.verbatimLinks = true)
    (standard : config.pageExtensions = PageExtensions.standard) :
    (smallSite config).scan laggingPages = .ok bareScan := by
  have names : laggingPages.names ["s"] = ["_templates", "a.html", "b.html"] :=
    FileSystem.names_of_ordered rfl (by decide)
  have shown : (smallSite {}).shown laggingPages ["s"] ["_templates", "a.html", "b.html"] =
      [.file (Location.path ["s", "a.html"]), .file (Location.path ["s", "b.html"])] := by decide
  have flat : ∀ name ∈ ["_templates", "a.html", "b.html"],
      (laggingPages.get? (["s"] ++ [name])).bind (found? (Location.path (["s"] ++ [name]))) = none →
        (Location.path (["s"] ++ [name])).same (smallSite {}).templateDirectory ∨
          (Location.path (["s"] ++ [name])).same (smallSite {}).outputDirectory := by decide
  rw [(rooted_smallSite config).scan_flat tidy_laggingPages ⟨0, rfl⟩ verbatim names (by decide) flat]
  exact congrArg Except.ok ((congrArg _ shown).trans (ofFindings_bare standard))

theorem readPages_laggingPages {config : Config} (base : config.baseUrl = "/") :
    (smallSite config).readPages laggingPages bareScan.pages = ([leadPage, headedPage], []) :=
  readPages_pair rfl base rfl rfl readMeta_none readMeta_empty rfl rfl

section Lagging

variable (layout : String) {content : Bytes} (header : Page.readMeta content = .ok (none, 0))

include header

theorem revision_laggingPages : Revision (smallSite { defaultLayout := layout }) bareScan ["s", "_build"]
    { fs := laggingPages } ⟨"/s/a.html"⟩ ["s", "a.html"] (Text.Utf8.encode "y") content 0 where
  tidy := tidy_laggingPages
  distinct := by decide
  prepared := ⟨_, _, _, prepare_smallSite rfl rfl rfl rfl⟩
  scanned := scan_laggingPages rfl rfl
  grounded := fun path template cached => by cases cached
  lies := lies_bare rfl rfl rfl
  absent := fun found there => by
    have missing : laggingPages.find false ⟨"/s/_build"⟩ = .error .notFound := rfl
    cases missing.symm.trans there
  links := fun place target link => absurd link (unlinked_of_entries (by simp [laggingPages]) place target)
  listed := by simp [bareScan]
  finds := rfl
  header := header.trans readMeta_none.symm
  apart := apart_lead (by simp) (readPages_laggingPages rfl)

omit header in
theorem alone_laggingPages : Alone bareScan { fs := laggingPages } ⟨"/s/a.html"⟩ ["s", "a.html"] := by
  simp only [Alone, bareScan, List.map_cons, List.map_nil, List.append_nil, List.forall_mem_cons]
  refine ⟨fun same => absurd rfl same, fun _ entry there => ?_, by simp⟩
  have found : laggingPages.find true ⟨"/s/b.html"⟩ =
    .ok (["s", "b.html"], .file (Text.Utf8.encode "---\n---\nx") 1) := rfl
  have here := Except.ok.inj (found.symm.trans there)
  simp at here

theorem readPages_revised (time : Time) : (smallSite { defaultLayout := layout }).readPages
    (Workspace.edit { fs := laggingPages } ["s", "a.html"] content time).fs bareScan.pages =
      ([leadPage, headedPage], []) :=
  ((revision_laggingPages layout header).readPages_edit alone_laggingPages time).trans (readPages_laggingPages rfl)

end Lagging

/-- What the layout of the second page is asked for. -/
def headedCourse (config : Config) (layout : String) (run : Workspace) : Template.Course :=
  Template.Course.ofFile run.fs (smallSite config).shared (smallSite config).includeDepth
    ((smallSite config).layoutFile layout)
    { bindings := (leadBindings config headedPage headedPage).insert "content"
        (.string (Text.Utf8.decodeLossy (Text.Utf8.encode "x"))) }
    run.cache

/-- If the layout of the second page asks for one file only, so does the page. -/
theorem Asks.eq_of_headedPage {config : Config} {work : Workspace} {layout : String} {asked path : Path}
    (asks : (smallSite config).Asks work headedPage (leadBindings config headedPage headedPage) asked)
    (reads : headedPage.readBody work.fs = .ok (Text.Utf8.encode "x"))
    (named : headedPage.layout? config.defaultLayout = some layout)
    (only : (headedCourse config layout work).events.filterMap Template.Event.asked? = [path]) : asked = path := by
  obtain ⟨name, cache, properties, outcome, known, event⟩ := asks.of_codeless reads rfl rfl
  cases named.symm.trans known
  have among := List.mem_filterMap.mpr ⟨_, event, (rfl : Template.Event.asked? _ = some asked)⟩
  have only : (headedCourse config layout work).events.filterMap Template.Event.asked? = [path] := only
  rw [headedCourse] at only
  rw [only] at among
  exact List.mem_singleton.mp among

section Mirrored

/-- Pages with a header are wrapped in the first page. -/
def mirroring : Config := { defaultLayout := "../a" }

def mirroredLayout : Path := ⟨"/s/_templates/../a.html"⟩

def rewritten : Workspace := Workspace.edit { fs := laggingPages } ["s", "a.html"] (Text.Utf8.encode "w") 1

theorem revision_mirrored : Revision (smallSite mirroring) bareScan ["s", "_build"] { fs := laggingPages }
    ⟨"/s/a.html"⟩ ["s", "a.html"] (Text.Utf8.encode "y") (Text.Utf8.encode "w") 0 :=
  revision_laggingPages "../a" rfl

theorem readPages_rewritten :
    (smallSite mirroring).readPages rewritten.fs bareScan.pages = ([leadPage, headedPage], []) :=
  readPages_revised "../a" rfl 1

/-- The second page is what the first one is, and asks for nothing more. -/
theorem builtBoth_mirroring :
    ((builtBoth mirroring headedPage { fs := laggingPages }).get? ["s", "_build", "b.html"] =
        some (.file (Text.Utf8.encode "y") 9) ∧
      (headedCourse mirroring "../a" { fs := laggingPages }).events.filterMap Template.Event.asked? =
        [mirroredLayout]) ∧
      (builtBoth mirroring headedPage rewritten).get? ["s", "_build", "b.html"] =
        some (.file (Text.Utf8.encode "w") 9) ∧
      (headedCourse mirroring "../a" rewritten).events.filterMap Template.Event.asked? = [mirroredLayout] := by
  decide +kernel

/-- The first page asks for nothing, and the second one for the first one. -/
theorem asked_mirrored (run : Workspace) (body : Bytes) {entry : Entry}
    (read : (smallSite mirroring).readPages run.fs bareScan.pages = ([leadPage, headedPage], []))
    (reads : leadPage.readBody run.fs = .ok body) (codeless : mayHoldCode body = false)
    (reads' : headedPage.readBody run.fs = .ok (Text.Utf8.encode "x"))
    (only : (headedCourse mirroring "../a" run).events.filterMap Template.Event.asked? = [mirroredLayout])
    (finds : run.fs.find true (mirroredLayout.absolute run.fs.here) = .ok (["s", "a.html"], entry)) :
    ∀ job ∈ (smallSite mirroring).jobsOf run.fs bareScan, ∀ asked, (smallSite mirroring).Asks run job.1 job.2 asked →
      run.fs.KeepsOff ["s", "_build"] (asked.absolute run.fs.here) ∧
        ∀ entry, run.fs.find true (asked.absolute run.fs.here) = .ok (["s", "a.html"], entry) →
          ∃ layout, job.1.layout? mirroring.defaultLayout = some layout ∧
            asked = (smallSite mirroring).layoutFile layout := by
  rw [jobsOf_lead (by simp) read, leadJobs]
  simp only [List.map_cons, List.map_nil, List.forall_mem_cons]
  refine ⟨fun asked asks => ?_, fun asked asks => ?_, by simp⟩
  · obtain ⟨layout, -, -, -, named, -⟩ := asks.of_codeless reads rfl codeless
    cases named
  · obtain rfl := asks.eq_of_headedPage reads' rfl only
    exact ⟨FileSystem.keepsOff_of_find finds (by decide), fun _ _ => ⟨"../a", rfl, rfl⟩⟩

theorem influence_through_layout : ¬OthersStay fun site scan output work edited file origin =>
    Alone scan work file origin ∧ ∀ run ∈ [work, edited], ∀ job ∈ site.jobsOf run.fs scan, ∀ asked,
      site.Asks run job.1 job.2 asked → run.fs.KeepsOff output (asked.absolute run.fs.here) ∧
        ∀ entry, run.fs.find true (asked.absolute run.fs.here) = .ok (origin, entry) →
          ∃ layout, job.1.layout? site.config.defaultLayout = some layout ∧ asked = site.layoutFile layout := by
  intro stay
  have read : (smallSite mirroring).readPages laggingPages bareScan.pages = ([leadPage, headedPage], []) :=
    readPages_laggingPages rfl
  obtain ⟨⟨before, only⟩, after, only'⟩ := builtBoth_mirroring
  rw [← @fs_renderAll_lead mirroring { fs := laggingPages } headedPage (by simp) read revision_mirrored.scanned]
    at before
  rw [← @fs_renderAll_lead mirroring rewritten headedPage (by simp) readPages_rewritten (revision_mirrored.scan_edit 1)]
    at after
  refine not_leavesAlike before after (by decide) (stay _ _ _ _ _ _ _ _ _ 1 revision_mirrored ⟨alone_laggingPages, ?_⟩ _
    (@elsewhere_lead mirroring { fs := laggingPages } headedPage (by simp) read))
  simp only [List.forall_mem_cons]
  exact ⟨asked_mirrored { fs := laggingPages } (Text.Utf8.encode "y") read rfl rfl rfl only rfl,
    asked_mirrored rewritten (Text.Utf8.encode "w") readPages_rewritten rfl rfl rfl only' rfl, by simp⟩

end Mirrored

/-! ### A layout by way of the output directory -/

/-- The moment of a build at which the next page is built, after those before it. -/
def moment (site : Site) (scan : Scan) (work : Workspace) (before : List (Page × Fields)) : Workspace :=
  let copied := (forEach site.copyVerbatim scan.files work).2
  let fallen := (forEach site.copyInstead (site.unread work.fs scan) copied).2
  (forEach (fun job => site.renderPage job.1 job.2) before fallen).2

/-- A page that cannot be evaluated is copied if it is newer than its copy. -/
theorem renderPage_of_failed {site : Site} {page : Page} {bindings : Fields} {work : Workspace}
    {destination : Path} {stale : Bool} (failed : (site.pageOutput page bindings work).1.toOption = none)
    (place : site.placeOf page.sourceFile = destination)
    (known : work.fs.isStale page.sourceFile destination = .ok stale) :
    (site.renderPage page bindings work).2 =
      { fs := if stale then (FileSystem.copyFile page.sourceFile destination work.fs).2 else work.fs
        cache := (site.pageOutput page bindings work).2.cache
        log := (site.renderPage page bindings work).2.log } := by
  have reads := reads_pageOutput site page bindings work
  cases evaluated : site.pageOutput page bindings work with
  | mk result after =>
      rw [evaluated] at failed reads
      have reads : after.fs = work.fs := reads
      cases result with
      | ok bytes => cases failed
      | error error =>
          rw [← reads] at known ⊢
          simp only [renderPage_apply, buildPage_apply, evaluated, copyInstead_apply, place, known]
          cases stale with
          | false => rfl
          | true =>
              dsimp only
              cases FileSystem.copyFile page.sourceFile destination after.fs with
              | mk copied fs => cases copied <;> rfl

section Awaited

/-- The first page is as old as the epoch, and cannot be built. -/
def brokenPages : FileSystem := (Workspace.edit { fs := laggingPages } ["s", "a.html"] brokenBody 0).fs

/-- Where the pages are built, once without and once with what is noted down before. -/
def starts (fs : FileSystem) : List Workspace := [{ fs }, announced headedPage { fs }]

theorem mem_starts (fs : FileSystem) : { fs } ∈ starts fs := List.mem_cons_self

theorem announced_mem_starts (fs : FileSystem) : announced headedPage { fs } ∈ starts fs :=
  List.mem_cons_of_mem _ List.mem_cons_self

/-- The first page leaves nothing behind if it is broken. -/
def afterBroken (start : Workspace) : Workspace where
  fs := brokenPages
  cache := ((smallSite roundabout).pageOutput leadPage (leadBindings roundabout headedPage leadPage) start).2.cache
  log := ((smallSite roundabout).renderPage leadPage (leadBindings roundabout headedPage leadPage) start).2.log

theorem placeOf_smallSite (name : String) (proper : Path.Proper name) :
    (smallSite roundabout).placeOf (Location.path ["s", name]) = Location.path ["s", "_build", name] :=
  (rooted_smallSite roundabout).placeOf_path (List.cons_ne_nil name []) (by simpa [Plain] using proper)

/-- What is there when the second page is built, if the first one is not broken. -/
def afterLead : Workspace :=
  ((smallSite roundabout).renderPage leadPage (leadBindings roundabout headedPage leadPage) { fs := laggingPages }).2

/-- With the output directory, the layout is found where templates are. -/
theorem builtBoth_laggingPages :
    (builtBoth roundabout headedPage { fs := laggingPages }).get? ["s", "_build", "b.html"] =
        some (.file (Text.Utf8.encode "z") 9) ∧
      (headedPage.readBody afterLead.fs).toOption = some (Text.Utf8.encode "x") ∧
      (headedCourse roundabout "../_build/../_templates/default" afterLead).events.filterMap
        Template.Event.asked? = [roundaboutLayout] ∧
      (afterLead.fs.find true (roundaboutLayout.absolute afterLead.fs.here)).toOption.map (·.1) =
        some ["s", "_templates", "default.html"] := by
  decide +kernel

/-- Without it, neither page can be built. -/
theorem pageOutput_brokenPages :
    (∀ start ∈ starts brokenPages,
      ((smallSite roundabout).pageOutput leadPage (leadBindings roundabout headedPage leadPage)
        start).1.toOption = none ∧
      ((smallSite roundabout).pageOutput headedPage (leadBindings roundabout headedPage headedPage)
        (afterBroken start)).1.toOption = none) ∧
      (headedCourse roundabout "../_build/../_templates/default"
        (afterBroken { fs := brokenPages })).events.filterMap Template.Event.asked? = [roundaboutLayout] ∧
      (brokenPages.find true (roundaboutLayout.absolute brokenPages.here)).toOption = none := by
  decide +kernel

section Start

variable {start : Workspace} (among : start ∈ starts brokenPages)

include among

theorem renderPage_leadPage :
    ((smallSite roundabout).renderPage leadPage (leadBindings roundabout headedPage leadPage) start).2 =
      afterBroken start := by
  have source : leadPage.sourceFile = Location.path ["s", "a.html"] := rfl
  have files : ∀ start ∈ starts brokenPages, start.fs = brokenPages := by
    rintro start (_ | ⟨_, _ | ⟨_, none⟩⟩)
    · rfl
    · rfl
    · cases none
  have stale : brokenPages.isStale leadPage.sourceFile (Location.path ["s", "_build", "a.html"]) = .ok false := by
    decide
  have rendered := renderPage_of_failed (pageOutput_brokenPages.1 start among).1
    (source ▸ placeOf_smallSite "a.html" (by decide)) ((files start among).symm ▸ stale)
  rw [files start among, if_neg Bool.false_ne_true] at rendered
  exact rendered

/-- The second page is copied. -/
theorem get?_afterBroken :
    ((smallSite roundabout).renderPage headedPage (leadBindings roundabout headedPage headedPage)
      (afterBroken start)).2.fs.get? ["s", "_build", "b.html"] =
        some (.file (Text.Utf8.encode "---\n---\nx") 9) := by
  have source : headedPage.sourceFile = Location.path ["s", "b.html"] := rfl
  have stale : brokenPages.isStale headedPage.sourceFile (Location.path ["s", "_build", "b.html"]) = .ok true := by
    decide
  have copied : (FileSystem.copyFile headedPage.sourceFile (Location.path ["s", "_build", "b.html"])
      brokenPages).2.get? ["s", "_build", "b.html"] = some (.file (Text.Utf8.encode "---\n---\nx") 9) := by
    rw [FileSystem.copyFile, makeParent_sample _ (by decide)]
    rfl
  rw [renderPage_of_failed (pageOutput_brokenPages.1 start among).2
    (source ▸ placeOf_smallSite "b.html" (by decide)) stale, if_pos rfl]
  exact copied

end Start

theorem get?_brokenPages :
    (builtBoth roundabout headedPage { fs := brokenPages }).get? ["s", "_build", "b.html"] =
      some (.file (Text.Utf8.encode "---\n---\nx") 9) := by
  have copied := get?_afterBroken (announced_mem_starts brokenPages)
  rw [← renderPage_leadPage (announced_mem_starts brokenPages)] at copied
  exact copied

theorem revision_awaited : Revision (smallSite roundabout) bareScan ["s", "_build"] { fs := laggingPages }
    ⟨"/s/a.html"⟩ ["s", "a.html"] (Text.Utf8.encode "y") brokenBody 0 :=
  revision_laggingPages "../_build/../_templates/default" rfl

theorem readPages_brokenPages :
    (smallSite roundabout).readPages brokenPages bareScan.pages = ([leadPage, headedPage], []) :=
  readPages_revised "../_build/../_templates/default" rfl 0

section Moments

variable {run : Workspace}
  (read : (smallSite roundabout).readPages run.fs bareScan.pages = ([leadPage, headedPage], []))

include read

theorem moment_bareScan (before : List (Page × Fields)) : (smallSite roundabout).moment bareScan run before =
    (forEach (fun job => (smallSite roundabout).renderPage job.1 job.2) before run).2 := by
  rw [moment, Site.unread, read]
  rfl

/-- The first page asks for nothing, and the second one for what is no page. -/
theorem asked_awaited {built : Workspace}
    (silent : ∀ asked, ¬(smallSite roundabout).Asks run leadPage (leadBindings roundabout headedPage leadPage) asked)
    (ran : ((smallSite roundabout).renderPage leadPage (leadBindings roundabout headedPage leadPage) run).2 = built)
    (reads : headedPage.readBody built.fs = .ok (Text.Utf8.encode "x"))
    (only : (headedCourse roundabout "../_build/../_templates/default" built).events.filterMap
      Template.Event.asked? = [roundaboutLayout])
    (finds : ∀ place entry, built.fs.find true (roundaboutLayout.absolute built.fs.here) = .ok (place, entry) →
      place = ["s", "_templates", "default.html"])
    {before behind : List (Page × Fields)} {job : Page × Fields}
    (split : (smallSite roundabout).jobsOf run.fs bareScan = before ++ job :: behind) {asked : Path} {place : Location}
    {entry : Entry}
    (asks : (smallSite roundabout).Asks ((smallSite roundabout).moment bareScan run before) job.1 job.2 asked)
    (found : ((smallSite roundabout).moment bareScan run before).fs.find true
      (asked.absolute ((smallSite roundabout).moment bareScan run before).fs.here) = .ok (place, entry)) :
    ¬["s", "_build"] <+: place ∧ place ≠ ["s", "a.html"] := by
  rw [jobsOf_lead (by simp) read, leadJobs] at split
  rw [moment_bareScan read] at asks found
  rcases before with _ | ⟨first, _ | ⟨second, rest⟩⟩
  · -- before the first page nothing is built
    obtain ⟨rfl, -⟩ := List.cons_eq_cons.mp split
    exact absurd asks (silent asked)
  · obtain ⟨rfl, next⟩ := List.cons_eq_cons.mp split
    obtain ⟨rfl, -⟩ := List.cons_eq_cons.mp next
    have now : (forEach (fun job => (smallSite roundabout).renderPage job.1 job.2)
        [(leadPage, leadBindings roundabout headedPage leadPage)] run).2 = built := ran
    rw [now] at asks found
    obtain rfl := asks.eq_of_headedPage reads rfl only
    rw [finds place entry found]
    decide
  · have long := congrArg List.length split
    simp at long

end Moments

theorem influence_through_output : ¬OthersStay fun site scan output work edited file origin =>
    Alone scan work file origin ∧ ∀ run ∈ [work, edited], ∀ before job behind,
      site.jobsOf run.fs scan = before ++ job :: behind →
        ∀ asked, site.Asks (site.moment scan run before) job.1 job.2 asked → ∀ place entry,
          (site.moment scan run before).fs.find true (asked.absolute (site.moment scan run before).fs.here) =
            .ok (place, entry) → ¬output <+: place ∧ place ≠ origin := by
  intro stay
  have read : (smallSite roundabout).readPages laggingPages bareScan.pages = ([leadPage, headedPage], []) :=
    readPages_laggingPages rfl
  obtain ⟨before, reads, only, finds⟩ := builtBoth_laggingPages
  obtain ⟨-, only', missing⟩ := pageOutput_brokenPages
  have after := get?_brokenPages
  have reads : headedPage.readBody afterLead.fs = .ok (Text.Utf8.encode "x") := by
    cases body : headedPage.readBody afterLead.fs with
    | error error =>
        rw [body] at reads
        cases reads
    | ok bytes =>
        rw [body] at reads
        exact congrArg Except.ok (Option.some.inj reads)
  rw [← @fs_renderAll_lead roundabout { fs := laggingPages } headedPage (by simp) read revision_awaited.scanned]
    at before
  rw [← @fs_renderAll_lead roundabout { fs := brokenPages } headedPage (by simp) readPages_brokenPages
    (revision_awaited.scan_edit 0)] at after
  refine not_leavesAlike before after (by decide) (stay _ _ _ _ _ _ _ _ _ 0 revision_awaited ⟨alone_laggingPages, ?_⟩ _
    (@elsewhere_lead roundabout { fs := laggingPages } headedPage (by simp) read))
  simp only [List.forall_mem_cons]
  refine ⟨fun before job behind split asked asks place entry found => ?_,
    fun before job behind split asked asks place entry found => ?_, by simp⟩
  · refine @asked_awaited { fs := laggingPages } read afterLead (fun asked asks => ?_) rfl reads only
      (fun place entry there => ?_) _ _ _ split _ _ _ asks found
    · have body : leadPage.readBody laggingPages = .ok (Text.Utf8.encode "y") := rfl
      obtain ⟨layout, -, -, -, named, -⟩ := asks.of_codeless body rfl rfl
      cases named
    · rw [there] at finds
      exact Option.some.inj finds
  · refine @asked_awaited { fs := brokenPages } readPages_brokenPages (afterBroken { fs := brokenPages })
      (fun asked => ?_) (renderPage_leadPage (mem_starts brokenPages)) rfl only' (fun place entry there => ?_) _ _ _
      split _ _ _ asks found
    · obtain ⟨error, broken⟩ := compile_brokenBody leadPage.sourceFile.text (by decide)
      have body : leadPage.readBody brokenPages = .ok brokenBody := rfl
      exact not_asks_of_broken body rfl rfl broken
    · have there : brokenPages.find true (roundaboutLayout.absolute brokenPages.here) = .ok (place, entry) := there
      rw [there] at missing
      cases missing

end Awaited

/-- The body of a page has an influence on others if they are read from the same file, if it is a layout, or if it is
to make the output directory that the way to a layout leads through. -/
theorem body_influences_other_pages :
    (¬OthersStay fun site scan output work edited _ origin =>
        ∀ run ∈ [work, edited], AsksElsewhere site scan output origin run) ∧
      (¬OthersStay fun site scan output work edited file origin =>
        Alone scan work file origin ∧ ∀ run ∈ [work, edited], ∀ job ∈ site.jobsOf run.fs scan, ∀ asked,
          site.Asks run job.1 job.2 asked → run.fs.KeepsOff output (asked.absolute run.fs.here) ∧
            ∀ entry, run.fs.find true (asked.absolute run.fs.here) = .ok (origin, entry) →
              ∃ layout, job.1.layout? site.config.defaultLayout = some layout ∧ asked = site.layoutFile layout) ∧
      ¬OthersStay fun site scan output work edited file origin =>
        Alone scan work file origin ∧ ∀ run ∈ [work, edited], ∀ before job behind,
          site.jobsOf run.fs scan = before ++ job :: behind →
            ∀ asked, site.Asks (site.moment scan run before) job.1 job.2 asked → ∀ place entry,
              (site.moment scan run before).fs.find true (asked.absolute (site.moment scan run before).fs.here) =
                .ok (place, entry) → ¬output <+: place ∧ place ≠ origin :=
  ⟨influence_through_link, influence_through_layout, influence_through_output⟩

end Sample

end Site

end StaticSite
