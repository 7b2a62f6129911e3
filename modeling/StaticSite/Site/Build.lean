import StaticSite.Site.Report
import StaticSite.Template.Eval
import StaticSite.FileSystem.Write
import StaticSite.Markdown.Document

/-!
Building a site. Headers are read first, then other files are copied, then pages whose header cannot be
read are copied as they are, then pages are built, and at last links are recreated. A file that fails is
noted and counted and does not end the build.
-/

namespace StaticSite

open Json (Value Fields)

structure Site where
  config : Config
  /-- An absolute path without links. -/
  sourceDirectory : Path
  outputDirectory : Path
  templateDirectory : Path
  shared : Template.Shared := .standard
  /-- How many templates may include each other at once. -/
  includeDepth : Nat := 1000

/-- What a build changes. -/
structure Workspace where
  fs : FileSystem
  cache : Template.Cache := {}
  log : List Notice := []

abbrev BuildM := StateM Workspace

namespace Site

/-- The site of a source directory, with its other directories as seen from there. -/
def prepare (fs : FileSystem) (config : Config) (sourceDirectory? outputDirectory? : Option Path) :
    Except BuildError Site :=
  let directory := sourceDirectory?.getD config.sourceDirectory
  if !fs.isDirectory directory then .error (.missingSource directory)
  else
    match fs.canonicalize directory with
    | .error error => .error (.io directory error)
    | .ok location =>
      let source := Location.path location
      .ok
        { config
          sourceDirectory := source
          outputDirectory := source.resolve (outputDirectory?.getD config.outputDirectory)
          templateDirectory := source.resolve config.templateDirectory }

/-- What is never part of a site: names that begin with a dot, and the directories that the site is
built from and into. -/
def leavesOut (site : Site) (name : String) (path : Path) : Bool :=
  name.startsWith "." || path.same site.templateDirectory || path.same site.outputDirectory

/-- Finds the files of a site. -/
def scan (site : Site) (fs : FileSystem) : Except WalkError Scan :=
  match fs.find false site.sourceDirectory with
  | .error error => .error (.io site.sourceDirectory error)
  | .ok (location, .directory _) =>
    let rule : WalkRule := { follow := !site.config.verbatimLinks, skip := site.leavesOut }
    let findings := walkDirectory fs rule fs.levels ⟨location, site.sourceDirectory⟩ []
    .ok (Scan.ofFindings site.config findings)
  | .ok (_, .file _ _) => .ok (Scan.ofFindings site.config [.file site.sourceDirectory])
  | .ok (_, .link _) => .ok (Scan.ofFindings site.config [.link site.sourceDirectory])

/-- A source as seen from the source directory. -/
def within (site : Site) (file : Path) : Path := file.relativeTo site.sourceDirectory

/-- Notes something down. -/
def note (notice : Notice) : BuildM Unit :=
  modify fun work => { work with log := work.log ++ [notice] }

/-- Runs a file operation. What it did before it failed stays done. -/
def withFiles {α : Type} (action : FileM α) : BuildM (Except IoError α) := fun work =>
  let (result, fs) := action.run.run work.fs
  (result, { work with fs })

/-- Evaluates a template with the cache of the build. -/
def withTemplates (action : Template.EvalM Unit) : BuildM (Except Template.Error String) :=
  fun work =>
    let (result, cache) := Template.textOf action work.cache
    (result, { work with cache })

/-- Copies a file to the same place below the output directory, if the copy there is older. -/
def attemptCopy (site : Site) (file : Path) : ExceptT BuildError BuildM Outcome := do
  let destination := site.outputDirectory.join (site.within file)
  match (← get).fs.isStale file destination with
  | .error error => throw (.io file error)
  | .ok false => return .unchanged
  | .ok true =>
    match ← withFiles (FileSystem.copyFile file destination) with
    | .error error => throw (.io destination error)
    | .ok _ => return .copied

/-- Copies a file as it is. -/
def copyVerbatim (site : Site) (file : Path) : BuildM Outcome := do
  match ← (site.attemptCopy file).run with
  | .ok outcome => return outcome
  | .error error =>
    note (.copyFailed (site.within file) error)
    return .failed

/-- Copies a page that cannot be built. -/
def copyInstead (site : Site) (file : Path) : BuildM Outcome := do
  match ← site.copyVerbatim file with
  | .failed => return .failed
  | _ => return .fallback

/-- Whether bytes contain two bytes next to each other. -/
def hasPair (first second : UInt8) : Bytes → Bool
  | a :: b :: rest => (a == first && b == second) || hasPair first second (b :: rest)
  | _ => false

/-- Whether a body can hold code at all: it holds both marks. -/
def mayHoldCode (body : Bytes) : Bool := hasPair 0x3C 0x3F body && hasPair 0x3F 0x3E body

/-- Evaluates the body of a page as a template of its own. -/
def evalBody (site : Site) (page : Page) (bindings : Fields) (body : Bytes) :
    ExceptT BuildError BuildM Bytes := do
  match Template.compile (Text.Utf8.decodeLossy body) page.sourceFile.text with
  | .error error => throw (.template error)
  | .ok template =>
    let fs := (← get).fs
    match ← withTemplates
        (Template.evalCompiled fs site.shared site.includeDepth true template { bindings }) with
    | .error error => throw (.template error)
    | .ok text => return Text.Utf8.encode text

/-- The content of a page, not yet wrapped in a layout. -/
def pageContent (site : Site) (page : Page) (bindings : Fields) (body : Bytes) :
    ExceptT BuildError BuildM Bytes :=
  match page.format with
  | .markdown =>
    return Text.Utf8.encode (Markdown.toHtml (Text.Utf8.decodeLossy body) site.config.syntaxTheme)
  | .markup => if mayHoldCode body then site.evalBody page bindings body else return body

/-- The file of a layout. -/
def layoutFile (site : Site) (layout : String) : Path :=
  site.templateDirectory.join ⟨layout ++ ".html"⟩

/-- The content of a page wrapped in a layout, which sees it as one more variable. -/
def wrap (site : Site) (layout : String) (bindings : Fields) (content : Bytes) :
    ExceptT BuildError BuildM Bytes := do
  let bindings := bindings.insert "content" (.string (Text.Utf8.decodeLossy content))
  let fs := (← get).fs
  match ← withTemplates
      (Template.evalFile fs site.shared site.includeDepth (site.layoutFile layout) { bindings }) with
  | .error error => throw (.template error)
  | .ok text => return Text.Utf8.encode text

/-- The bytes of the output file of a page. -/
def pageOutput (site : Site) (page : Page) (bindings : Fields) :
    ExceptT BuildError BuildM Bytes := do
  match page.readBody (← get).fs with
  | .error error => throw (.page error)
  | .ok body =>
    let content ← site.pageContent page bindings body
    match page.layout? site.config.defaultLayout with
    | none => return content
    | some layout => site.wrap layout bindings content

/-- Builds a page and writes it. -/
def buildPage (site : Site) (page : Page) (bindings : Fields) : ExceptT BuildError BuildM Unit := do
  let output ← site.pageOutput page bindings
  let file := site.outputDirectory.join page.outputFile
  match ← withFiles (FileSystem.writeFile file output) with
  | .error error => throw (.io file error)
  | .ok _ => return ()

/-- Builds a page, or copies it if that fails. -/
def renderPage (site : Site) (page : Page) (bindings : Fields) : BuildM Outcome := do
  match ← (site.buildPage page bindings).run with
  | .ok _ => return .written
  | .error error =>
    note (.pageFailed (site.within page.sourceFile) error)
    site.copyInstead page.sourceFile

/-- Recreates a link at the same place below the output directory. -/
def recreateLink (site : Site) (link : Path) : BuildM Outcome := do
  let place := site.within link
  match ← withFiles (FileSystem.copyLink link (site.outputDirectory.join place)) with
  | .ok _ => return .linked
  | .error error =>
    note (.linkFailed place error)
    return .failed

/-- Runs a step for each item in turn. -/
def forEach {α : Type} (step : α → BuildM Outcome) : List α → BuildM (List Outcome)
  | [] => return []
  | item :: rest => do
    let outcome ← step item
    let outcomes ← forEach step rest
    return outcome :: outcomes

/-- Notes each of several things down. -/
def noteAll : List Notice → BuildM Unit
  | [] => return ()
  | notice :: rest => do
    note notice
    noteAll rest

/-- What is said of a page whose header cannot be read. -/
def unreadNotice (site : Site) (file : Path) : Page.Error → Notice
  | .header (.neverClosed _) => .neverClosedHeader (site.within file)
  | error => .pageFailed (site.within file) (.page error)

/-- The pages whose headers can be read, and the other sources with what is wrong with them. -/
def readPages (site : Site) (fs : FileSystem) (sources : List (Path × String × PageFormat)) :
    List Page × List (Path × Page.Error) :=
  let results := sources.map fun (file, extension, format) =>
    (file, Page.read fs site.config site.sourceDirectory file extension format)
  (results.filterMap fun (_, result) => result.toOption,
    results.filterMap fun (file, result) =>
      match result with
      | .ok _ => none
      | .error error => some (file, error))

/-- What templates see of the site. -/
def value (site : Site) (links : Links) : Value :=
  let summaries := links.summaries
  let home := (links.home?.bind (summaries[·]?)).elim .null .object
  .object (Fields.ofList
    [("title", .string site.config.title), ("home", home),
      ("pages", .array (summaries.map .object))])

/-- The pages to build and the variables of each. -/
def jobs (site : Site) (links : Links) : List (Page × Fields) :=
  let whole := site.value links
  (links.pages.zip links.summaries).map fun (linked, summary) =>
    (linked.page, summary.insert "site" whole)

/-- Builds what a scan has found. -/
def buildScan (site : Site) (scan : Scan) : BuildM Summary := do
  noteAll (scan.failures.map .skipped)
  let (pages, unread) := site.readPages (← get).fs scan.pages
  let copies ← forEach site.copyVerbatim scan.files
  noteAll (unread.map fun (file, error) => site.unreadNotice file error)
  let fallbacks ← forEach site.copyInstead (unread.map (·.1))
  let links := Links.ofPages pages
  noteAll (links.conflicts.map .conflict)
  noteAll (links.tree?.toList.map .pageTree)
  let built ← forEach (fun (page, bindings) => site.renderPage page bindings) (site.jobs links)
  let linked ← forEach site.recreateLink scan.links
  let summary := Summary.ofOutcomes (copies ++ fallbacks ++ built ++ linked) scan.failures.length
  if 0 < summary.fallbacks then note (.fallbacks summary.fallbacks)
  return summary

/-- Builds the whole site. Only a source directory that cannot be visited ends the build. -/
def renderAll (site : Site) : BuildM (Except BuildError Summary) := do
  match site.scan (← get).fs with
  | .error error => return .error (.scan site.sourceDirectory error)
  | .ok scan => return .ok (← site.buildScan scan)

end Site

end StaticSite
