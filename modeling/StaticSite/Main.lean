import StaticSite.CommandLine.Run

/-!
The program. It copies the files that a build can look at into a file system of the library, runs the
build there, and copies what has changed back. Links are read as what they lead to. Environment variables
can only be asked for by name, so those of the settings are.
-/

namespace StaticSite

/-- How deep directories are read. The bound also ends links that lead in circles. -/
def readingDepth : Nat := 64

/-- The names of the variables that hold settings. -/
def settingVariables : List String :=
  ["SRCDIR", "OUTDIR", "TEMPLATEDIR", "DEFAULT_LAYOUT", "BASE_URL", "SITE_TITLE",
    "VERBATIM_SYMLINKS", "SYNTAX_THEME", "DEV", "QUIET"].map ("KILN_" ++ ·)

def readEnvironment : IO CommandLine.Environment := do
  let values ← settingVariables.mapM fun name => do
    return (← IO.getEnv name).map fun value => (name, value)
  return values.filterMap id

/-- The location of a path whose `..` are taken as written. -/
def locate (here p : Path) : Location :=
  (here.resolve p).components.filterMap fun component =>
    match component with
    | .name name => some name
    | _ => none

/-- A file system with a file or a directory of the machine, all below it, and the directories above. -/
def readTree (fs : FileSystem) (location : Location) : Nat → IO FileSystem
  | 0 => return fs
  | depth + 1 => do
    let place ← (IO.FS.realPath (Location.path location).text).toBaseIO
    let .ok place := place | return fs
    let .ok about ← place.metadata.toBaseIO | return fs
    let modified := Time.ofSeconds about.modified.sec + about.modified.nsec.toNat
    let above := (List.range location.length).map location.take
    let fs := above.foldl (fun fs upper =>
      if (fs.get? upper).isSome then fs else fs.put upper (.directory 0)) fs
    match about.type with
    | .dir =>
      let names := (← place.readDir).toList.map fun entry => entry.fileName
      names.foldlM (fun fs name => readTree fs (location ++ [name]) depth)
        (fs.put location (.directory modified))
    | _ =>
      let content ← IO.FS.readBinFile place
      return { fs.put location (.file content.toList modified) with now := max fs.now (modified + 1) }

/-- Makes the machine's files those of a file system that grew out of another. -/
def writeChanges (before after : FileSystem) : IO Unit := do
  let changed := after.entries.filter fun (location, entry) => before.get? location != some entry
  for (location, entry) in changed.mergeSort fun a b => decide (a.1.length ≤ b.1.length) do
    let place := (Location.path location).text
    match entry with
    | .directory _ => IO.FS.createDirAll place
    | .file content _ => IO.FS.writeBinFile place ⟨content.toArray⟩
    | .link _ => pure ()

/-- The files that a build can look at, and the site. -/
def readSite (arguments : CommandLine.Arguments) :
    IO (FileSystem × CommandLine.Settings × Except CommandLine.Failure Site) := do
  let here : Path := ⟨(← IO.currentDir).toString⟩
  let environment ← readEnvironment
  let nothing := FileSystem.initial (locate here Path.empty) 1
  let fs ← readTree nothing (locate here arguments.configFile) readingDepth
  match CommandLine.Settings.load fs environment arguments with
  | .error error => throw (IO.userError error.message)
  | .ok settings =>
    let fs ← readTree fs (locate here settings.sourceDirectory) readingDepth
    let output := (here.resolve settings.sourceDirectory).resolve settings.outputDirectory
    let fs ← readTree fs (locate here output) readingDepth
    return (fs, settings, CommandLine.siteOf fs environment arguments)

/-- Whether settings ask for a notice to be shown. -/
def isShown (settings : CommandLine.Settings) (notice : Notice) : Bool :=
  notice.level != .debug || (settings.dev && !settings.quiet)

/-- Builds once. The result says whether all went well. -/
def buildOnce (arguments : CommandLine.Arguments) : IO Bool := do
  let (fs, settings, site?) ← readSite arguments
  let start : Workspace := { fs }
  let (result, work) := match site? with
    | .error failure => (Except.error failure, start)
    | .ok site => CommandLine.buildSite site start
  writeChanges fs work.fs
  for notice in work.log do
    if isShown settings notice then IO.eprintln notice.line
  match result with
  | .ok _ => return true
  | .error failure =>
    IO.eprintln ("Error: " ++ failure.message)
    return false

/-- What of the files a build does not write itself. -/
def sources (arguments : CommandLine.Arguments) : IO (List (Location × Entry)) := do
  let (fs, _, site?) ← readSite arguments
  let output := match site? with
    | .ok site => locate fs.here site.outputDirectory
    | .error _ => fs.workingDirectory
  return fs.entries.filter fun (location, entry) =>
    !output.isPrefixOf location && match entry with
      | .directory _ => false
      | _ => true

/-- Builds whenever the sources have changed, for ever. -/
partial def watch (arguments : CommandLine.Arguments) (last : List (Location × Entry)) : IO Unit := do
  IO.sleep 500
  let now ← sources arguments
  if now != last then
    let _ ← buildOnce arguments
  watch arguments now

end StaticSite

open StaticSite in
def main (args : List String) : IO UInt32 := do
  match CommandLine.parse args with
  | .error error =>
    if error.isAnswer then
      IO.println error.message
      return 0
    else
      IO.eprintln ("error: " ++ error.message)
      return 2
  | .ok arguments =>
    let done ← buildOnce arguments
    match arguments.command with
    | .build => return if done then 0 else 1
    | .watch =>
      watch arguments (← sources arguments)
      return 0
