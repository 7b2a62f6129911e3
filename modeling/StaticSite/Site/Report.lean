import StaticSite.Site.Scan
import StaticSite.Site.Links
import StaticSite.Template.Error

/-!
What a build says: its errors, what it notes down while it goes on, and what it did in the end.
-/

namespace StaticSite

inductive BuildError
  | missingSource (directory : Path)
  | scan (directory : Path) (error : WalkError)
  | io (path : Path) (error : IoError)
  | page (error : Page.Error)
  | template (error : Template.Error)

def BuildError.message : BuildError → String
  | .missingSource directory => "source directory " ++ directory.text ++ " does not exist"
  | .scan directory error => "failed to scan " ++ directory.text ++ ": " ++ error.message
  | .io path error => path.text ++ ": " ++ error.message
  | .page error => error.message
  | .template error => error.message

/-- What is noted down during a build. Paths of sources are seen from the source directory. -/
inductive Notice
  | skipped (error : WalkError)
  | neverClosedHeader (page : Path)
  | pageFailed (page : Path) (error : BuildError)
  | copyFailed (file : Path) (error : BuildError)
  | linkFailed (link : Path) (error : IoError)
  | conflict (found : Conflict)
  | pageTree (tree : String)
  | fallbacks (count : Nat)

namespace Notice

inductive Level
  | error
  | warning
  | debug
deriving DecidableEq, Repr

def Level.text : Level → String
  | .error => "ERROR"
  | .warning => "WARN"
  | .debug => "DEBUG"

def level : Notice → Level
  | .skipped _ => .error
  | .neverClosedHeader _ => .warning
  | .pageFailed _ _ => .error
  | .copyFailed _ _ => .error
  | .linkFailed _ _ => .error
  | .conflict _ => .warning
  | .pageTree _ => .debug
  | .fallbacks _ => .warning

def message : Notice → String
  | .skipped error => "skipping " ++ error.message
  | .neverClosedHeader page =>
    "suspicious: " ++ page.text ++ " starts with \"---\" but has no closing \"---\" line; " ++
      "treating it as a verbatim file"
  | .pageFailed page error =>
    "failed to build page " ++ page.text ++ ": " ++ error.message ++ "; copying verbatim"
  | .copyFailed file error => "failed to copy " ++ file.text ++ ": " ++ error.message
  | .linkFailed link error => "failed to link " ++ link.text ++ ": " ++ error.message
  | .conflict found =>
    "Conflict: output file " ++ found.outputFile.text ++ " generated by both " ++
      found.first.text ++ " and " ++ found.second.text
  | .pageTree tree => "page tree:\n" ++ tree
  | .fallbacks count =>
    toString count ++ " pages could not be built and were copied verbatim"

/-- A notice as a line of a log. -/
def line (notice : Notice) : String := notice.level.text ++ " " ++ notice.message

end Notice

/-- What became of one file. -/
inductive Outcome
  | written
  | copied
  /-- The copy was up to date. -/
  | unchanged
  /-- A page was copied instead of built. -/
  | fallback
  | linked
  | failed
deriving DecidableEq, Repr

/-- How many files a build treated in which way. -/
structure Summary where
  pages : Nat
  copied : Nat
  links : Nat
  fallbacks : Nat
  failed : Nat
deriving DecidableEq, Repr

/-- The summary of what became of all files, and of the places that could not be visited. -/
def Summary.ofOutcomes (outcomes : List Outcome) (unvisited : Nat) : Summary :=
  { pages := outcomes.count .written
    copied := outcomes.count .copied
    links := outcomes.count .linked
    fallbacks := outcomes.count .fallback
    failed := outcomes.count .failed + unvisited }

end StaticSite
