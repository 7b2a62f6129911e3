import StaticSite.Site.Config
import StaticSite.FileSystem.Basic

/-!
Finding the files of a site. The walk visits each directory in the order of its names, a directory
before what is in it. Links are either reported as such or followed; a followed link that leads back to
a directory that the walk is in is an error of its own.
-/

namespace StaticSite

/-- Why a place cannot be visited. -/
inductive WalkError
  | io (path : Path) (error : IoError)
  /-- A followed link leads to a directory that it lies below. -/
  | loop (child ancestor : Path)
deriving DecidableEq, Repr

def WalkError.message : WalkError → String
  | .io path error => "IO error for operation on " ++ path.text ++ ": " ++ error.message
  | .loop child ancestor =>
    "File system loop found: " ++ child.text ++ " points to an ancestor " ++ ancestor.text

/-- What a walk comes across. -/
inductive Finding
  | file (path : Path)
  | link (path : Path)
  | failure (error : WalkError)
deriving DecidableEq, Repr

/-- A directory that a walk is in: where it is, and the path that led there. -/
structure Ancestor where
  location : Location
  path : Path

/-- How a walk goes about links, and what it leaves out together with all below it. -/
structure WalkRule where
  follow : Bool
  skip : (name : String) → Path → Bool

/-- What an entry of a directory is for a walk. -/
inductive Visit
  | file
  | link
  | directory (location : Location)
  | failure (error : WalkError)
deriving DecidableEq, Repr

/-- Looks at an entry, and through it if it is a link to follow. -/
def visit (fs : FileSystem) (rule : WalkRule) (ancestors : List Ancestor) (location : Location)
    (path : Path) : Visit :=
  match fs.get? location with
  | some (.directory _) => .directory location
  | some (.file _ _) => .file
  | none => .failure (.io path .notFound)
  | some (.link _) =>
    if !rule.follow then .link
    else
      match fs.find true path with
      | .error error => .failure (.io path error)
      | .ok (target, .directory _) =>
        match ancestors.find? (·.location == target) with
        | some ancestor => .failure (.loop path ancestor.path)
        | none => .directory target
      | .ok _ => .file

/-- What lies in a directory, which is the first of the ancestors, at most `depth` levels down. -/
def walkDirectory (fs : FileSystem) (rule : WalkRule) : Nat → Ancestor → List Ancestor → List Finding
  | 0, _, _ => []
  | depth + 1, directory, above =>
    (fs.names directory.location).flatMap fun name =>
      let path := directory.path.join ⟨name⟩
      match visit fs rule (directory :: above) (directory.location ++ [name]) path with
      | .failure error => [.failure error]
      | .file => if rule.skip name path then [] else [.file path]
      | .link => if rule.skip name path then [] else [.link path]
      | .directory location =>
        if rule.skip name path then []
        else walkDirectory fs rule depth ⟨location, path⟩ (directory :: above)

/-- The levels that suffice for any walk: no directory is visited below itself. -/
def FileSystem.levels (fs : FileSystem) : Nat := fs.entries.length + 1

/-- The files of a site by what is to be done with them. -/
structure Scan where
  pages : List (Path × String × PageFormat)
  files : List Path
  links : List Path
  failures : List WalkError

/-- What findings amount to. -/
def Scan.ofFindings (config : Config) (findings : List Finding) : Scan :=
  let files := findings.filterMap fun
    | .file path => some path
    | _ => none
  { pages := files.filterMap fun path =>
      (config.pageFormat? path).map fun (extension, format) => (path, extension, format)
    files := files.filter fun path => (config.pageFormat? path).isNone
    links := findings.filterMap fun
      | .link path => some path
      | _ => none
    failures := findings.filterMap fun
      | .failure error => some error
      | _ => none }

end StaticSite
