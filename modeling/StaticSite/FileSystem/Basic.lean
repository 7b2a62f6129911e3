import StaticSite.FileSystem.IoError
import StaticSite.Path.Basic
import StaticSite.Text.Utf8

/-!
A tree of files, directories and links as a finite map from locations to entries, and the walk that
leads from a path to a location. `FileSystem.get?` is the view through which the operations are
described.
-/

namespace StaticSite

/-- A moment in nanoseconds since the epoch; earlier moments are negative. -/
abbrev Time := Int

/-- A number of seconds since the epoch as a moment. -/
def Time.ofSeconds (seconds : Int) : Time := seconds * 1000000000

/-- The names that lead from the root to a place, none of them `.`, `..` or a link. -/
abbrev Location := List String

/-- The path of a location. -/
def Location.path (location : Location) : Path := ⟨"/" ++ "/".intercalate location⟩

inductive Entry
  | directory (modified : Time)
  | file (content : Bytes) (modified : Time)
  | link (target : Path)
deriving DecidableEq

structure FileSystem where
  /-- One entry for each location but the root. -/
  entries : List (Location × Entry)
  /-- The modification time of whatever is written next. -/
  now : Time
  workingDirectory : Location

namespace FileSystem

/-- A file system that holds nothing but the directories on the way to the working directory. -/
def initial (workingDirectory : Location) (now : Time) : FileSystem :=
  { entries := (List.range workingDirectory.length).map fun n =>
      (workingDirectory.take (n + 1), Entry.directory now)
    now, workingDirectory }

/-- The entry at a location. The root is always a directory. -/
def get? (fs : FileSystem) (location : Location) : Option Entry :=
  if location = [] then some (.directory 0)
  else (fs.entries.find? (·.1 == location)).map (·.2)

/-- The file system with an entry put at a location. -/
def put (fs : FileSystem) (location : Location) (entry : Entry) : FileSystem :=
  { fs with entries := (location, entry) :: fs.entries.filter (·.1 != location) }

/-- The file system without the entry at a location. -/
def erase (fs : FileSystem) (location : Location) : FileSystem :=
  { fs with entries := fs.entries.filter (·.1 != location) }

/-- The file system without a location and all below it. -/
def eraseTree (fs : FileSystem) (location : Location) : FileSystem :=
  { fs with entries := fs.entries.filter fun entry => !location.isPrefixOf entry.1 }

/-- The names in a directory, sorted. -/
def names (fs : FileSystem) (directory : Location) : List String :=
  (fs.entries.filterMap fun (location, _) =>
    match location.getLast? with
    | some name => if location.dropLast == directory then some name else none
    | none => none).mergeSort (fun a b => decide (a ≤ b))

/-- The path of the working directory. -/
def here (fs : FileSystem) : Path := Location.path fs.workingDirectory

/-- What is left to walk of a path: its names, with `.` for a slash at the end, which asks for a
directory. -/
def todo (p : Path) : List String :=
  let parts := (Path.pieces p.text.toList).map String.ofList
  parts.filter (· != "") ++ (if parts.getLast? == some "" then ["."] else [])

/-- Where the walk of a path without following any link ends. -/
inductive Leg
  | reached (location : Location)
  | failed (error : IoError)
  /-- A link stands in the way, in a directory, with names left to walk behind it. -/
  | link (directory : Location) (target : Path) (rest : List String)
deriving DecidableEq

/-- Walks names from a directory up to the first link. A link at the very end is a place of its own
unless `follow` is set. -/
def leg (fs : FileSystem) (follow : Bool) (directory : Location) : List String → Leg
  | [] => .reached directory
  | name :: rest =>
    match fs.get? directory with
    | some (.directory _) =>
      if name = "." then fs.leg follow directory rest
      else if name = ".." then fs.leg follow directory.dropLast rest
      else
        match fs.get? (directory ++ [name]) with
        | none => if rest = [] then .reached (directory ++ [name]) else .failed .notFound
        | some (.directory _) => fs.leg follow (directory ++ [name]) rest
        | some (.file _ _) =>
          if rest = [] then .reached (directory ++ [name]) else .failed .notADirectory
        | some (.link target) =>
          if rest = [] && !follow then .reached (directory ++ [name])
          else .link directory target rest
    | _ => .failed .notADirectory

/-- The number of links that one walk may follow. -/
def maxLinks : Nat := 40

/-- Walks names from a directory through at most `links` links. -/
def walkFrom (fs : FileSystem) (follow : Bool) (links : Nat) (directory : Location)
    (names : List String) : Except IoError Location :=
  match fs.leg follow directory names with
  | .reached location => .ok location
  | .failed error => .error error
  | .link directory target rest =>
    match links with
    | 0 => .error .linkLoop
    | links + 1 =>
      if target.text.isEmpty then .error .notFound
      else
        fs.walkFrom follow links (if target.isAbsolute then [] else directory)
          (todo target ++ rest)

/-- The place that a path denotes. Its last name need not exist, all before it has to lead through
directories. -/
def walk (fs : FileSystem) (follow : Bool) (p : Path) : Except IoError Location :=
  if p.text.isEmpty then .error .notFound
  else fs.walkFrom follow maxLinks (if p.isAbsolute then [] else fs.workingDirectory) (todo p)

/-- The location of an existing entry, through links if `follow` is set, and the entry. -/
def find (fs : FileSystem) (follow : Bool) (p : Path) : Except IoError (Location × Entry) := do
  let location ← fs.walk follow p
  match fs.get? location with
  | some entry => .ok (location, entry)
  | none => .error .notFound

/-- When a file or directory was last changed. -/
def modified (fs : FileSystem) (p : Path) : Except IoError Time := do
  match ← fs.find true p with
  | (_, .directory time) => .ok time
  | (_, .file _ time) => .ok time
  | (_, .link _) => .error .linkLoop

/-- Whether a path leads to anything. -/
def exists? (fs : FileSystem) (p : Path) : Bool := (fs.find true p).toBool

/-- Whether a path leads to a directory. -/
def isDirectory (fs : FileSystem) (p : Path) : Bool :=
  match fs.find true p with
  | .ok (_, .directory _) => true
  | _ => false

/-- The location of an existing path without links. -/
def canonicalize (fs : FileSystem) (p : Path) : Except IoError Location :=
  (fs.find true p).map (·.1)

/-- The target of a link. -/
def readLink (fs : FileSystem) (p : Path) : Except IoError Path := do
  match ← fs.find false p with
  | (_, .link target) => .ok target
  | _ => .error .invalidArgument

/-- The content of a file. -/
def read (fs : FileSystem) (p : Path) : Except IoError Bytes := do
  match ← fs.find true p with
  | (_, .file content _) => .ok content
  | _ => .error .isADirectory

/-- The content of a text file. -/
def readText (fs : FileSystem) (p : Path) : Except IoError String := do
  match Text.Utf8.decode? (← fs.read p) with
  | some text => .ok text
  | none => .error .notUtf8

end FileSystem

end StaticSite
