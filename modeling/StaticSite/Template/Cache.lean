import StaticSite.Template.Parser
import StaticSite.Template.Error
import StaticSite.FileSystem.Basic

/-!
Compiled templates, and the cache that keeps those that come from files. A cached template is used as
long as its file is not newer than the stamp it was stored with.
-/

namespace StaticSite.Template

open Json (Fields)

/-- The age of a template's file: nanoseconds since the epoch, zero where the file was not looked at. -/
abbrev Stamp := Nat

/-- The stamp of a file whose time cannot be read. It is newer than any file. -/
def unreadableStamp : Stamp := Nat.pow 2 128 - 1

structure Compiled where
  nodes : List Node
  /-- The name that errors give. -/
  filename : String
  /-- Where relative includes start from. -/
  path : Path
  lines : Text.LineIndex
  stamp : Stamp
  /-- Tells templates compiled from files at different times apart. -/
  serial : Nat

/-- A source compiled under a name. -/
def compile (source filename : String) : Except Error Compiled :=
  let lines := Text.LineIndex.ofText source.toList
  match parse source.toList with
  | .ok nodes =>
    .ok { nodes, filename, path := ⟨filename⟩, lines, stamp := 0, serial := 0 }
  | .error error => .error (.compile filename (lines.locate error.position) error.problem)

/-- The directory of a template. -/
def Compiled.directory (template : Compiled) : Path := template.path.parent?.getD Path.empty

/-- An error at a byte offset of a template. -/
def Compiled.error (template : Compiled) (position : Nat) (problem : RuntimeProblem) : Error :=
  .runtime template.filename (template.lines.locate position) problem

/-- What a caller says about one evaluation. -/
structure Properties where
  bindings : Fields := []
  /-- The name that errors give instead of the path. -/
  filename : Option String := none
  /-- Use a cached template without looking at its file. -/
  reuse : Bool := false

structure Cache where
  /-- At most one template for each path. -/
  entries : List (Path × Compiled) := []
  /-- The number of templates compiled from files so far. -/
  compiledFiles : Nat := 0

namespace Cache

/-- The template cached for a path. -/
def get? (cache : Cache) (path : Path) : Option Compiled :=
  (cache.entries.find? fun entry => entry.1.same path).map (·.2)

/-- The cache with a template put under a path. -/
def put (cache : Cache) (path : Path) (template : Compiled) : Cache :=
  { cache with entries := (path, template) :: cache.entries.filter fun entry => !entry.1.same path }

/-- The number of cached templates. -/
def size (cache : Cache) : Nat := cache.entries.length

end Cache

/-- A time as a stamp. Times before the epoch count as the epoch. -/
def stampOfTime (time : Time) : Stamp := time.toNat

/-- The stamp of a file at the moment. -/
def stampOf (fs : FileSystem) (path : Path) (reuse : Bool) : Stamp :=
  if reuse then 0
  else
    match fs.modified path with
    | .ok time => stampOfTime time
    | .error _ => unreadableStamp

/-- The cached template for a path, if it is not older than a stamp. -/
def Cache.fresh? (cache : Cache) (path : Path) (stamp : Stamp) : Option Compiled :=
  (cache.get? path).filter fun template => stamp ≤ template.stamp

/-- The template compiled from a file as it reads now, to be stored with a stamp. -/
def compileFile (fs : FileSystem) (path : Path) (filename : Option String) (stamp : Stamp)
    (serial : Nat) : Except Error Compiled := do
  match fs.readText path with
  | .error error => .error (.io path.text error)
  | .ok source =>
    let template ← compile source (filename.getD path.text)
    .ok { template with path, stamp, serial }

/-- The template of a file, from the cache if its copy there is fresh, and compiled and cached
otherwise. The file's time is read from the first file system and its content, if it is needed, from the
second. A failure leaves the cache as it is. -/
def loadAcross (statted reading : FileSystem) (cache : Cache) (path : Path)
    (properties : Properties) : Except Error (Compiled × Cache) :=
  if path.text.isEmpty then .error (.io path.text .emptyPath)
  else
    let path := path.absolute statted.here
    let stamp := stampOf statted path properties.reuse
    match cache.fresh? path stamp with
    | some template => .ok (template, cache)
    | none =>
      let serial := cache.compiledFiles + 1
      match compileFile reading path properties.filename stamp serial with
      | .ok template =>
        .ok (template, { cache.put path template with compiledFiles := serial })
      | .error error => .error error

/-- The template of a file that does not change meanwhile. -/
def load (fs : FileSystem) (cache : Cache) (path : Path) (properties : Properties) :
    Except Error (Compiled × Cache) :=
  loadAcross fs fs cache path properties

end StaticSite.Template
