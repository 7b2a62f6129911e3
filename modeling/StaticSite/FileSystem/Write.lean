import StaticSite.FileSystem.Basic

/-!
Changing files. The single steps change nothing if they fail. The composed operations create missing
parent directories on demand: the first attempt is made directly, and only a missing directory leads
to its creation and a second attempt.
-/

namespace StaticSite

/-- File operations that may fail; what was done before a failure stays done. -/
abbrev FileM := ExceptT IoError (StateM FileSystem)

namespace FileSystem

/-- Whether a path ends in a slash, which cannot stand behind the name of a new file. -/
def endsInSlash (p : Path) : Bool := p.text.toList.getLast? == some '/'

/-- The place where a file is to be written: an existing file, or a free place in a directory. -/
def placeToWrite (fs : FileSystem) (p : Path) : Except IoError Location :=
  match fs.walk true p with
  | .ok location =>
    match fs.get? location with
    | some (.directory _) => .error .isADirectory
    | _ => if endsInSlash p then .error .isADirectory else .ok location
  | .error error =>
    if endsInSlash p && (fs.walk true (p.parent?.getD p)).toBool then .error .isADirectory
    else .error error

/-- Writes a file, in place of the content that is there. -/
def write (p : Path) (content : Bytes) : FileM Unit := do
  let fs ← get
  let location ← fs.placeToWrite p
  set (fs.put location (.file content fs.now))

/-- A path without slashes at its end. -/
def withoutEndSlash (p : Path) : Path :=
  ⟨String.ofList (p.text.toList.reverse.dropWhile (· == '/')).reverse⟩

/-- Creates one directory. A slash may stand behind the name of a directory. -/
def makeDirectory (p : Path) : FileM Unit := do
  let fs ← get
  let location ← fs.walk false (if (withoutEndSlash p).text.isEmpty then p else withoutEndSlash p)
  if (fs.get? location).isSome then throw .alreadyExists
  set (fs.put location (.directory fs.now))

/-- Creates a directory and what is missing above it, at most `fuel` levels. -/
def makeLevels : Nat → Path → FileM Unit
  | 0, _ => pure ()
  | fuel + 1, p => do
    if p.text.isEmpty then return
    try makeDirectory p
    catch error =>
      if error == .notFound then
        match p.parent? with
        | none => throw error
        | some above =>
          makeLevels fuel above
          try makeDirectory p
          catch error => unless (← get).isDirectory p do throw error
      else unless (← get).isDirectory p do throw error

/-- Creates a directory and what is missing above it. -/
def makeDirectories (p : Path) : FileM Unit := makeLevels (p.text.length + 1) p

/-- Creates a link. -/
def makeLink (target p : Path) : FileM Unit := do
  let fs ← get
  if target.text.isEmpty then throw .notFound
  let location ← fs.walk false p
  if (fs.get? location).isSome then throw .alreadyExists
  set (fs.put location (.link target))

/-- Removes a file or a link. -/
def removeFile (p : Path) : FileM Unit := do
  let fs ← get
  match ← fs.find false p with
  | (_, .directory _) => throw .isADirectory
  | (location, _) => set (fs.erase location)

/-- Copies the content of a file and counts its bytes. The destination is emptied before the source is
read, so a file copied onto itself ends up empty. -/
def copy (source destination : Path) : FileM Nat := do
  let (sourceLocation, entry) ← (← get).find true source
  match entry with
  | .file _ _ =>
    write destination []
    let fs ← get
    match fs.get? sourceLocation with
    | some (.file content _) =>
      write destination content
      return content.length
    | _ => throw .notFound
  | _ => throw .sourceNotAFile

/-- Creates the directory that is to hold a path. -/
def makeParent (p : Path) : FileM Unit :=
  match p.parent? with
  | some above => if above.text.isEmpty then pure () else makeDirectories above
  | none => pure ()

/-- Writes a file, with its parent directories if they are missing. -/
def writeFile (p : Path) (content : Bytes) : FileM Unit := do
  try write p content
  catch error =>
    if error == .notFound then
      makeParent p
      write p content
    else throw error

/-- Copies a file, with the parent directories of the destination if they are missing. -/
def copyFile (source destination : Path) : FileM Nat := do
  try copy source destination
  catch error =>
    if error == .notFound && (← get).exists? source then
      makeParent destination
      copy source destination
    else throw error

/-- Whether a copy is missing or older than its source. A missing copy counts as made at the epoch. -/
def isStale (fs : FileSystem) (source destination : Path) : Except IoError Bool := do
  let sourceTime ← fs.modified source
  let destinationTime :=
    match fs.modified destination with
    | .ok time => time
    | .error _ => 0
  return destinationTime < sourceTime

/-- One attempt at creating a link. A link with that target at the destination is as good. -/
def attemptLink (target destination : Path) (onFailure : IoError → FileM Path) : FileM Path := do
  try
    makeLink target destination
    return target
  catch error =>
    let existing := (← get).readLink destination
    if error == .alreadyExists && existing.toOption.any (·.same target) then return target
    else onFailure error

/-- Removes what stands at the destination of a link, or creates what is missing above it. -/
def clearWay (destination : Path) (error : IoError) : FileM Unit := do
  if error == .alreadyExists then
    try removeFile destination
    catch _ => pure ()
  else if error == .notFound then makeParent destination
  else throw error

/-- Recreates a link with the same target. A link with that target is left alone; anything else at the
destination is replaced, once. -/
def copyLink (source destination : Path) : FileM Path := do
  let target ← (← get).readLink source
  attemptLink target destination fun error => do
    clearWay destination error
    attemptLink target destination throw

end FileSystem

end StaticSite
