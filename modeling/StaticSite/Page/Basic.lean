import StaticSite.Page.FrontMatter
import StaticSite.Page.Header
import StaticSite.Site.Config
import StaticSite.FileSystem.Basic

/-!
Pages: source files with a header if they have one, and what follows from their place below the source
directory and from their header, which is their output file, their address and their title.
-/

namespace StaticSite

open Json (Value Fields)

structure Page where
  title : String
  sourceFile : Path
  /-- The extension of the source file in lower case, with its dot. -/
  sourceExtension : String
  format : PageFormat
  /-- The file that the page is written to, seen from the output directory. -/
  outputFile : Path
  url : String
  /-- The front matter; none for a page without a header. -/
  meta? : Option Fields
  /-- The byte offset of the body in the source file. -/
  contentOffset : Nat

namespace Page

inductive Error
  | io (file : Path) (error : IoError)
  | header (error : Header.Error)
  | frontMatter (error : FrontMatter.Error)

def Error.message : Error → String
  | .io file error => file.text ++ ": " ++ error.message
  | .header error => "failed to read header: " ++ error.message
  | .frontMatter error => "failed to parse header: " ++ error.message

/-- The characters that separate the words of a file name. -/
def isSeparator (c : Char) : Bool := c == '_' || c == '.' || c == '-'

/-- A text with one space for each run of separators; `within` tells whether one has been written for
the run that goes on. -/
def spaceSeparators (within : Bool) : List Char → List Char
  | [] => []
  | c :: rest =>
    if !isSeparator c then c :: spaceSeparators false rest
    else if within then spaceSeparators true rest
    else ' ' :: spaceSeparators true rest

/-- A text that begins with an upper case letter where there is one. -/
def capitalize : List Char → List Char
  | [] => []
  | c :: rest => Text.upperCase c ++ rest

/-- The name that an index page goes by: that of its directory. The topmost index has none. -/
def indexName? (sourceDirectory sourceFile : Path) : Option String :=
  let directory := sourceFile.parent?.getD Path.empty
  if directory.same sourceDirectory then none else some (directory.fileName?.getD "index")

/-- The title that a file name makes. -/
def titleOfName (name : String) : String :=
  String.ofList (capitalize (spaceSeparators false name.toList))

/-- The title of a page that gives none itself. -/
def titleFromFile (sourceDirectory sourceFile : Path) (name : String) : String :=
  if name == "index" then
    match indexName? sourceDirectory sourceFile with
    | none => "Home"
    | some name => titleOfName name
  else titleOfName name

/-- The names of a path with slashes between them. -/
def urlPath (p : Path) : String :=
  "/".intercalate (p.components.filterMap fun
    | .name name => some name
    | _ => none)

/-- The output file and the address of a page that lies at a place below the source directory, given
without the extension. -/
def target (baseUrl : String) (place : Path) : Path × String :=
  if (place.fileName?.getD "") == "index" then
    let directory := place.parent?.getD Path.empty
    let within := urlPath directory
    (directory.join ⟨"index.html"⟩, if within.isEmpty then baseUrl else baseUrl ++ within ++ "/")
  else
    let file := place.withExtension "html"
    (file, baseUrl ++ urlPath file)

/-- The title that front matter gives: a string or a number that is not empty as text. -/
def titleFromMeta? (fields : Fields) : Option String :=
  match fields.get? "title" with
  | some (.string s) => if s.isEmpty then none else some s
  | some (.number n) => some (Template.toText (.number n))
  | _ => none

/-- The bytes of a source file. What is no file can be opened, but not read. -/
def content (fs : FileSystem) (sourceFile : Path) : Except Error Bytes :=
  match fs.find true sourceFile with
  | .error error => .error (.io sourceFile error)
  | .ok (_, .file content _) => .ok content
  | .ok _ => .error (.header (.io .isADirectory))

/-- The front matter of a page and the offset of its body. -/
def readMeta (content : Bytes) : Except Error (Option Fields × Nat) :=
  match (Header.read (Reader.ofBytes content)).1 with
  | .error error => .error (.header error)
  | .ok none => .ok (none, 0)
  | .ok (some header) =>
    match FrontMatter.parse header.frontMatter with
    | .ok fields => .ok (some fields, header.contentOffset)
    | .error error => .error (.frontMatter error)

/-- The page that a source file makes. -/
def ofContent (config : Config) (sourceDirectory sourceFile : Path) (extension : String)
    (format : PageFormat) (content : Bytes) : Except Error Page := do
  let (meta?, contentOffset) ← readMeta content
  let place := (sourceFile.relativeTo sourceDirectory).withExtension ""
  let (outputFile, url) := target config.baseUrl place
  let title := (meta?.bind titleFromMeta?).getD
    (titleFromFile sourceDirectory sourceFile (place.fileName?.getD ""))
  return { title, sourceFile, sourceExtension := extension, format, outputFile, url, meta?,
           contentOffset }

/-- Reads the header of a source file and works out where the page ends up. -/
def read (fs : FileSystem) (config : Config) (sourceDirectory sourceFile : Path)
    (extension : String) (format : PageFormat) : Except Error Page := do
  let bytes ← content fs sourceFile
  ofContent config sourceDirectory sourceFile extension format bytes

/-- The bytes of a page behind its header. -/
def readBody (page : Page) (fs : FileSystem) : Except Error Bytes :=
  match fs.read page.sourceFile with
  | .ok content => .ok (content.drop page.contentOffset)
  | .error error => .error (.io page.sourceFile error)

/-- The layout that a page names, or else the default. A page without a header has none, and the name
`none` stands for none as well. -/
def layout? (page : Page) (default : String) : Option String := do
  let fields ← page.meta?
  let name :=
    match fields.get? "layout" with
    | some (.string s) => if s.isEmpty then default else s
    | _ => default
  if name == "none" || name.isEmpty then none else some name

/-- What templates see of a page, apart from its links to other pages. -/
def summary (page : Page) : Fields :=
  Fields.ofList
    [("title", .string page.title), ("url", .string page.url),
      ("sfile", .string page.sourceFile.text), ("sext", .string page.sourceExtension),
      ("ofile", .string page.outputFile.text),
      ("meta", page.meta?.elim .null .object)]

end Page

end StaticSite
