import StaticSite.Site.Config
import StaticSite.FileSystem.Basic
import StaticSite.Toml.Document

/-!
Configuration files of a site. Settings that a file leaves out have their defaults; keys that mean
nothing to a site are passed over.
-/

namespace StaticSite

/-- Why a configuration file cannot be used. -/
inductive ConfigError
  | io (error : IoError)
  /-- It is no TOML document, or a setting has a value of a wrong type. -/
  | malformed
deriving DecidableEq, Repr

def ConfigError.message : ConfigError → String
  | .io error => "IO error: " ++ error.message
  | .malformed => "TOML parse error"

namespace Config

/-- A setting that is text. -/
def textSetting? (entries : Toml.Entries) (key fallback : String) : Option String :=
  match entries.lookup key with
  | none => some fallback
  | some (.string text) => some text
  | some _ => none

def pathSetting? (entries : Toml.Entries) (key : String) (fallback : Path) : Option Path :=
  (textSetting? entries key fallback.text).map Path.mk

/-- A setting that is true or false. -/
def truthSetting? (entries : Toml.Entries) (key : String) (fallback : Bool) : Option Bool :=
  match entries.lookup key with
  | none => some fallback
  | some (.boolean truth) => some truth
  | some _ => none

/-- A page format: its name, or a table with nothing but an empty entry of that name. -/
def formatOf? : Toml.Value → Option PageFormat
  | .string name => PageFormat.ofName? name
  | .table [(name, .table [])] => PageFormat.ofName? name
  | .table [(name, .array [])] => PageFormat.ofName? name
  | _ => none

/-- The table of page extensions. It replaces the standard one as a whole. -/
def extensionsSetting? (entries : Toml.Entries) : Option PageExtensions :=
  match entries.lookup "page_exts" with
  | none => some PageExtensions.standard
  | some (.table rows) => do
    let extensions : PageExtensions ← rows.mapM fun row =>
      (formatOf? row.2).map fun format => (row.1, format)
    some (extensions.mergeSort fun a b => decide (a.1 ≤ b.1))
  | some _ => none

/-- The configuration in the entries of a document. All integers have to fit 128 bits, used or not. -/
def ofToml? (entries : Toml.Entries) : Option Config :=
  if !Toml.entriesWithin (-Nat.pow 2 127) (Nat.pow 2 128 - 1) entries then none
  else do
    let standard : Config := {}
    some
      { sourceDirectory := ← pathSetting? entries "srcdir" standard.sourceDirectory
        outputDirectory := ← pathSetting? entries "outdir" standard.outputDirectory
        templateDirectory := ← pathSetting? entries "templatedir" standard.templateDirectory
        defaultLayout := ← textSetting? entries "default_layout" standard.defaultLayout
        baseUrl := ← textSetting? entries "base_url" standard.baseUrl
        title := ← textSetting? entries "site_title" standard.title
        verbatimLinks := ← truthSetting? entries "verbatim_symlinks" standard.verbatimLinks
        syntaxTheme := ← textSetting? entries "syntax_theme" standard.syntaxTheme
        pageExtensions := ← extensionsSetting? entries }

/-- Reads a configuration file. -/
def read (fs : FileSystem) (file : Path) : Except ConfigError Config :=
  match fs.readText file with
  | .error error => .error (.io error)
  | .ok text =>
    match (Toml.parse? text).bind ofToml? with
    | none => .error .malformed
    | some config => .ok config

end Config

end StaticSite
