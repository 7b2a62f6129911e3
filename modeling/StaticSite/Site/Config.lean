import StaticSite.Path.Basic
import StaticSite.Text.Case

/-!
What a site is built from: its directories, the defaults of its pages, and the file extensions that
make a file a page.
-/

namespace StaticSite

/-- How the source of a page becomes HTML. -/
inductive PageFormat
  /-- Markdown is converted. -/
  | markdown
  /-- Markup is evaluated as a template. -/
  | markup
deriving DecidableEq, Repr

/-- The name of a format in configuration files. -/
def PageFormat.name : PageFormat → String
  | .markdown => "md"
  | .markup => "xml"

/-- The format of a name. -/
def PageFormat.ofName? : String → Option PageFormat
  | "md" => some .markdown
  | "xml" => some .markup
  | _ => none

/-- Extensions in lower case, with their dots, and the formats they stand for. The table is in the order
of the extensions. -/
abbrev PageExtensions := List (String × PageFormat)

/-- The extensions of pages where a site does not choose its own. -/
def PageExtensions.standard : PageExtensions :=
  [(".htm", .markup), (".html", .markup), (".markdown", .markdown), (".md", .markdown),
    (".mdown", .markdown), (".xml", .markup)]

structure Config where
  sourceDirectory : Path := ⟨"."⟩
  /-- Where the site is built, seen from the source directory. -/
  outputDirectory : Path := ⟨"_build"⟩
  /-- Where layouts are, seen from the source directory. -/
  templateDirectory : Path := ⟨"_templates"⟩
  /-- The layout of pages with a header that names none. -/
  defaultLayout : String := "default"
  /-- What the addresses of all pages begin with. -/
  baseUrl : String := "/"
  title : String := "Site title"
  /-- Whether links are recreated instead of followed. -/
  verbatimLinks : Bool := true
  syntaxTheme : String := "base16-ocean.dark"
  pageExtensions : PageExtensions := PageExtensions.standard
deriving DecidableEq, Repr

/-- The extension and the format of a file that is a page. -/
def Config.pageFormat? (config : Config) (file : Path) : Option (String × PageFormat) := do
  let extension ← file.extension?
  let dotted := "." ++ String.ofList (Text.toLowerCase extension.toList)
  let format ← config.pageExtensions.lookup dotted
  some (dotted, format)

end StaticSite
