import StaticSite.Page.Basic

/-!
How the pages of a site hang together. Pages are in the order of their addresses; the parent of a page
is the nearest `index.html` above it in the output tree.
-/

namespace StaticSite

open Json (Value Fields)

/-- A page with its place among the pages of a site, which are known by their positions. -/
structure LinkedPage where
  page : Page
  parent? : Option Nat
  children : List Nat

/-- Two sources for one output file. -/
structure Conflict where
  outputFile : Path
  first : Path
  second : Path
deriving DecidableEq, Repr

namespace Page

/-- Pages in the order of their addresses; pages with one address keep their order. -/
def sortByUrl (pages : List Page) : List Page := pages.mergeSort fun a b => decide (a.url ≤ b.url)

/-- The position of the first page with an output file. -/
def ownerOf? (pages : List Page) (outputFile : Path) : Option Nat :=
  pages.findIdx? fun page => page.outputFile.same outputFile

/-- The pages whose output file belongs to an earlier page. -/
def conflicts (pages : List Page) : List Conflict :=
  pages.zipIdx.filterMap fun (page, i) =>
    match ownerOf? pages page.outputFile with
    | some owner =>
      if owner < i then
        (pages[owner]?).map fun first => ⟨page.outputFile, first.sourceFile, page.sourceFile⟩
      else none
    | none => none

def indexFile : Path := ⟨"index.html"⟩

/-- The position of the first page that is the index of a directory or of the nearest directory above
it that has one; `depth` bounds the directories to look at. -/
def indexAbove? (pages : List Page) : Nat → Option Path → Option Nat
  | 0, _ => none
  | _, none => none
  | depth + 1, some directory =>
    match ownerOf? pages (directory.join indexFile) with
    | some owner => some owner
    | none => indexAbove? pages depth directory.parent?

/-- Whether a page is the home page by its output file. -/
def isHome (page : Page) : Bool := page.outputFile.same indexFile

/-- The directory in which the search for the parent of a page begins. -/
def searchStart? (page : Page) : Option Path :=
  let directory := page.outputFile.parent?
  if page.outputFile.fileName? == some "index.html" then directory.bind Path.parent? else directory

/-- The position of the parent of a page. -/
def parentIn? (pages : List Page) (page : Page) : Option Nat :=
  if page.isHome then none
  else indexAbove? pages (page.outputFile.text.length + 2) page.searchStart?

end Page

/-- The pages of a site with their links, and the position of the home page. -/
structure Links where
  pages : List LinkedPage
  home? : Option Nat
  conflicts : List Conflict

namespace Links

/-- Links freshly read pages. -/
def ofPages (pages : List Page) : Links :=
  let pages := Page.sortByUrl pages
  let parents := pages.map (Page.parentIn? pages)
  let childrenOf (i : Nat) : List Nat :=
    parents.zipIdx.filterMap fun (parent?, child) => if parent? == some i then some child else none
  let home? := (pages.zipIdx.filter fun (page, _) => page.isHome).getLast?.map (·.2)
  { pages := (pages.zip parents).zipIdx.map fun ((page, parent?), i) =>
      { page, parent?, children := childrenOf i }
    home?
    conflicts := Page.conflicts pages }

/-- What templates see of the page at a position. -/
def summary (links : Links) (linked : LinkedPage) : Fields :=
  let parent := linked.parent?.bind fun i => (links.pages[i]?).map fun p => Value.string p.page.url
  let children := linked.children.filterMap fun i => (links.pages[i]?).map fun p =>
    Value.object (Fields.ofList [("title", .string p.page.title), ("url", .string p.page.url)])
  (linked.page.summary.insert "parent" (parent.getD .null)).insert "children" (.array children)

/-- What templates see of all pages. -/
def summaries (links : Links) : List Fields := links.pages.map links.summary

/-- A line of the page tree. -/
def treeLine (level : Nat) (page : Page) : String :=
  String.join (List.replicate level "  ") ++ "• " ++ page.title ++ "\n"

/-- The page at a position and all pages below it, one line each, at most `depth` levels. -/
def treeFrom (links : Links) : Nat → Nat → Nat → String
  | 0, _, _ => ""
  | depth + 1, level, i =>
    match links.pages[i]? with
    | none => ""
    | some linked =>
      treeLine level linked.page ++
        String.join (linked.children.map (links.treeFrom depth (level + 1)))

/-- The tree of pages below the home page, or below the first page if there is none. -/
def tree? (links : Links) : Option String :=
  if links.pages.isEmpty then none
  else some (links.treeFrom (links.pages.length + 1) 0 (links.home?.getD 0))

end Links

end StaticSite
