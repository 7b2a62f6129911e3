/-!
Paths as text, and the components that decide when two paths are the same. Repeated slashes, a slash
at the end and `.` components other than a leading one make no difference to the components.
-/

namespace StaticSite

/-- A path as it is written. -/
structure Path where
  text : String
deriving DecidableEq, Repr, Inhabited

namespace Path

/-- One step of a path. -/
inductive Component
  | root
  | current
  | parent
  | name (name : String)
deriving DecidableEq, Repr

def empty : Path := ⟨""⟩

/-- The pieces of a text between slashes. -/
def pieces : List Char → List (List Char)
  | [] => [[]]
  | '/' :: rest => [] :: pieces rest
  | c :: rest =>
    match pieces rest with
    | first :: more => (c :: first) :: more
    | [] => [[c]]

def isAbsolute (p : Path) : Bool := p.text.toList.head? == some '/'

/-- The steps that pieces stand for: empty ones and `.` stand for none. -/
def steps (parts : List (List Char)) : List Component :=
  (parts.filter fun part => part != [] && part != ['.']).map fun part =>
    if part = ['.', '.'] then .parent else .name (String.ofList part)

/-- The components of a path. Only a relative path keeps a leading `.`. -/
def components (p : Path) : List Component :=
  match pieces p.text.toList with
  | [] => []
  | [] :: rest => (if p.isAbsolute then [Component.root] else []) ++ steps rest
  | ['.'] :: rest => .current :: steps rest
  | parts => steps parts

/-- Whether two paths have the same components. -/
def same (p q : Path) : Bool := p.components == q.components

/-- The text of a component. -/
def Component.text : Component → String
  | .root => "/"
  | .current => "."
  | .parent => ".."
  | .name n => n

/-- A path followed by a second one; an absolute second path stands alone. -/
def join (base rel : Path) : Path :=
  if rel.isAbsolute then rel
  else if base.text.isEmpty || base.text.toList.getLast? == some '/' then ⟨base.text ++ rel.text⟩
  else ⟨base.text ++ "/" ++ rel.text⟩

/-- A path followed by one component. -/
def push (base : Path) (component : Component) : Path := base.join ⟨component.text⟩

/-- A path with the given components, as plainly as it can be written. -/
def ofComponents (components : List Component) : Path := components.foldl push empty

/-- A reversed text without the slashes and `.` components that follow its last component. -/
def trimTail : List Char → List Char
  | [] => []
  | '/' :: rest => if rest.isEmpty then ['/'] else trimTail rest
  | '.' :: '/' :: rest => trimTail ('/' :: rest)
  | text => text
termination_by text => text.length

/-- The last component of a path and what stands before it, both reversed. -/
def splitLast (p : Path) : List Char × List Char :=
  let text := trimTail p.text.toList.reverse
  (text.takeWhile (· != '/'), text.dropWhile (· != '/'))

/-- The path without its last component; none for the root and for the empty path. -/
def parent? (p : Path) : Option Path :=
  let (last, before) := splitLast p
  if last.isEmpty then none else some ⟨String.ofList (trimTail before).reverse⟩

/-- The last component, if it is a name. -/
def fileName? (p : Path) : Option String :=
  let (last, _) := splitLast p
  if last.isEmpty || last == ['.'] || last == ['.', '.'] then none
  else some (String.ofList last.reverse)

/-- A reversed file name cut at its last dot, into the extension and what stands before the dot. A
name with no dot but its first character has no extension. -/
def cutExtension? (reversedName : List Char) : Option (List Char × List Char) :=
  match reversedName.dropWhile (· != '.') with
  | '.' :: stem => if stem.isEmpty then none else some (reversedName.takeWhile (· != '.'), stem)
  | _ => none

/-- What follows the last dot of the file name. -/
def extension? (p : Path) : Option String := do
  let name ← p.fileName?
  let (extension, _) ← cutExtension? name.toList.reverse
  some (String.ofList extension.reverse)

/-- The path with its extension replaced, or added if there is none; an empty extension removes it. A
path that ends in no name stays as it is. -/
def setExtension (p : Path) (extension : String) : Path :=
  if p.fileName?.isNone then p
  else
    let (last, before) := splitLast p
    let stem :=
      match cutExtension? last with
      | some (_, stem) => stem
      | none => last
    let text := (stem ++ before).reverse
    ⟨String.ofList (if extension.isEmpty then text else text ++ '.' :: extension.toList)⟩

/-- The path with its extension replaced. The characters of the old extension are taken off the end of
the text first, so a name such as `..md` is no name after that and keeps no new extension. -/
def withExtension (p : Path) (extension : String) : Path :=
  match p.extension? with
  | none => p.setExtension extension
  | some old => setExtension ⟨String.ofList (p.text.toList.take (p.text.length - old.length))⟩ extension

/-- The text behind the first `count` components of a relative text, from the next component on. -/
def dropSteps : Nat → List Char → List Char
  | 0, text =>
    match text with
    | '/' :: rest => dropSteps 0 rest
    | '.' :: '/' :: rest => dropSteps 0 rest
    | ['.'] => []
    | text => text
  | count + 1, text =>
    match text with
    | '/' :: rest => dropSteps (count + 1) rest
    | '.' :: '/' :: rest => dropSteps (count + 1) rest
    | text => dropSteps count (text.dropWhile (· != '/'))
termination_by count text => (count, text.length)

/-- The part of a path below a base, if the base's components begin the path's. -/
def stripPrefix? (p base : Path) : Option Path :=
  let whole := p.components
  let lead := base.components
  if !lead.isPrefixOf whole then none
  else if lead.isEmpty then some ⟨String.ofList (trimTail p.text.toList.reverse).reverse⟩
  else
    -- a leading root or `.` is a component of its own that leaves no name behind
    let named := lead.filter fun c => c != .root && c != .current
    let text := p.text.toList
    let text := if lead.head? == some .current then text.drop 1 else text
    let rest := dropSteps named.length text
    some ⟨String.ofList (trimTail rest.reverse).reverse⟩

/-- The part of a path below a base, or the whole path if it lies elsewhere. -/
def relativeTo (p base : Path) : Path := (p.stripPrefix? base).getD p

/-- The path as seen from the root, for a program that runs in `here`. Slashes are tidied, `..` stays. -/
def absolute (p here : Path) : Path :=
  let body := (p.stripPrefix? ⟨"."⟩).getD p
  let text := p.text.toList
  let start :=
    if !p.isAbsolute then here
    else if ['/', '/'].isPrefixOf text && text[2]? != some '/' then ⟨"//"⟩
    else empty
  let components :=
    if start.text == "//" then body.components.drop 1 else body.components
  let tidy := components.foldl push start
  if text.getLast? == some '/' then tidy.join empty else tidy

end Path

end StaticSite
