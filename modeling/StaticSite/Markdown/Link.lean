import StaticSite.Markdown.Entity
import StaticSite.Markdown.RawHtml
import StaticSite.Text.Case

/-!
Destinations, titles and labels of links, and the definitions that labels refer to.
-/

namespace StaticSite.Markdown

/-- Where a link leads. -/
structure Target where
  destination : String
  title : String
deriving DecidableEq, Repr

/-- Targets by their normalized labels; the first of two with one label counts. -/
abbrev Definitions := List (List Char × Target)

/-- A text with backslash escapes and character references replaced by what they stand for. -/
def unescapeFrom : Nat → List Char → List Char
  | 0, text => text
  | _, [] => []
  | fuel + 1, '\\' :: c :: rest =>
    if isAsciiPunctuation c then c :: unescapeFrom fuel rest
    else '\\' :: unescapeFrom fuel (c :: rest)
  | fuel + 1, '&' :: rest =>
    match reference? rest with
    | some (characters, more) => characters ++ unescapeFrom fuel more
    | none => '&' :: unescapeFrom fuel rest
  | fuel + 1, c :: rest => c :: unescapeFrom fuel rest

/-- A text with backslash escapes and character references replaced by what they stand for. -/
def unescape (text : List Char) : String := String.ofList (unescapeFrom (text.length + 1) text)

/-- A label as labels are compared: in lower case, with one space for each run of white space. -/
def normalizeLabel (label : List Char) : List Char :=
  let words := (String.ofList (label.map fun c => if isSpace c then ' ' else c)).splitOn " "
  let words := words.filter fun word => !word.isEmpty
  Text.toLowerCase (" ".intercalate words).toList

/-- A destination without angle brackets: no spaces, and parentheses in pairs. -/
def bareDestination (depth : Nat) : List Char → List Char × List Char
  | [] => ([], [])
  | '\\' :: c :: rest =>
    if isAsciiPunctuation c then
      let (taken, more) := bareDestination depth rest
      ('\\' :: c :: taken, more)
    else
      let (taken, more) := bareDestination depth (c :: rest)
      ('\\' :: taken, more)
  | '(' :: rest =>
    let (taken, more) := bareDestination (depth + 1) rest
    ('(' :: taken, more)
  | ')' :: rest =>
    match depth with
    | 0 => ([], ')' :: rest)
    | depth + 1 =>
      let (taken, more) := bareDestination depth rest
      (')' :: taken, more)
  | c :: rest =>
    if c.toNat ≤ 0x20 || c.toNat == 0x7F then ([], c :: rest)
    else
      let (taken, more) := bareDestination depth rest
      (c :: taken, more)
termination_by text => text.length

/-- A destination up to its closing angle bracket. -/
def bracketedDestination? : List Char → Option (List Char × List Char)
  | [] => none
  | '\\' :: c :: rest =>
    (bracketedDestination? rest).map fun (taken, more) => ('\\' :: c :: taken, more)
  | '>' :: rest => some ([], rest)
  | c :: rest =>
    if c == '<' || c == '\n' then none
    else (bracketedDestination? rest).map fun (taken, more) => (c :: taken, more)

/-- A destination and what follows it. -/
def destination? (text : List Char) : Option (String × List Char) :=
  match text with
  | '<' :: rest => (bracketedDestination? rest).map fun (taken, more) => (unescape taken, more)
  | text =>
    let (taken, more) := bareDestination 0 text
    some (unescape taken, more)

/-- A title up to its closing character. -/
def titleUpTo? (close : Char) : List Char → Option (List Char × List Char)
  | [] => none
  | '\\' :: c :: rest => (titleUpTo? close rest).map fun (taken, more) => ('\\' :: c :: taken, more)
  | c :: rest =>
    if c == close then some ([], rest)
    else if close == ')' && c == '(' then none
    else (titleUpTo? close rest).map fun (taken, more) => (c :: taken, more)

/-- A title and what follows it. -/
def title? (text : List Char) : Option (String × List Char) :=
  let found :=
    match text with
    | '"' :: rest => titleUpTo? '"' rest
    | '\'' :: rest => titleUpTo? '\'' rest
    | '(' :: rest => titleUpTo? ')' rest
    | _ => none
  found.map fun (taken, more) => (unescape taken, more)

/-- The target of a link in parentheses, whose opening one has been read. -/
def inlineTarget? (text : List Char) : Option (Target × List Char) := do
  let (destination, rest) ← destination? (text.dropWhile isSpace)
  match rest.dropWhile isSpace with
  | ')' :: more => some (⟨destination, ""⟩, more)
  | spaced =>
    if spaced.length == rest.length then none
    else
      let (title, rest) ← title? spaced
      match rest.dropWhile isSpace with
      | ')' :: more => some (⟨destination, title⟩, more)
      | _ => none

/-- A label up to its closing bracket. -/
def labelUpTo? : List Char → Option (List Char × List Char)
  | [] => none
  | '\\' :: c :: rest => (labelUpTo? rest).map fun (taken, more) => ('\\' :: c :: taken, more)
  | ']' :: rest => some ([], rest)
  | '[' :: _ => none
  | c :: rest => (labelUpTo? rest).map fun (taken, more) => (c :: taken, more)

/-- The rest of a line that holds nothing more. -/
def lineEnd? (text : List Char) : Option (List Char) :=
  match text.dropWhile fun c => c == ' ' || c == '\t' with
  | [] => some []
  | '\n' :: rest => some rest
  | _ => none

/-- A definition at the beginning of a paragraph, and the rest of the paragraph. -/
def definition? (text : List Char) : Option ((List Char × Target) × List Char) :=
  match text with
  | '[' :: rest => do
    let (label, rest) ← labelUpTo? rest
    let label := normalizeLabel label
    if label.isEmpty then none
    else
      match rest with
      | ':' :: rest =>
        let rest := rest.dropWhile isSpace
        if rest.isEmpty then none
        else
          let (destination, rest) ← destination? rest
          let spaced := rest.dropWhile isSpace
          let titled : Option (String × List Char) :=
            if spaced.length == rest.length then none
            else do
              let (title, more) ← title? spaced
              let more ← lineEnd? more
              some (title, more)
          match titled with
          | some (title, more) => some ((label, ⟨destination, title⟩), more)
          | none =>
            let more ← lineEnd? rest
            some ((label, ⟨destination, ""⟩), more)
      | _ => none
  | _ => none

end StaticSite.Markdown
