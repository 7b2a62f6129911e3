import StaticSite.Toml.Scalar
import StaticSite.Toml.Quoted
import StaticSite.Toml.Table

/-!
Reading TOML documents. A document is a sequence of lines, each with a header, a key and its value, or
nothing; a value may go over several lines. Brackets nest eighty deep at most.
-/

namespace StaticSite.Toml

/-- How deep arrays and inline tables may lie in each other. -/
def mostNested : Nat := 80

def isGap (c : Char) : Bool := c == ' ' || c == '\t'

def skipGap (cs : List Char) : List Char := cs.dropWhile isGap

/-- What follows a comment, if a text begins with one: the end of its line. -/
def skipComment? (cs : List Char) : Option (List Char) :=
  match cs with
  | '#' :: rest =>
    let after := rest.dropWhile isPlain
    if after.isEmpty || (lineEnd? after).isSome then some after else none
  | cs => some cs

/-- What follows gaps, comments and line ends. -/
def skipBetween? : Nat → List Char → Option (List Char)
  | 0, _ => none
  | fuel + 1, cs =>
    match skipComment? (skipGap cs) with
    | none => none
    | some rest =>
      match lineEnd? rest with
      | some rest => skipBetween? fuel rest
      | none => some rest

/-- What follows the rest of a line, which may hold a comment. -/
def finishLine? (cs : List Char) : Option (List Char) :=
  match skipComment? (skipGap cs) with
  | some [] => some []
  | some rest => lineEnd? rest
  | none => none

/-- Whether a character may stand in a key without quotes. -/
def isKeyChar (c : Char) : Bool := c.isAlphanum || c == '_' || c == '-'

/-- One part of a key. -/
def readKeyPart? (cs : List Char) : Option (String × List Char) :=
  match cs with
  | '"' :: rest =>
    (readEscaped? (rest.length + 1) rest).map fun (chars, rest) => (String.ofList chars, rest)
  | '\'' :: rest => (readLiteral? rest).map fun (chars, rest) => (String.ofList chars, rest)
  | cs =>
    let name := cs.takeWhile isKeyChar
    if name.isEmpty then none else some (String.ofList name, cs.dropWhile isKeyChar)

/-- A key: parts with points between them. The gap behind it is skipped. -/
def readKey? : Nat → List Char → Option (List String × List Char)
  | 0, _ => none
  | fuel + 1, cs =>
    match readKeyPart? (skipGap cs) with
    | none => none
    | some (part, rest) =>
      match skipGap rest with
      | '.' :: rest => (readKey? fuel rest).map fun (parts, rest) => (part :: parts, rest)
      | rest => some ([part], rest)

/-- A key and the equals sign behind it. -/
def readAssigned? (cs : List Char) : Option (List String × List Char) := do
  let (keys, rest) ← readKey? (cs.length + 1) cs
  let rest ← expect? '=' rest
  some (keys, skipGap rest)

mutual

/-- The value that a text begins with, and what follows. -/
def readValue? (nested : Nat) : Nat → List Char → Option (Value × List Char)
  | 0, _ => none
  | fuel + 1, cs =>
    match cs with
    | '"' :: _ | '\'' :: _ =>
      (readQuoted? cs).map fun (chars, rest) => (.string (String.ofList chars), rest)
    | '[' :: rest =>
      match nested with
      | 0 => none
      | nested + 1 =>
        (readItems? nested fuel rest).map fun (items, rest) => (.array items, rest)
    | '\x7b' :: rest =>
      match nested with
      | 0 => none
      | nested + 1 =>
        (readInline? nested fuel [] rest).map fun (nodes, rest) =>
          (.table (toEntries nodes), rest)
    | cs =>
      let (scalar, rest) := scalarSpan cs
      (readScalar? scalar).map fun value => (value, rest)

/-- The items of an array up to its closing bracket. A comma may stand behind the last of them. -/
def readItems? (nested : Nat) : Nat → List Char → Option (List Value × List Char)
  | 0, _ => none
  | fuel + 1, cs => do
    let cs ← skipBetween? (cs.length + 1) cs
    match cs with
    | ']' :: rest => some ([], rest)
    | cs =>
      let (item, rest) ← readValue? nested fuel cs
      let rest ← skipBetween? (rest.length + 1) rest
      match rest with
      | ',' :: rest => (readItems? nested fuel rest).map fun (items, rest) => (item :: items, rest)
      | ']' :: rest => some ([item], rest)
      | _ => none

/-- The entries of an inline table up to its closing brace, behind those that have been read. A comma may
stand behind the last of them. -/
def readInline? (nested : Nat) : Nat → Nodes → List Char → Option (Nodes × List Char)
  | 0, _, _ => none
  | fuel + 1, nodes, cs => do
    let cs ← skipBetween? (cs.length + 1) cs
    match cs with
    | '\x7d' :: rest => some (nodes, rest)
    | cs =>
      let (keys, rest) ← readAssigned? cs
      let (value, rest) ← readValue? nested fuel rest
      let nodes ← Nodes.assign keys value .written nodes
      let rest ← skipBetween? (rest.length + 1) rest
      match rest with
      | ',' :: rest => readInline? nested fuel nodes rest
      | '\x7d' :: rest => some (nodes, rest)
      | _ => none

end

/-- A document while it is read: its tables, and the header that the next lines belong to. -/
structure Reading where
  nodes : Nodes
  header : List String

/-- Reads the line that a text begins with. -/
def readLine? (reading : Reading) (cs : List Char) : Option (Reading × List Char) :=
  let headed (cs : List Char) (ending : String) (change : List String → Nodes.Change) :
      Option (Reading × List Char) := do
    let (keys, rest) ← readKey? (cs.length + 1) cs
    if !ending.toList.isPrefixOf rest then none
    else
      let nodes ← change keys .written reading.nodes
      some (⟨nodes, keys⟩, rest.drop ending.length)
  match skipGap cs with
  | [] | '#' :: _ | '\n' :: _ | '\r' :: _ => some (reading, cs)
  | '[' :: '[' :: rest => headed rest "]]" Nodes.openItem
  | '[' :: rest => headed rest "]" Nodes.openTable
  | cs => do
    let (keys, rest) ← readAssigned? cs
    let (value, rest) ← readValue? mostNested (2 * rest.length + 2) rest
    let nodes ← Nodes.assignBelow reading.header keys value .written reading.nodes
    some (⟨nodes, reading.header⟩, rest)

/-- Reads all lines of a text. -/
def readLines : Nat → Reading → List Char → Option Reading
  | 0, _, _ => none
  | _, reading, [] => some reading
  | fuel + 1, reading, cs =>
    match readLine? reading cs with
    | none => none
    | some (reading, rest) =>
      match finishLine? rest with
      | none => none
      | some rest => readLines fuel reading rest

/-- The entries of a document. A byte order mark in front is not part of it. -/
def parse? (text : String) : Option Entries :=
  let cs :=
    match text.toList with
    | '\uFEFF' :: rest => rest
    | cs => cs
  (readLines (cs.length + 1) ⟨[], []⟩ cs).map fun reading => toEntries reading.nodes

end StaticSite.Toml
