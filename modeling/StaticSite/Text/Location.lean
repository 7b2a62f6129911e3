/-!
Lines and columns of byte offsets. A line ends after its line feed; both counts begin at one, and
columns count bytes.
-/

namespace StaticSite.Text

/-- A place in a text as people name it. -/
structure Location where
  line : Nat
  column : Nat
deriving DecidableEq, Repr

/-- The byte offsets after each line feed. -/
def lineStartsFrom (offset : Nat) : List Char → List Nat
  | [] => []
  | c :: rest =>
    let next := offset + c.utf8Size
    if c = '\n' then next :: lineStartsFrom next rest else lineStartsFrom next rest

/-- The byte offsets at which the lines of a text begin. -/
structure LineIndex where
  /-- The starts of all lines but the first, which begins at zero. -/
  laterStarts : List Nat
deriving DecidableEq, Repr

/-- The lines of a text. -/
def LineIndex.ofText (text : List Char) : LineIndex := ⟨lineStartsFrom 0 text⟩

/-- The line that holds a byte offset, and the place of the offset in it. -/
def LineIndex.locate (index : LineIndex) (position : Nat) : Location :=
  let before := index.laterStarts.takeWhile (· ≤ position)
  { line := before.length + 1, column := position - before.getLastD 0 + 1 }

end StaticSite.Text
