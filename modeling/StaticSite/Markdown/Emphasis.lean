import StaticSite.Markdown.Event

/-!
Marks that work in pairs. A run of marks can open or close an element, according to the characters
around it; which runs belong together is decided once all runs are known.
-/

namespace StaticSite.Markdown

/-- A part of a line of text of which some marks may still be without their partners. -/
inductive Piece
  | settled (events : List Event)
  /-- Marks of one kind: how many are left, and how many there were. -/
  | run (mark : Char) (count whole : Nat) (opens closes : Bool)
  /-- A straight quote. -/
  | quote (mark : Char) (opens closes : Bool)
  /-- An opening bracket and the text behind it. -/
  | bracket (image active : Bool) (behind : List Char)

/-- What a piece is when nothing more comes of its marks. -/
def Piece.toEvents : Piece → List Event
  | .settled events => events
  | .run mark count _ _ _ => [.text (String.ofList (List.replicate count mark))]
  | .quote mark _ _ => [.text (if mark == '"' then "“" else "’")]
  | .bracket image _ _ => [.text (if image then "![" else "[")]

/-- Whether a run can be the opening partner of a closing run. -/
def Piece.opensFor (closer : Char) (closerWhole : Nat) (closerOpens : Bool) : Piece → Bool
  | .run mark _ whole opens closes =>
    opens && mark == closer &&
      (if mark == '*' || mark == '_' then
        !((closes || closerOpens) && (whole + closerWhole) % 3 == 0 &&
          !(whole % 3 == 0 && closerWhole % 3 == 0))
      else whole == closerWhole)
  | _ => false

/-- The element that a number of marks makes. -/
def elementOf (mark : Char) (count : Nat) : Tag :=
  if mark == '~' then (if count == 1 then .subscript else .deleted)
  else if mark == '^' then .superscript
  else if count == 1 then .emphasis
  else .strong

/-- How many marks of two partners make an element. -/
def marksUsed (mark : Char) (opening closing : Nat) : Nat :=
  if mark == '*' || mark == '_' then (if 2 ≤ opening && 2 ≤ closing then 2 else 1) else closing

/-- How much of a piece there is to look at. -/
def Piece.weight : Piece → Nat
  | .run _ count _ _ _ => count + 1
  | _ => 1

theorem Piece.weight_pos (piece : Piece) : 0 < piece.weight := by
  cases piece <;> simp [Piece.weight]

def weights (pieces : List Piece) : Nat := pieces.foldr (fun piece n => piece.weight + n) 0

/-- What is left of a run after some of its marks were used. -/
def remaining (mark : Char) (count whole : Nat) (opens closes : Bool) : List Piece :=
  if count = 0 then [] else [.run mark count whole opens closes]

/-- Pairs the runs of `todo` with those of `done`, which lists the pieces before, the nearest first. -/
def pairRuns (done todo : List Piece) : List Event :=
  match todo with
  | [] => done.reverse.flatMap Piece.toEvents
  | .run mark count whole opens closes :: rest =>
    let inner := done.takeWhile fun piece => !(closes && piece.opensFor mark whole opens)
    match done.dropWhile fun piece => !(closes && piece.opensFor mark whole opens) with
    | .run _ openCount openWhole openOpens openCloses :: below =>
      let used := marksUsed mark openCount count
      let tag := elementOf mark used
      let element : Piece :=
        .settled (.start tag :: (inner.reverse.flatMap Piece.toEvents ++ [.finish tag]))
      let done := element :: (remaining mark (openCount - used) openWhole openOpens openCloses ++ below)
      if used = 0 ∨ count ≤ used then pairRuns done rest
      else pairRuns done (.run mark (count - used) whole opens closes :: rest)
    | _ => pairRuns (.run mark count whole opens closes :: done) rest
  | piece :: rest => pairRuns (piece :: done) rest
termination_by weights todo
decreasing_by
  · simp only [weights, List.foldr_cons, Piece.weight]
    omega
  · simp only [weights, List.foldr_cons, Piece.weight]
    omega
  · simp only [weights, List.foldr_cons, Piece.weight]
    omega
  · have := piece.weight_pos
    simp only [weights, List.foldr_cons]
    omega

/-- Whether a single quote that could open finds a partner among the pieces behind it. -/
def quoteCloses : List Piece → Bool
  | [] => false
  | .quote '\'' opens closes :: rest => closes || (!opens && quoteCloses rest)
  | _ :: rest => quoteCloses rest

/-- The pieces with curled quotes. `single` and `double` tell whether a quote of that kind is open. -/
def curlQuotes (single double : Bool) : List Piece → List Piece
  | [] => []
  | .quote mark opens closes :: rest =>
    if mark == '\'' then
      if single && closes then .settled [.text "’"] :: curlQuotes false double rest
      else if opens then
        .settled [.text (if quoteCloses rest then "‘" else "’")] :: curlQuotes true double rest
      else .settled [.text "’"] :: curlQuotes single double rest
    else if double && closes then .settled [.text "”"] :: curlQuotes single false rest
    else .settled [.text "“"] :: curlQuotes single (double || opens) rest
  | piece :: rest => piece :: curlQuotes single double rest

/-- The events of pieces whose marks have all been read. -/
def resolve (pieces : List Piece) : List Event := pairRuns [] (curlQuotes false false pieces)

end StaticSite.Markdown
