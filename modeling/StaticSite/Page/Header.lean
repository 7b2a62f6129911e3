import StaticSite.FileSystem.IoError
import StaticSite.Text.Utf8

/-!
The header of a page: front matter between an opening line `---` and a closing line of three or more
dashes. Only the beginning of a page is read: a head first, then further pieces until the closing line
turns up.
-/

namespace StaticSite

/-- Bytes that are handed out in pieces. -/
structure Reader where
  pieces : List Bytes
  /-- Whether reading fails where the bytes end. -/
  broken : Bool := false

namespace Reader

/-- All bytes that are still to come. -/
def bytes (reader : Reader) : Bytes := reader.pieces.flatten

/-- A reader that hands out the bytes in one piece. -/
def ofBytes (bytes : Bytes) : Reader := { pieces := [bytes] }

/-- The failure of a broken reader. -/
def failure : IoError := .other "read failed"

/-- The first `count` bytes of pieces, whether the pieces ended before that, and what is left. -/
def takePieces (count : Nat) : List Bytes → Bytes × Bool × List Bytes
  | [] => ([], count != 0, [])
  | piece :: rest =>
    if count < piece.length then (piece.take count, false, piece.drop count :: rest)
    else
      let (more, ended, left) := takePieces (count - piece.length) rest
      (piece ++ more, ended, left)

/-- The next `count` bytes, whether the reader ended before that, and the reader behind them. -/
def take (reader : Reader) (count : Nat) : Except IoError (Bytes × Bool) × Reader :=
  match takePieces count reader.pieces with
  | (taken, ended, pieces) =>
    (if ended && reader.broken then .error failure else .ok (taken, ended), { reader with pieces })

theorem takePieces_append (count : Nat) (pieces : List Bytes) :
    (takePieces count pieces).1 ++ (takePieces count pieces).2.2.flatten = pieces.flatten := by
  induction pieces generalizing count with
  | nil => simp [takePieces]
  | cons piece rest ih =>
    unfold takePieces
    split
    · simp [← List.append_assoc]
    · simp [ih]

theorem length_takePieces (count : Nat) (pieces : List Bytes) :
    (takePieces count pieces).2.1 = false → (takePieces count pieces).1.length = count := by
  induction pieces generalizing count with
  | nil =>
    intro notEnded
    simp only [takePieces, bne_eq_false_iff_eq] at notEnded
    exact notEnded.symm
  | cons piece rest ih =>
    unfold takePieces
    split
    · intro _
      simp only [List.length_take]
      omega
    · intro more
      have tail := ih (count - piece.length) more
      simp only [List.length_append]
      omega

/-- Bytes that were handed out are no longer to come. -/
theorem take_shorter {reader : Reader} {count : Nat} {taken : Bytes} {rest : Reader}
    (result : reader.take count = (.ok (taken, false), rest)) :
    rest.bytes.length + count = reader.bytes.length := by
  have parts := congrArg List.length (takePieces_append count reader.pieces)
  have size := length_takePieces count reader.pieces
  unfold take at result
  generalize takePieces count reader.pieces = outcome at *
  obtain ⟨first, ended, pieces⟩ := outcome
  dsimp only at parts size
  simp only [Prod.mk.injEq] at result
  obtain ⟨result, rfl⟩ := result
  split at result
  · simp at result
  · simp only [Except.ok.injEq, Prod.mk.injEq] at result
    have := size result.2
    simp only [List.length_append, bytes] at parts ⊢
    omega

end Reader

/-- Where the front matter of a page is, and where its body begins. -/
structure Header where
  frontMatter : String
  /-- The byte offset of the body. -/
  contentOffset : Nat
deriving DecidableEq, Repr

namespace Header

inductive Error
  | neverClosed (size : Nat)
  | io (error : IoError)
deriving DecidableEq, Repr

def Error.message : Error → String
  | .neverClosed size =>
    "header is never closed (no \x60---\x60 line in the first " ++ toString size ++ " bytes)"
  | .io error => error.message

/-- The size of the first read. -/
def headSize : Nat := 512

/-- The size of the reads that follow. -/
def pieceSize : Nat := 4096

/-- The size of the least header. -/
def leastSize : Nat := 8

def lineFeed : UInt8 := 0x0A

def dash : UInt8 := 0x2D

/-- The opening line. -/
def opening : Bytes := [dash, dash, dash, lineFeed]

/-- What comes of looking for the closing line. -/
inductive Search
  /-- A line feed at `start` begins the closing line, whose own line feed ends before `finish`. -/
  | found (start finish : Nat)
  /-- The last line feed, which may begin a closing line that is cut off. -/
  | missing (lastBreak : Nat)
deriving DecidableEq, Repr

/-- The length of the closing line that follows a line feed, with its own line feed. -/
def closingLength? (bytes : Bytes) : Option Nat :=
  let dashes := (bytes.takeWhile (· == dash)).length
  if 3 ≤ dashes && bytes[dashes]? == some lineFeed then some (dashes + 1) else none

/-- Looks for the closing line in bytes that stand at an offset. -/
def searchFrom (offset lastBreak : Nat) : Bytes → Search
  | [] => .missing lastBreak
  | byte :: rest =>
    if byte = lineFeed then
      match closingLength? rest with
      | some length => .found offset (offset + 1 + length)
      | none => searchFrom (offset + 1) offset rest
    else searchFrom (offset + 1) lastBreak rest

/-- Looks for the closing line in what has been read, from an offset on. -/
def search (buffer : Bytes) (resume : Nat) : Search :=
  searchFrom resume resume (buffer.drop resume)

/-- The header that lies before a closing line. -/
def ofClosing (buffer : Bytes) (start finish : Nat) : Header :=
  { frontMatter := Text.Utf8.decodeLossy ((buffer.take start).drop opening.length)
    contentOffset := finish }

/-- What is known once the bytes of a buffer are read. -/
inductive Verdict
  | done (result : Except Error (Option Header))
  /-- More has to be read; the search goes on at the last line feed. -/
  | more (lastBreak : Nat)

/-- What the bytes read so far say, looking at those from an offset on. -/
def verdict (buffer : Bytes) (ended : Bool) (resume : Nat) : Verdict :=
  match search buffer resume with
  | .found start finish => .done (.ok (some (ofClosing buffer start finish)))
  | .missing lastBreak =>
    if !ended then .more lastBreak
    else if headSize < buffer.length then .done (.error (.neverClosed buffer.length))
    else .done (.ok none)

theorem verdict_more_not_ended {buffer : Bytes} {ended : Bool} {resume lastBreak : Nat}
    (unknown : verdict buffer ended resume = .more lastBreak) : ended = false := by
  unfold verdict at unknown
  split at unknown
  · simp at unknown
  · split at unknown
    · rename_i notEnded
      simpa using notEnded
    · split at unknown <;> simp at unknown

/-- Looks for the closing line from an offset on, reading further pieces as long as it is missing. -/
def readOn (buffer : Bytes) (ended : Bool) (resume : Nat) (reader : Reader) :
    Except Error (Option Header) × Reader :=
  match _unknown : verdict buffer ended resume with
  | .done result => (result, reader)
  | .more lastBreak =>
    match _taken : reader.take pieceSize with
    | (.error error, rest) => (.error (.io error), rest)
    | (.ok (piece, now), rest) => readOn (buffer ++ piece) now lastBreak rest
termination_by if ended then 0 else reader.bytes.length + 1
decreasing_by
  have before := verdict_more_not_ended _unknown
  subst before
  cases now with
  | true => simp
  | false =>
    have := Reader.take_shorter _taken
    unfold pieceSize at this
    simp
    omega

/-- Reads the header of a page, if it has one. A header that is never closed is an error in a page
that is larger than the first read, and no header in a smaller one. -/
def read (reader : Reader) : Except Error (Option Header) × Reader :=
  match reader.take headSize with
  | (.error error, rest) => (.error (.io error), rest)
  | (.ok (buffer, ended), rest) =>
    if buffer.length < leastSize || !opening.isPrefixOf buffer then (.ok none, rest)
    else readOn buffer ended (opening.length - 1) rest

end Header

end StaticSite
