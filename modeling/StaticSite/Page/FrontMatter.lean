import StaticSite.Template.Literal
import StaticSite.Text.Blank

/-!
Front matter: entries of a key and a value. A key stands at the beginning of a line and ends in a
colon; its value is everything up to the next key, so that values may span lines. What precedes the
first key is ignored.
-/

namespace StaticSite.FrontMatter

open Json (Value Fields)

inductive Error
  /-- The value of a key begins like a literal but is none. -/
  | invalidValue (key : String) (problem : Template.Problem)

def Error.message : Error → String
  | .invalidValue key problem =>
    "invalid front matter value for key " ++ key ++ ": " ++ problem.message

/-- The characters that keys are made of. -/
def isKeyChar (c : Char) : Bool :=
  ('A' ≤ c && c ≤ 'Z') || ('a' ≤ c && c ≤ 'z') || ('0' ≤ c && c ≤ '9') ||
    c == '_' || c == '.' || c == '-' || c == '$'

/-- The key that a text begins with, and what follows its colon. -/
def key? (text : List Char) : Option (List Char × List Char) :=
  match text.dropWhile isKeyChar with
  | ':' :: rest =>
    if (text.takeWhile isKeyChar).isEmpty then none
    else some (text.takeWhile isKeyChar, rest)
  | _ => none

/-- A text cut before its first line, other than the one it begins within, that begins with a key. -/
def cutAtKey : List Char → List Char × List Char
  | [] => ([], [])
  | c :: rest =>
    if c = '\n' && (key? rest).isSome then (['\n'], rest)
    else
      let (value, more) := cutAtKey rest
      (c :: value, more)

theorem length_dropWhile_le {α : Type} (p : α → Bool) (xs : List α) :
    (xs.dropWhile p).length ≤ xs.length := by
  induction xs with
  | nil => simp
  | cons x rest ih =>
    simp only [List.dropWhile_cons]
    split
    · simp only [List.length_cons]; omega
    · simp

theorem key?_rest_lt {text name rest : List Char} (found : key? text = some (name, rest)) :
    rest.length < text.length := by
  have whole := length_dropWhile_le isKeyChar text
  unfold key? at found
  split at found
  · rename_i cut
    rw [cut] at whole
    split at found
    · simp at found
    · simp only [Option.some.injEq, Prod.mk.injEq] at found
      simp only [List.length_cons] at whole
      rw [← found.2]
      omega
  · simp at found

theorem cutAtKey_append (text : List Char) : (cutAtKey text).1 ++ (cutAtKey text).2 = text := by
  induction text with
  | nil => rfl
  | cons c rest ih =>
    unfold cutAtKey
    split
    · rename_i here
      simp only [Bool.and_eq_true, decide_eq_true_eq] at here
      simp [here.1]
    · simp [ih]

theorem cutAtKey_rest_le (text : List Char) : (cutAtKey text).2.length ≤ text.length := by
  have whole := congrArg List.length (cutAtKey_append text)
  rw [List.length_append] at whole
  omega

/-- The keys and raw values of a text that begins with a key. -/
def entriesFrom (text : List Char) : List (List Char × List Char) :=
  match _found : key? text with
  | none => []
  | some (name, rest) => (name, (cutAtKey rest).1) :: entriesFrom (cutAtKey rest).2
termination_by text.length
decreasing_by
  have shorter := key?_rest_lt _found
  have cut := cutAtKey_rest_le rest
  omega

/-- The keys and raw values of a text, in order. -/
def entries (text : List Char) : List (List Char × List Char) :=
  if (key? text).isSome then entriesFrom text else entriesFrom (cutAtKey text).2

/-- Whether a value is to be read as a literal. -/
def beginsLiteral (raw : List Char) : Bool :=
  match raw with
  | [] => false
  | c :: _ => c == '"' || c == '\'' || c == '[' || c == '\x7b'

/-- The integer that a whole value is, if it fits 64 bits with a sign. -/
def integer? (raw : List Char) : Option Int :=
  (Decimal.readInt? raw).filter fun i => -Nat.pow 2 63 ≤ i && i < Nat.pow 2 63

/-- The number that a whole value is: an integer if it can be, else a finite float. -/
def number? (raw : List Char) : Option Json.Number :=
  match integer? raw with
  | some i => some (.int i)
  | none => ((Decimal.readFloat? raw).filter Float.isFinite).map .float

/-- What a raw value means: a literal if it begins like one, a number if it is one, else its text. -/
def interpret (key : String) (raw : List Char) : Except Error Value :=
  if beginsLiteral raw then
    match Template.parseLiteral raw with
    | .ok value => .ok value
    | .error error => .error (.invalidValue key error.problem)
  else
    match number? raw with
    | some number => .ok (.number number)
    | none => .ok (.string (String.ofList raw))

/-- The fields of entries put in one after the other; the first value that cannot be read ends it. -/
def collect (fields : Fields) : List (List Char × List Char) → Except Error Fields
  | [] => .ok fields
  | (name, raw) :: rest => do
    let key := String.ofList name
    let value ← interpret key (Text.trim raw)
    collect (fields.insert key value) rest

/-- The fields of a front matter text. The last of several values for one key counts. -/
def parse (source : String) : Except Error Fields := collect [] (entries source.toList)

end StaticSite.FrontMatter
