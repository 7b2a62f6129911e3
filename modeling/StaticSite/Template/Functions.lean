import StaticSite.Template.Operators
import StaticSite.Text.Markup

/-!
The functions that templates can call besides the two that write, and what all templates of one context
share: constants and functions.
-/

namespace StaticSite.Template

open Json (Value Fields)

/-- Why a function has no result. -/
inductive FunctionError
  /-- A function was given a value of a kind that it has no result for. -/
  | unsuited (function : String) (kind : ValueKind)
deriving DecidableEq, Repr

def FunctionError.message : FunctionError → String
  | .unsuited function kind => function ++ "() of " ++ kind.text

/-- A function of templates. -/
abbrev Function := List Value → Except FunctionError Value

/-- An argument of a call; missing ones are null. -/
def argument (arguments : List Value) (n : Nat) : Value := (arguments[n]?).getD .null

/-- The number of characters, items or members of a value. -/
def length : Function := fun arguments =>
  match argument arguments 0 with
  | .string s => .ok (.ofNat s.length)
  | .array items => .ok (.ofNat items.length)
  | .object members => .ok (.ofNat members.length)
  | other => .error (.unsuited "len" (kindOf other))

/-- The names of the members of an object. -/
def memberNames : Function := fun arguments =>
  match argument arguments 0 with
  | .object members => .ok (.array (members.map fun member => .string member.1))
  | other => .error (.unsuited "keys" (kindOf other))

/-- The texts of the items of an array with a separator between them, which is a comma by default. -/
def joinItems : Function := fun arguments =>
  match argument arguments 0 with
  | .array items =>
    let separator := (arguments[1]?).elim "," toText
    .ok (.string (separator.intercalate (items.map toText)))
  | other => .error (.unsuited "join" (kindOf other))

/-- The standard functions by their names. -/
def standardFunction? : String → Option Function
  | "escape" => some fun arguments => .ok (.string (Text.escapeMarkup (toText (argument arguments 0))))
  | "json" => some fun arguments => .ok (.string (argument arguments 0).print)
  | "len" => some length
  | "keys" => some memberNames
  | "join" => some joinItems
  | _ => none

/-- What all templates of a context share. -/
structure Shared where
  constants : Fields
  function? : String → Option Function

/-- The standard functions without any constants. -/
def Shared.standard : Shared := ⟨[], standardFunction?⟩

/-- Neither functions nor constants. -/
def Shared.bare : Shared := ⟨[], fun _ => none⟩

end StaticSite.Template
