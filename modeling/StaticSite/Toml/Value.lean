import StaticSite.Toml.Moment

/-!
The values of TOML.
-/

namespace StaticSite.Toml

inductive Value
  | string (text : String)
  | integer (value : Int)
  /-- Infinite and not-a-number values are written as such. -/
  | float (value : Float)
  | boolean (value : Bool)
  | moment (value : Moment)
  | array (items : List Value)
  /-- Entries in the order of their first keys, each key once. -/
  | table (entries : List (String × Value))

/-- The entries of a table. -/
abbrev Entries := List (String × Value)

mutual

/-- Whether all integers in a value are within bounds. -/
def Value.integersWithin (least greatest : Int) : Value → Bool
  | .integer value => least ≤ value && value ≤ greatest
  | .array items => itemsWithin least greatest items
  | .table entries => entriesWithin least greatest entries
  | _ => true

/-- Whether all integers in a list of values are within bounds. -/
def itemsWithin (least greatest : Int) : List Value → Bool
  | [] => true
  | item :: rest => item.integersWithin least greatest && itemsWithin least greatest rest

/-- Whether all integers in the entries of a table are within bounds. -/
def entriesWithin (least greatest : Int) : List (String × Value) → Bool
  | [] => true
  | (_, value) :: rest => value.integersWithin least greatest && entriesWithin least greatest rest

end

end StaticSite.Toml
