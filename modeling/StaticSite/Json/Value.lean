import StaticSite.Decimal.Reading
import StaticSite.Decimal.Binary

/-!
The values that templates, front matter and page data are made of. Objects list their members in the
order of their keys, each key once; `Fields.insert` keeps both.
-/

namespace StaticSite.Json

/-- A number is an integer of at most 64 bits or a finite float. An integer and a float are different
values even where they denote the same number. -/
inductive Number
  | int (value : Int)
  | float (value : Float)

/-- The number as a float; integers beyond 53 bits round to the nearest. -/
def Number.toFloat : Number → Float
  | .int value =>
    let magnitude := Decimal.nearest value.natAbs 0
    if value < 0 then -magnitude else magnitude
  | .float value => value

/-- Equality of representations. Integers compare as integers and floats as floats. -/
def Number.same : Number → Number → Bool
  | .int a, .int b => a == b
  | .float a, .float b => a == b
  | _, _ => false

inductive Value
  | null
  | bool (value : Bool)
  | number (value : Number)
  | string (value : String)
  | array (items : List Value)
  | object (members : List (String × Value))

instance : Inhabited Value := ⟨.null⟩

/-- The members of an object or the variables of a scope, in the order of their names. -/
abbrev Fields := List (String × Value)

namespace Fields

/-- The value under a name. -/
def get? (fields : Fields) (name : String) : Option Value :=
  (fields.find? (·.1 == name)).map (·.2)

/-- The fields with a value put under a name, in place of any value that was there. -/
def insert (fields : Fields) (name : String) (value : Value) : Fields :=
  match fields with
  | [] => [(name, value)]
  | (key, old) :: rest =>
    if name < key then (name, value) :: (key, old) :: rest
    else if name == key then (name, value) :: rest
    else (key, old) :: insert rest name value

/-- The fields with those of a second list put in one after the other. -/
def overriddenBy (fields extra : Fields) : Fields :=
  extra.foldl (fun all field => all.insert field.1 field.2) fields

/-- The fields made of a list of pairs; of two pairs with one name the later wins. -/
def ofList (pairs : List (String × Value)) : Fields := overriddenBy [] pairs

/-- Whether a name has a value. -/
def contains (fields : Fields) (name : String) : Bool := (fields.get? name).isSome

end Fields

mutual

/-- Structural equality of values. -/
def Value.same : Value → Value → Bool
  | .null, .null => true
  | .bool a, .bool b => a == b
  | .number a, .number b => a.same b
  | .string a, .string b => a == b
  | .array as, .array bs => Value.sameItems as bs
  | .object as, .object bs => Value.sameMembers as bs
  | _, _ => false

def Value.sameItems : List Value → List Value → Bool
  | [], [] => true
  | a :: as, b :: bs => a.same b && Value.sameItems as bs
  | _, _ => false

def Value.sameMembers : List (String × Value) → List (String × Value) → Bool
  | [], [] => true
  | (key, a) :: as, (name, b) :: bs => key == name && a.same b && Value.sameMembers as bs
  | _, _ => false

end

/-- The integers that a number can hold: those of 64 bits, signed or unsigned. -/
def leastInteger : Int := -9223372036854775808

def greatestInteger : Int := 18446744073709551615

/-- A count as a value. -/
def Value.ofNat (n : Nat) : Value := .number (.int n)

end StaticSite.Json
