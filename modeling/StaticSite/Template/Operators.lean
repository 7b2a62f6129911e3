import StaticSite.Template.Syntax
import StaticSite.Template.Token

/-!
What operators do with values. Numbers print without a fraction when they are whole, arrays print as
lists with commas, and empty strings count as false.
-/

namespace StaticSite.Template

open Json (Value Number Fields)

/-- The text of a number. A whole float of ordinary size prints like the integer that it is; only
negative zero keeps its sign. -/
def numberText : Number → String
  | .int value => String.ofList (Json.printInt value)
  | .float value =>
    match Decimal.toInt? value with
    | some whole =>
      if value.abs < 1e21 then
        String.ofList ((if whole == 0 && value.toBits != 0 then ['-'] else []) ++ Json.printInt whole)
      else Decimal.plainText value
    | none => Decimal.plainText value

mutual

/-- The text of a value, as it is printed. -/
def toText : Value → String
  | .null => "null"
  | .bool true => "true"
  | .bool false => "false"
  | .number n => numberText n
  | .string s => s
  | .array items => ",".intercalate (itemTexts items)
  | .object members => Value.print (.object members)

/-- The texts of the items of an array, in which nulls are empty. -/
def itemTexts : List Value → List String
  | [] => []
  | .null :: rest => "" :: itemTexts rest
  | item :: rest => toText item :: itemTexts rest

end

/-- Whether a value counts as true. -/
def truthy : Value → Bool
  | .null => false
  | .bool b => b
  | .number n => n.toFloat != 0.0
  | .string s => s != ""
  | .array _ => true
  | .object _ => true

/-- The kinds of values, as error messages name them. -/
inductive ValueKind
  | null
  | boolean
  | number
  | string
  | array
  | object
deriving DecidableEq, Repr

def kindOf : Value → ValueKind
  | .null => .null
  | .bool _ => .boolean
  | .number _ => .number
  | .string _ => .string
  | .array _ => .array
  | .object _ => .object

def ValueKind.text : ValueKind → String
  | .null => "null"
  | .boolean => "boolean"
  | .number => "number"
  | .string => "string"
  | .array => "array"
  | .object => "object"

/-- The bound below which every whole float is an integer without loss. -/
def wholeBound : Float := 9007199254740992.0

/-- A float as a number: an integer if it is whole and below the bound. The result of the left is the
float itself, where it is infinite or no number. -/
def ofFloat (f : Float) : Except Float Value :=
  match Decimal.toInt? f with
  | some whole =>
    if f.abs < wholeBound then .ok (.number (.int whole)) else .ok (.number (.float f))
  | none => if f.isFinite then .ok (.number (.float f)) else .error f

/-- The float that a value is, if it is a number. -/
def asFloat? : Value → Option Float
  | .number n => some n.toFloat
  | _ => none

/-- Equality of values in templates: numbers compare as floats, all else by structure. -/
def looselyEqual (a b : Value) : Bool :=
  match asFloat? a, asFloat? b with
  | some x, some y => x == y
  | _, _ => a.same b

/-- The order of two floats, if there is one. -/
def compareFloats (x y : Float) : Option Ordering :=
  if x < y then some .lt else if x == y then some .eq else if y < x then some .gt else none

/-- The order of two values, which only numbers and strings have. -/
def compareValues (a b : Value) : Option Ordering :=
  match a, b with
  | .number x, .number y => compareFloats x.toFloat y.toFloat
  | .string x, .string y => some (compare x y)
  | _, _ => none

/-- Why an operator has no result. -/
inductive OperatorError
  | mismatch (operator : BinaryOperator) (left right : ValueKind)
  | notFinite (value : Float)

def OperatorError.message : OperatorError → String
  | .mismatch operator left right =>
    "cannot apply " ++ backquoted operator.symbol ++ " to " ++ left.text ++ " and " ++ right.text
  | .notFinite value => notFiniteMessage value

/-- A float as a number, or the failure of an operator. -/
def finite (f : Float) : Except OperatorError Value :=
  match ofFloat f with
  | .ok value => .ok value
  | .error value => .error (.notFinite value)

/-- The result of an operator that evaluates both operands. The logical operators do not, and give
their right operand here. -/
def applyBinary (operator : BinaryOperator) (a b : Value) : Except OperatorError Value :=
  let mismatch := OperatorError.mismatch operator (kindOf a) (kindOf b)
  let arithmetic (f : Float → Float → Float) : Except OperatorError Value :=
    match asFloat? a, asFloat? b with
    | some x, some y => finite (f x y)
    | _, _ => .error mismatch
  let ordering (f : Ordering → Bool) : Except OperatorError Value :=
    match compareValues a b with
    | some order => .ok (.bool (f order))
    | none => .error mismatch
  match operator with
  | .add =>
    match a, b with
    | .string _, _ => .ok (.string (toText a ++ toText b))
    | _, .string _ => .ok (.string (toText a ++ toText b))
    | _, _ => arithmetic (· + ·)
  | .subtract => arithmetic (· - ·)
  | .multiply => arithmetic (· * ·)
  | .divide => arithmetic (· / ·)
  | .remainder => arithmetic Decimal.remainder
  | .equal => .ok (.bool (looselyEqual a b))
  | .notEqual => .ok (.bool !looselyEqual a b)
  | .less => ordering (· == .lt)
  | .lessEqual => ordering (· != .gt)
  | .greater => ordering (· == .gt)
  | .greaterEqual => ordering (· != .lt)
  | .and | .or => .ok b

end StaticSite.Template
