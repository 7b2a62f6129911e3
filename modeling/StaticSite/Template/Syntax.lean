import StaticSite.Json.Value

/-!
Templates after parsing. Positions are byte offsets in the template source; an operator stands at the
position of its first operand.
-/

namespace StaticSite.Template

open Json (Value)

inductive UnaryOperator
  | not
  | negate
deriving DecidableEq, Repr

inductive BinaryOperator
  | add
  | subtract
  | multiply
  | divide
  | remainder
  | equal
  | notEqual
  | less
  | lessEqual
  | greater
  | greaterEqual
  | and
  | or
deriving DecidableEq, Repr

inductive Expr
  | literal (position : Nat) (value : Value)
  | variable (position : Nat) (name : String)
  | array (position : Nat) (items : List Expr)
  | object (position : Nat) (entries : List (String × Expr))
  | member (position : Nat) (target : Expr) (name : String)
  | index (position : Nat) (target index : Expr)
  | call (position : Nat) (name : String) (arguments : List Expr)
  | unary (position : Nat) (operator : UnaryOperator) (operand : Expr)
  | binary (position : Nat) (operator : BinaryOperator) (left right : Expr)
  | conditional (position : Nat) (condition yes no : Expr)

/-- Where an expression begins. -/
def Expr.position : Expr → Nat
  | .literal position _ => position
  | .variable position _ => position
  | .array position _ => position
  | .object position _ => position
  | .member position _ _ => position
  | .index position _ _ => position
  | .call position _ _ => position
  | .unary position _ _ => position
  | .binary position _ _ _ => position
  | .conditional position _ _ _ => position

inductive Node
  /-- Text that is written as it is. -/
  | text (content : String)
  /-- An expression whose value is written escaped. -/
  | echo (value : Expr)
  /-- An expression evaluated for what it writes. -/
  | expression (value : Expr)
  | declare (name : String) (value : Expr)
  | assign (position : Nat) (name : String) (value : Expr)
  /-- The body of the first branch whose condition holds, else the last body if there is one. -/
  | choose (branches : List (Expr × List Node)) (otherwise : Option (List Node))
  /-- The body once for each entry. A second name takes the item, and the first the key then. -/
  | each (first : String) (second : Option String) (entries : Expr) (body : List Node)
  /-- Another template file, evaluated in place. -/
  | embed (position : Nat) (path : Expr) (environment : Option Expr)

/-- The symbol of a binary operator. -/
def BinaryOperator.symbol : BinaryOperator → String
  | .add => "+"
  | .subtract => "-"
  | .multiply => "*"
  | .divide => "/"
  | .remainder => "%"
  | .equal => "=="
  | .notEqual => "!="
  | .less => "<"
  | .lessEqual => "<="
  | .greater => ">"
  | .greaterEqual => ">="
  | .and => "&&"
  | .or => "||"

/-- How tightly an operator binds; a greater level binds tighter. -/
def BinaryOperator.level : BinaryOperator → Nat
  | .or => 0
  | .and => 1
  | .equal | .notEqual => 2
  | .less | .lessEqual | .greater | .greaterEqual => 3
  | .add | .subtract => 4
  | .multiply | .divide | .remainder => 5

/-- The level of the tightest binary operators. -/
def tightestLevel : Nat := 5

end StaticSite.Template
