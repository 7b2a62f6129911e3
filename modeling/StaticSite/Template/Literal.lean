import StaticSite.Template.Parser

/-!
Literals: expressions that denote a value by themselves. They are what front matter may hold.
-/

namespace StaticSite.Template

open Json (Value Fields)

mutual

/-- The value that a literal denotes. Variables, calls, accesses and operators denote none; a minus
sign is part of a number. -/
def constant : Expr → Except SyntaxError Value
  | .literal _ value => .ok value
  | .array _ items => do
    let values ← constants items
    .ok (.array values)
  | .object _ entries => do
    let members ← constantMembers entries
    .ok (.object (Fields.ofList members))
  | .unary _ .negate operand => do
    match ← constant operand with
    | .number n =>
      match ofFloat (-n.toFloat) with
      | .ok value => .ok value
      | .error value => .error ⟨operand.position, .notFinite value⟩
    | _ => .error ⟨operand.position, .minusBeforeNonNumber⟩
  | .variable position name => .error ⟨position, .identifierInLiteral name⟩
  | other => .error ⟨other.position, .codeInLiteral⟩

def constants : List Expr → Except SyntaxError (List Value)
  | [] => .ok []
  | item :: rest => do
    let value ← constant item
    let values ← constants rest
    .ok (value :: values)

def constantMembers : List (String × Expr) → Except SyntaxError (List (String × Value))
  | [] => .ok []
  | (key, item) :: rest => do
    let value ← constant item
    let members ← constantMembers rest
    .ok ((key, value) :: members)

end

/-- The value of a literal that is all of a text. -/
def parseLiteral (source : List Char) : Except SyntaxError Value := do
  let tokens ← lexFrom 0 source
  let tokens := tokens ++ [⟨.finish, Text.byteLength source⟩]
  let (expression, rest) ← parseExpr (enoughDepth tokens) (Cursor.start source tokens)
  match rest.peek with
  | .finish => constant expression
  | _ => .error (rest.unexpected "end of value")

end StaticSite.Template
