import StaticSite.Template.Cache
import StaticSite.Path.Resolve

/-!
Evaluating templates. An evaluation writes strings one after the other, keeps its variables in a stack
of scopes, and may fill the cache; all of that stays as it is when the evaluation fails. Includes are
followed by a function that the evaluator is given, so that it recurses on the template alone;
`evalFile` ties the knot with a bound on the depth of includes.
-/

namespace StaticSite.Template

open Json (Value Fields)

/-- What receives the writes of an evaluation: all of them, or the first few. -/
structure Output where
  limit : Option Nat := none
  chunks : Array String := #[]

/-- The output after one more write, if it accepts one. -/
def Output.write? (output : Output) (text : String) : Option Output :=
  if output.limit.any (· ≤ output.chunks.size) then none
  else some { output with chunks := output.chunks.push text }

/-- All that was written. -/
def Output.text (output : Output) : String := String.join output.chunks.toList

/-- What an evaluation changes. -/
structure Run where
  output : Output := {}
  /-- The local variables, innermost scope first. -/
  scopes : List Fields := []
  cache : Cache := {}

abbrev EvalM := ExceptT Error (StateM Run)

/-- What an evaluation of one template depends on. -/
structure Frame where
  template : Compiled
  properties : Properties
  shared : Shared
  /-- Whether the context that compiled the template still exists. -/
  contextAlive : Bool

/-- Fails at a byte offset of the template. -/
def Frame.fail {α : Type} (frame : Frame) (position : Nat) (problem : RuntimeProblem) : EvalM α :=
  throw (frame.template.error position problem)

/-- Writes a string. -/
def Frame.write (frame : Frame) (text : String) : EvalM Unit := do
  let run ← get
  match run.output.write? text with
  | some output => set { run with output }
  | none => throw (.io frame.template.filename (.other "sink is full"))

/-- Writes strings one by one. -/
def Frame.writeAll (frame : Frame) : List String → EvalM Unit
  | [] => pure ()
  | text :: rest => do
    frame.write text
    frame.writeAll rest

/-- The value of a name in the innermost scope that has it. -/
def lookupScopes (scopes : List Fields) (name : String) : Option Value :=
  scopes.findSome? fun scope => scope.get? name

/-- The value of a name: of a local variable, else of the caller's, else of a constant. -/
def Frame.lookup (frame : Frame) (scopes : List Fields) (name : String) : Option Value :=
  (lookupScopes scopes name).or
    ((frame.properties.bindings.get? name).or (frame.shared.constants.get? name))

/-- The scopes with a variable changed in the innermost scope that has it. -/
def assignScopes? (scopes : List Fields) (name : String) (value : Value) : Option (List Fields) :=
  match scopes with
  | [] => none
  | scope :: rest =>
    if scope.contains name then some (scope.insert name value :: rest)
    else (assignScopes? rest name value).map (scope :: ·)

/-- The scopes with a variable declared in the innermost one. -/
def declareScopes (scopes : List Fields) (name : String) (value : Value) : List Fields :=
  match scopes with
  | [] => []
  | scope :: rest => scope.insert name value :: rest

/-- Runs a body within one more scope, which is gone afterwards however the body ends. -/
def inScope (bindings : Fields) (body : EvalM Unit) : EvalM Unit :=
  ExceptT.mk fun run =>
    let (result, after) := body { run with scopes := bindings :: run.scopes }
    (result, { after with scopes := after.scopes.tail })

/-- The position that a number selects; floats select none. -/
def selected? : Json.Number → Option Nat
  | .int i => if 0 ≤ i then some i.toNat else none
  | .float _ => none

/-- A member of a value. -/
def memberOf (target : Value) (name : String) : Except RuntimeProblem Value :=
  match target with
  | .object members => .ok ((Fields.get? members name).getD .null)
  | .array items => .ok (if name == "length" then .ofNat items.length else .null)
  | .string s => .ok (if name == "length" then .ofNat s.length else .null)
  | .null => .error (.memberOfNull name)
  | _ => .ok .null

/-- An item, member or character of a value; null where there is none. -/
def indexOf (target index : Value) : Except RuntimeProblem Value :=
  match target, index with
  | .array items, .number n => .ok (((selected? n).bind (items[·]?)).getD .null)
  | .object members, .string key => .ok ((Fields.get? members key).getD .null)
  | .string s, .number n =>
    .ok (match (selected? n).bind (s.toList[·]?) with
      | some c => .string (String.ofList [c])
      | none => .null)
  | .null, _ => .error (.indexOfNull (toText index))
  | _, _ => .ok .null

/-- The keys and items of a value that a loop can run over. -/
def entriesOf : Value → Except RuntimeProblem (List (Value × Value))
  | .array items => .ok (items.mapIdx fun i item => (.ofNat i, item))
  | .object members => .ok (members.map fun (key, item) => (.string key, item))
  | .null => .ok []
  | other => .error (.notIterable (kindOf other))

/-- The variables of one round of a loop. -/
def loopBindings (first : String) (second : Option String) (key item : Value) : Fields :=
  match second with
  | some second => (Fields.insert [] first key).insert second item
  | none => Fields.insert [] first item

/-- The result of a step that may have a problem, at a position of the template. -/
def Frame.orFail {α : Type} (frame : Frame) (position : Nat) :
    Except RuntimeProblem α → EvalM α
  | .ok value => pure value
  | .error problem => frame.fail position problem

/-- Calls a function with values. The functions that write give null. -/
def Frame.call (frame : Frame) (position : Nat) (name : String) (arguments : List Value) :
    EvalM Value := do
  if name == "print" then
    frame.writeAll (arguments.map toText)
    return .null
  else if name == "printv" then
    frame.writeAll (arguments.map fun value => Text.escapeMarkup (toText value))
    return .null
  else
    match frame.shared.function? name with
    | none => frame.fail position (.undefinedName name)
    | some function =>
      match function arguments with
      | .ok value => return value
      | .error error => frame.fail position (.function name error)

mutual

/-- The value of an expression. -/
def Frame.eval (frame : Frame) : Expr → EvalM Value
  | .literal _ value => pure value
  | .variable position name => do
    match frame.lookup (← get).scopes name with
    | some value => pure value
    | none => frame.fail position (.undefinedName name)
  | .array _ items => do
    let values ← frame.evalItems items
    return .array values
  | .object _ entries => do
    let members ← frame.evalEntries entries
    return .object (Fields.ofList members)
  | .member position target name => do
    let target ← frame.eval target
    frame.orFail position (memberOf target name)
  | .index position target index => do
    let target ← frame.eval target
    let index ← frame.eval index
    frame.orFail position (indexOf target index)
  | .call position name arguments => do
    if (frame.lookup (← get).scopes name).isSome then
      frame.fail position (.notAFunction name)
    else
      let values ← frame.evalItems arguments
      frame.call position name values
  | .unary _ .not operand => do
    let value ← frame.eval operand
    return .bool !truthy value
  | .unary position .negate operand => do
    let value ← frame.eval operand
    match asFloat? value with
    | some f =>
      match finite (-f) with
      | .ok value => return value
      | .error error => frame.fail position (.operator error)
    | none => frame.fail position (.notNegatable (kindOf value))
  | .binary _ .and left right => do
    let value ← frame.eval left
    if truthy value then frame.eval right else return value
  | .binary _ .or left right => do
    let value ← frame.eval left
    if truthy value then return value else frame.eval right
  | .binary position operator left right => do
    let l ← frame.eval left
    let r ← frame.eval right
    match applyBinary operator l r with
    | .ok value => return value
    | .error error => frame.fail position (.operator error)
  | .conditional _ condition yes no => do
    let value ← frame.eval condition
    if truthy value then frame.eval yes else frame.eval no

/-- The values of expressions, from left to right. -/
def Frame.evalItems (frame : Frame) : List Expr → EvalM (List Value)
  | [] => pure []
  | item :: rest => do
    let value ← frame.eval item
    let values ← frame.evalItems rest
    return value :: values

/-- The keys and values of the entries of an object, from left to right. -/
def Frame.evalEntries (frame : Frame) : List (String × Expr) → EvalM (List (String × Value))
  | [] => pure []
  | (key, item) :: rest => do
    let value ← frame.eval item
    let members ← frame.evalEntries rest
    return (key, value) :: members

end

/-- Runs a body for each entry in turn. -/
def forEntries (body : Value → Value → EvalM Unit) : List (Value × Value) → EvalM Unit
  | [] => pure ()
  | (key, item) :: rest => do
    body key item
    forEntries body rest

/-- The variables of an included template: the caller's, overridden by those of an environment value. -/
def Frame.environment (frame : Frame) (position : Nat) (value : Value) : EvalM Fields :=
  match value with
  | .object extra => pure (frame.properties.bindings.overriddenBy extra)
  | .null => pure frame.properties.bindings
  | other => frame.fail position (.environmentNotAnObject (kindOf other))

/-- How a file is included. -/
abbrev Include := Path → Properties → EvalM Unit

/-- Includes a file. The path and the environment are evaluated before anything else is looked at. -/
def Frame.embed (frame : Frame) (includeFile : Include) (position : Nat) (path : Expr)
    (environment : Option Expr) : EvalM Unit := do
  let target := toText (← frame.eval path)
  let bindings ←
    match environment with
    | none => pure frame.properties.bindings
    | some expression => do frame.environment position (← frame.eval expression)
  if !frame.contextAlive then frame.fail position .contextGone
  else
    includeFile (frame.template.directory.resolve ⟨target⟩)
      { frame.properties with bindings, filename := none }

mutual

/-- Executes one node. -/
def Frame.exec (frame : Frame) (includeFile : Include) : Node → EvalM Unit
  | .text content => frame.write content
  | .echo value => do
    let value ← frame.eval value
    frame.write (Text.escapeMarkup (toText value))
  | .expression value => do
    let _ ← frame.eval value
  | .declare name value => do
    let value ← frame.eval value
    modify fun run => { run with scopes := declareScopes run.scopes name value }
  | .assign position name value => do
    let value ← frame.eval value
    let run ← get
    match assignScopes? run.scopes name value with
    | some scopes => set { run with scopes }
    | none => frame.fail position (.undeclaredVariable name)
  | .choose branches none => do
    let _ ← frame.execBranches includeFile branches
  | .choose branches (some body) => do
    let taken ← frame.execBranches includeFile branches
    if !taken then inScope [] (frame.execAll includeFile body)
  | .each first second entries body => do
    let value ← frame.eval entries
    let entries ← frame.orFail entries.position (entriesOf value)
    forEntries
      (fun key item =>
        inScope (loopBindings first second key item) (frame.execAll includeFile body))
      entries
  | .embed position path environment => frame.embed includeFile position path environment

/-- Executes nodes in order. -/
def Frame.execAll (frame : Frame) (includeFile : Include) : List Node → EvalM Unit
  | [] => pure ()
  | node :: rest => do
    frame.exec includeFile node
    frame.execAll includeFile rest

/-- Executes the body of the first branch whose condition holds, and says whether there was one. -/
def Frame.execBranches (frame : Frame) (includeFile : Include) :
    List (Expr × List Node) → EvalM Bool
  | [] => pure false
  | (condition, body) :: rest => do
    let value ← frame.eval condition
    if truthy value then
      inScope [] (frame.execAll includeFile body)
      return true
    else frame.execBranches includeFile rest

end

/-- Evaluates a compiled template with scopes of its own. -/
def Frame.run (frame : Frame) (includeFile : Include) : EvalM Unit :=
  ExceptT.mk fun run =>
    let (result, after) :=
      frame.execAll includeFile frame.template.nodes { run with scopes := [[]] }
    (result, { after with scopes := run.scopes })

/-- The template of a file, through the cache. -/
def loadFile (fs : FileSystem) (path : Path) (properties : Properties) : EvalM Compiled := do
  let run ← get
  match load fs run.cache path properties with
  | .ok (template, cache) =>
    set { run with cache }
    return template
  | .error error => throw error

/-- Evaluates a template file and what it includes, at most `depth` files within each other. -/
def evalFile (fs : FileSystem) (shared : Shared) : Nat → Include
  | 0, _, _ => throw .tooDeep
  | depth + 1, path, properties => do
    let template ← loadFile fs path properties
    Frame.run { template, properties, shared, contextAlive := true } (evalFile fs shared depth)

/-- Evaluates a compiled template and what it includes, at most `depth` files within each other. -/
def evalCompiled (fs : FileSystem) (shared : Shared) (depth : Nat) (contextAlive : Bool)
    (template : Compiled) (properties : Properties) : EvalM Unit :=
  Frame.run { template, properties, shared, contextAlive } (evalFile fs shared depth)

/-- The text that a run writes when it starts with an empty output, or how it fails, and the cache that
it leaves behind. -/
def textOf (action : EvalM Unit) (cache : Cache) : Except Error String × Cache :=
  let (result, run) := action.run.run { cache }
  (result.map fun _ => run.output.text, run.cache)

end StaticSite.Template
