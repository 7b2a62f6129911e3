import Mathlib.Tactic.Common
import StaticSite.Template.Eval

/-!
What the evaluation of one template asks for: the strings to write and the files to include, in order.
A `Script` lists these requests and says how the evaluation ends if none of them fails. It is worked out
without a sink, a cache or any file. `Frame.run_eq_play` says that the evaluator does what the script of
its template asks for and nothing else.
-/

namespace StaticSite.Template

open Json (Value Fields)

/-- A string to be written, with what it is the text of. -/
inductive Chunk
  | literal (content : String)
  | escaped (value : Value)
  | printed (value : Value)

def Chunk.text : Chunk → String
  | .literal content => content
  | .escaped value => Text.escapeMarkup (toText value)
  | .printed value => toText value

inductive Request
  | write (chunk : Chunk)
  /-- To evaluate the file that a text leads to, for the call of `include` at a position. -/
  | embed (position : Nat) (target : String) (bindings : Fields)

structure Script (α : Type) where
  requests : List Request
  result : Except Error α

instance : Monad Script where
  pure value := ⟨[], .ok value⟩
  bind script next :=
    match script.result with
    | .ok value => ⟨script.requests ++ (next value).requests, (next value).result⟩
    | .error error => ⟨script.requests, .error error⟩

/-- A script that depends on the scopes it starts with and leaves others. -/
abbrev ScriptM := StateT (List Fields) Script

namespace ScriptM

variable {α : Type}

def ask (request : Request) : ScriptM Unit := fun scopes => ⟨[request], .ok ((), scopes)⟩

def writeAll : List Chunk → ScriptM Unit
  | [] => pure ()
  | chunk :: rest => do
    ask (.write chunk)
    writeAll rest

/-- A result that is known without asking for anything. -/
def ending (result : Except Error α) : ScriptM α := fun scopes => ⟨[], result.map (·, scopes)⟩

/-- A body within one more scope. -/
def inScope (bindings : Fields) (body : ScriptM Unit) : ScriptM Unit := fun scopes => do
  let (_, left) ← body (bindings :: scopes)
  return ((), left.tail)

/-- A body for each entry in turn. -/
def forEntries (body : Value → Value → ScriptM Unit) : List (Value × Value) → ScriptM Unit
  | [] => pure ()
  | (key, item) :: rest => do
    body key item
    forEntries body rest

end ScriptM

namespace Frame

/-! ## The script of a template -/

/-- A result whose problem is placed in the template. -/
def placed {α : Type} (frame : Frame) (position : Nat) (result : Except RuntimeProblem α) :
    ScriptM α :=
  .ending (result.mapError (frame.template.error position))

def lookupScript (frame : Frame) (name : String) : ScriptM (Option Value) := do
  return frame.lookup (← get) name

def callScript (frame : Frame) (position : Nat) (name : String) (arguments : List Value) :
    ScriptM Value :=
  if name == "print" then do
    ScriptM.writeAll (arguments.map .printed)
    return .null
  else if name == "printv" then do
    ScriptM.writeAll (arguments.map .escaped)
    return .null
  else
    match frame.shared.function? name with
    | none => frame.placed position (.error (.undefinedName name))
    | some function => frame.placed position ((function arguments).mapError (.function name))

mutual

def exprScript (frame : Frame) : Expr → ScriptM Value
  | .literal _ value => pure value
  | .variable position name => do
    match ← frame.lookupScript name with
    | some value => return value
    | none => frame.placed position (.error (.undefinedName name))
  | .array _ items => do
    let values ← frame.itemsScript items
    return .array values
  | .object _ entries => do
    let members ← frame.entriesScript entries
    return .object (Fields.ofList members)
  | .member position target name => do
    let target ← frame.exprScript target
    frame.placed position (memberOf target name)
  | .index position target index => do
    let target ← frame.exprScript target
    let index ← frame.exprScript index
    frame.placed position (indexOf target index)
  | .call position name arguments => do
    match ← frame.lookupScript name with
    | some _ => frame.placed position (.error (.notAFunction name))
    | none => do
      let values ← frame.itemsScript arguments
      frame.callScript position name values
  | .unary _ .not operand => do
    let value ← frame.exprScript operand
    return .bool !truthy value
  | .unary position .negate operand => do
    let value ← frame.exprScript operand
    frame.placed position
      (match asFloat? value with
        | some f => (finite (-f)).mapError .operator
        | none => .error (.notNegatable (kindOf value)))
  | .binary _ .and left right => do
    let value ← frame.exprScript left
    if truthy value then frame.exprScript right else return value
  | .binary _ .or left right => do
    let value ← frame.exprScript left
    if truthy value then return value else frame.exprScript right
  | .binary position operator left right => do
    let l ← frame.exprScript left
    let r ← frame.exprScript right
    frame.placed position ((applyBinary operator l r).mapError .operator)
  | .conditional _ condition yes no => do
    let value ← frame.exprScript condition
    if truthy value then frame.exprScript yes else frame.exprScript no

def itemsScript (frame : Frame) : List Expr → ScriptM (List Value)
  | [] => pure []
  | item :: rest => do
    let value ← frame.exprScript item
    let values ← frame.itemsScript rest
    return value :: values

def entriesScript (frame : Frame) : List (String × Expr) → ScriptM (List (String × Value))
  | [] => pure []
  | (key, item) :: rest => do
    let value ← frame.exprScript item
    let members ← frame.entriesScript rest
    return (key, value) :: members

end

/-- The variables of an included template. -/
def environmentOf (frame : Frame) : Value → Except RuntimeProblem Fields
  | .object extra => .ok (frame.properties.bindings.overriddenBy extra)
  | .null => .ok frame.properties.bindings
  | other => .error (.environmentNotAnObject (kindOf other))

def embedScript (frame : Frame) (position : Nat) (path : Expr) (environment : Option Expr) :
    ScriptM Unit := do
  let target ← frame.exprScript path
  match environment with
  | none => ScriptM.ask (.embed position (toText target) frame.properties.bindings)
  | some expression => do
    let value ← frame.exprScript expression
    let bindings ← frame.placed position (frame.environmentOf value)
    ScriptM.ask (.embed position (toText target) bindings)

mutual

def nodeScript (frame : Frame) : Node → ScriptM Unit
  | .text content => ScriptM.ask (.write (.literal content))
  | .echo value => do
    let value ← frame.exprScript value
    ScriptM.ask (.write (.escaped value))
  | .expression value => do
    let _ ← frame.exprScript value
  | .declare name value => do
    let value ← frame.exprScript value
    modify fun scopes => declareScopes scopes name value
  | .assign position name value => do
    let value ← frame.exprScript value
    match assignScopes? (← get) name value with
    | some scopes => set scopes
    | none => frame.placed position (.error (.undeclaredVariable name))
  | .choose branches none => do
    let _ ← frame.branchesScript branches
  | .choose branches (some body) => do
    let taken ← frame.branchesScript branches
    if !taken then ScriptM.inScope [] (frame.nodesScript body)
  | .each first second entries body => do
    let value ← frame.exprScript entries
    let entries ← frame.placed entries.position (entriesOf value)
    ScriptM.forEntries
      (fun key item =>
        ScriptM.inScope (loopBindings first second key item) (frame.nodesScript body))
      entries
  | .embed position path environment => frame.embedScript position path environment

def nodesScript (frame : Frame) : List Node → ScriptM Unit
  | [] => pure ()
  | node :: rest => do
    frame.nodeScript node
    frame.nodesScript rest

/-- Says whether a branch was taken. -/
def branchesScript (frame : Frame) : List (Expr × List Node) → ScriptM Bool
  | [] => pure false
  | (condition, body) :: rest => do
    let value ← frame.exprScript condition
    if truthy value then
      ScriptM.inScope [] (frame.nodesScript body)
      return true
    else frame.branchesScript rest

end

/-- The script of a whole template. -/
def script (frame : Frame) : Script Unit := do
  let _ ← frame.nodesScript frame.template.nodes [[]]
  return ()

/-! ## Carrying out a script -/

variable {α β : Type}

def answer (frame : Frame) (includeFile : Include) : Request → EvalM Unit
  | .write chunk => frame.write chunk.text
  | .embed position target bindings =>
    if !frame.contextAlive then frame.fail position .contextGone
    else
      includeFile (frame.template.directory.resolve ⟨target⟩)
        { frame.properties with bindings, filename := none }

/-- Answers one request after the other. -/
def answerAll (frame : Frame) (includeFile : Include) : List Request → EvalM Unit
  | [] => pure ()
  | request :: rest => do
    frame.answer includeFile request
    frame.answerAll includeFile rest

def play (frame : Frame) (includeFile : Include) (script : Script α) : EvalM α := do
  frame.answerAll includeFile script.requests
  match script.result with
  | .ok value => pure value
  | .error error => throw error

end Frame

section Actions

variable {α β : Type} {action : EvalM α} {next : α → EvalM β}

theorem bind_apply (action : EvalM α) (next : α → EvalM β) (run : Run) :
    (action >>= next) run =
      match action run with
      | (.ok value, after) => next value after
      | (.error error, after) => (.error error, after) := by
  change ExceptT.bindCont next (action run).1 (action run).2 = _
  rcases action run with ⟨_ | _, after⟩ <;> rfl

/-- An action that neither looks at the scopes nor changes them. -/
def Unscoped (action : EvalM α) : Prop :=
  ∀ run scopes, action { run with scopes } = ((action run).1, { (action run).2 with scopes })

theorem Unscoped.scopes_eq (unscoped : Unscoped action) (run : Run) :
    (action run).2.scopes = run.scopes := by
  have same := unscoped run run.scopes
  rw [show { run with scopes := run.scopes } = run from rfl] at same
  exact congrArg (fun outcome => outcome.2.scopes) same

theorem Unscoped.bind (first : Unscoped action) (rest : ∀ value, Unscoped (next value)) :
    Unscoped (action >>= next) := by
  intro run scopes
  rw [bind_apply, bind_apply, first run scopes]
  rcases action run with ⟨_ | value, after⟩
  · rfl
  · exact rest value after scopes

theorem unscoped_pure (value : α) : Unscoped (pure value) := fun _ _ => rfl

theorem unscoped_throw (error : Error) : Unscoped (throw error : EvalM α) := fun _ _ => rfl

theorem Frame.write_apply (frame : Frame) (text : String) (run : Run) :
    frame.write text run =
      match run.output.write? text with
      | some output => (.ok (), { run with output })
      | none => (.error (.io frame.template.filename (.other "sink is full")), run) := by
  rw [Frame.write, bind_apply]
  change (match run.output.write? text with
    | some output => set { run with output }
    | none => throw _ : EvalM Unit) run = _
  cases run.output.write? text <;> rfl

theorem unscoped_write (frame : Frame) (text : String) : Unscoped (frame.write text) := by
  intro run scopes
  rw [frame.write_apply, frame.write_apply]
  dsimp only
  cases run.output.write? text <;> rfl

end Actions

namespace Frame

variable {α β : Type} {frame : Frame} {includeFile : Include}

theorem answerAll_append (first rest : List Request) :
    frame.answerAll includeFile (first ++ rest) =
      (do frame.answerAll includeFile first; frame.answerAll includeFile rest) := by
  induction first with
  | nil => rfl
  | cons request first ih => simp only [List.cons_append, answerAll, ih, bind_assoc]

theorem play_bind (script : Script α) (rest : α → Script β) :
    frame.play includeFile (script >>= rest) =
      (do let value ← frame.play includeFile script; frame.play includeFile (rest value)) := by
  obtain ⟨requests, result⟩ := script
  cases result with
  | error error =>
      change (frame.answerAll includeFile requests >>= fun _ => throw error) =
        (frame.answerAll includeFile requests >>= fun _ => throw error) >>= _
      rw [bind_assoc]
      rfl
  | ok value =>
      change (frame.answerAll includeFile (requests ++ (rest value).requests) >>= _) =
        (frame.answerAll includeFile requests >>= fun _ => pure value) >>= _
      rw [answerAll_append, bind_assoc, bind_assoc]
      rfl

/-! ## The evaluator follows the script -/

/-- What an action comes to whose script has been carried out. If that failed, the action has left
some scopes or other. -/
def settled (left : List Fields) :
    Except Error (α × List Fields) × Run → Except Error α × Run
  | (.ok (value, scopes), after) => (.ok value, { after with scopes })
  | (.error error, after) => (.error error, { after with scopes := left })

/-- An action that does what a script asks for and leaves the scopes that the script leaves. -/
def Follows (frame : Frame) (includeFile : Include) (action : EvalM α) (script : ScriptM α) : Prop :=
  ∀ run, ∃ left, action run = settled left (frame.play includeFile (script run.scopes) run)

theorem follows_pure (value : α) : Follows frame includeFile (pure value) (pure value) :=
  fun run => ⟨run.scopes, rfl⟩

theorem follows_placed (position : Nat) (result : Except RuntimeProblem α) :
    Follows frame includeFile (frame.orFail position result) (frame.placed position result) := by
  intro run
  cases result <;> exact ⟨run.scopes, rfl⟩

theorem follows_lookup (name : String) :
    Follows frame includeFile (do return frame.lookup (← get).scopes name)
      (frame.lookupScript name) :=
  fun run => ⟨run.scopes, rfl⟩

theorem follows_modify (change : List Fields → List Fields) :
    Follows frame includeFile (modify fun run => { run with scopes := change run.scopes })
      (modify change) :=
  fun run => ⟨run.scopes, rfl⟩

theorem follows_assign (position : Nat) (name : String) (value : Value) :
    Follows frame includeFile
      (do
        let run ← get
        match assignScopes? run.scopes name value with
        | some scopes => set { run with scopes }
        | none => frame.fail position (.undeclaredVariable name))
      (do
        match assignScopes? (← get) name value with
        | some scopes => set scopes
        | none => frame.placed position (.error (.undeclaredVariable name))) := by
  intro run
  refine ⟨run.scopes, ?_⟩
  change (match assignScopes? run.scopes name value with
    | some scopes => set { run with scopes }
    | none => frame.fail position (.undeclaredVariable name) : EvalM Unit) run = settled run.scopes
      (frame.play includeFile ((match assignScopes? run.scopes name value with
        | some scopes => set scopes
        | none => frame.placed position (.error (.undeclaredVariable name)) : ScriptM Unit) run.scopes) run)
  cases assignScopes? run.scopes name value <;> rfl

section Unscoped

variable (unscoped : ∀ path properties, Unscoped (includeFile path properties))
include unscoped

theorem unscoped_answer (frame : Frame) (request : Request) :
    Unscoped (frame.answer includeFile request) := by
  cases request with
  | write chunk => exact unscoped_write frame chunk.text
  | embed position target bindings =>
      simp only [answer]
      split
      · exact unscoped_throw _
      · exact unscoped _ _

theorem unscoped_play (frame : Frame) (script : Script α) :
    Unscoped (frame.play includeFile script) := by
  obtain ⟨requests, result⟩ := script
  refine .bind ?_ fun _ => ?_
  · induction requests with
    | nil => exact unscoped_pure _
    | cons request rest ih => exact (unscoped_answer unscoped frame request).bind fun _ => ih
  · cases result with
    | error error => exact unscoped_throw error
    | ok value => exact unscoped_pure value

theorem follows_ask (frame : Frame) (request : Request) :
    Follows frame includeFile (frame.answer includeFile request) (.ask request) := by
  intro run
  change ∃ left, _ = settled left
    (((frame.answer includeFile request >>= fun _ => pure ()) >>= fun _ => pure ((), run.scopes)) run)
  rw [bind_assoc, bind_apply]
  have kept := (unscoped_answer unscoped frame request).scopes_eq run
  generalize frame.answer includeFile request run = outcome at kept ⊢
  obtain ⟨_ | _, after⟩ := outcome
  · exact ⟨after.scopes, rfl⟩
  · rw [← kept]
    exact ⟨[], rfl⟩

theorem Follows.bind {action : EvalM α} {next : α → EvalM β} {first : ScriptM α}
    {rest : α → ScriptM β} (follows : Follows frame includeFile action first)
    (others : ∀ value, Follows frame includeFile (next value) (rest value)) :
    Follows frame includeFile (action >>= next) (first >>= rest) := by
  intro run
  obtain ⟨left, acted⟩ := follows run
  change ∃ left, _ = settled left
    (frame.play includeFile (first run.scopes >>= fun outcome => rest outcome.1 outcome.2) run)
  rw [play_bind, bind_apply, bind_apply, acted]
  generalize frame.play includeFile (first run.scopes) run = outcome
  obtain ⟨_ | ⟨value, scopes⟩, after⟩ := outcome
  · exact ⟨left, rfl⟩
  · obtain ⟨left, acted⟩ := others value { after with scopes }
    refine ⟨left, ?_⟩
    change next value { after with scopes } = settled left (frame.play includeFile (rest value scopes) after)
    rw [acted, unscoped_play unscoped frame (rest value scopes) after scopes]
    generalize frame.play includeFile (rest value scopes) after = outcome
    obtain ⟨_ | _, after⟩ := outcome <;> rfl

theorem follows_inScope {body : EvalM Unit} {script : ScriptM Unit} (bindings : Fields)
    (follows : Follows frame includeFile body script) :
    Follows frame includeFile (inScope bindings body) (.inScope bindings script) := by
  intro run
  obtain ⟨left, acted⟩ := follows { run with scopes := bindings :: run.scopes }
  refine ⟨left.tail, ?_⟩
  change ((body { run with scopes := bindings :: run.scopes }).1,
    { (body { run with scopes := bindings :: run.scopes }).2 with
      scopes := (body { run with scopes := bindings :: run.scopes }).2.scopes.tail }) =
    settled left.tail (frame.play includeFile
      (script (bindings :: run.scopes) >>= fun outcome => pure ((), outcome.2.tail)) run)
  rw [play_bind, bind_apply, acted]
  have moved := unscoped_play unscoped frame (script (bindings :: run.scopes)) run (bindings :: run.scopes)
  rw [moved]
  generalize frame.play includeFile (script (bindings :: run.scopes)) run = outcome
  obtain ⟨_ | _, after⟩ := outcome <;> rfl

theorem follows_looking (name : String) (next : Option Value → EvalM α)
    {rest : Option Value → ScriptM α}
    (others : ∀ found, Follows frame includeFile (next found) (rest found)) :
    Follows frame includeFile (do next (frame.lookup (← get).scopes name))
      (do rest (← frame.lookupScript name)) :=
  (follows_lookup name).bind unscoped others

theorem follows_writeAll (frame : Frame) (chunks : List Chunk) :
    Follows frame includeFile (frame.writeAll (chunks.map Chunk.text)) (.writeAll chunks) := by
  induction chunks with
  | nil => exact follows_pure ()
  | cons chunk rest ih => exact (follows_ask unscoped frame (.write chunk)).bind unscoped fun _ => ih

theorem follows_call (position : Nat) (name : String) (arguments : List Value) :
    Follows frame includeFile (frame.call position name arguments)
      (frame.callScript position name arguments) := by
  unfold call callScript
  split
  · have written := follows_writeAll unscoped frame (arguments.map .printed)
    rw [List.map_map] at written
    exact written.bind unscoped fun _ => follows_pure _
  · split
    · have written := follows_writeAll unscoped frame (arguments.map .escaped)
      rw [List.map_map] at written
      exact written.bind unscoped fun _ => follows_pure _
    · cases frame.shared.function? name with
      | none => exact follows_placed position (.error (.undefinedName name))
      | some function =>
          dsimp only
          cases function arguments with
          | error error => exact follows_placed position (.error (.function name error))
          | ok value => exact follows_pure value

mutual

theorem follows_eval (frame : Frame) : (e : Expr) →
    Follows frame includeFile (frame.eval e) (frame.exprScript e)
  | .literal _ value => follows_pure value
  | .variable position name => by
      unfold eval exprScript
      let next : Option Value → EvalM Value := fun
        | some value => pure value
        | none => frame.fail position (.undefinedName name)
      apply follows_looking unscoped name next
      intro found
      cases found with
      | none => exact follows_placed position (.error (.undefinedName name))
      | some value => exact follows_pure value
  | .array _ items => by
      unfold eval exprScript
      exact (follows_evalItems frame items).bind unscoped fun _ => follows_pure _
  | .object _ entries => by
      unfold eval exprScript
      exact (follows_evalEntries frame entries).bind unscoped fun _ => follows_pure _
  | .member position target name => by
      unfold eval exprScript
      exact (follows_eval frame target).bind unscoped fun _ => follows_placed position _
  | .index position target index => by
      unfold eval exprScript
      exact (follows_eval frame target).bind unscoped fun _ =>
        (follows_eval frame index).bind unscoped fun _ => follows_placed position _
  | .call position name arguments => by
      unfold eval exprScript
      let next : Option Value → EvalM Value := fun found =>
        if found.isSome then frame.fail position (.notAFunction name)
        else do frame.call position name (← frame.evalItems arguments)
      apply follows_looking unscoped name next
      intro found
      cases found with
      | none =>
          exact (follows_evalItems frame arguments).bind unscoped fun values =>
            follows_call unscoped position name values
      | some value => exact follows_placed position (.error (.notAFunction name))
  | .unary _ .not operand => by
      unfold eval exprScript
      exact (follows_eval frame operand).bind unscoped fun _ => follows_pure _
  | .unary position .negate operand => by
      unfold eval exprScript
      apply (follows_eval frame operand).bind unscoped
      intro value
      cases asFloat? value with
      | none => exact follows_placed position (.error (.notNegatable (kindOf value)))
      | some f =>
          dsimp only
          cases finite (-f) with
          | error error => exact follows_placed position (.error (.operator error))
          | ok value => exact follows_pure value
  | .binary position operator left right => by
      have first := follows_eval frame left
      have second := follows_eval frame right
      cases operator
      case and =>
        unfold eval exprScript
        apply first.bind unscoped
        intro value
        split
        · exact second
        · exact follows_pure value
      case or =>
        unfold eval exprScript
        apply first.bind unscoped
        intro value
        split
        · exact follows_pure value
        · exact second
      all_goals
        unfold eval exprScript
        refine first.bind unscoped fun l => second.bind unscoped fun r => ?_
        generalize applyBinary _ l r = result
        cases result with
        | error error => exact follows_placed position (.error (.operator error))
        | ok value => exact follows_pure value
  | .conditional _ condition yes no => by
      unfold eval exprScript
      apply (follows_eval frame condition).bind unscoped
      intro value
      split
      · exact follows_eval frame yes
      · exact follows_eval frame no

theorem follows_evalItems (frame : Frame) : (items : List Expr) →
    Follows frame includeFile (frame.evalItems items) (frame.itemsScript items)
  | [] => follows_pure []
  | item :: rest => by
      unfold evalItems itemsScript
      exact (follows_eval frame item).bind unscoped fun _ =>
        (follows_evalItems frame rest).bind unscoped fun _ => follows_pure _

theorem follows_evalEntries (frame : Frame) : (entries : List (String × Expr)) →
    Follows frame includeFile (frame.evalEntries entries) (frame.entriesScript entries)
  | [] => follows_pure []
  | (key, item) :: rest => by
      unfold evalEntries entriesScript
      exact (follows_eval frame item).bind unscoped fun _ =>
        (follows_evalEntries frame rest).bind unscoped fun _ => follows_pure _

end

theorem follows_forEntries {body : Value → Value → EvalM Unit} {script : Value → Value → ScriptM Unit}
    (follows : ∀ key item, Follows frame includeFile (body key item) (script key item))
    (entries : List (Value × Value)) :
    Follows frame includeFile (forEntries body entries) (.forEntries script entries) := by
  induction entries with
  | nil => exact follows_pure ()
  | cons entry rest ih => exact (follows entry.1 entry.2).bind unscoped fun _ => ih

theorem follows_embed (frame : Frame) (position : Nat) (path : Expr) (environment : Option Expr) :
    Follows frame includeFile (frame.embed includeFile position path environment)
      (frame.embedScript position path environment) := by
  have asked (target : String) (bindings : Fields) :=
    follows_ask unscoped frame (.embed position target bindings)
  apply (follows_eval unscoped frame path).bind unscoped
  intro target
  cases environment with
  | none => exact asked (toText target) frame.properties.bindings
  | some expression =>
      apply (follows_eval unscoped frame expression).bind unscoped
      intro value
      refine Follows.bind unscoped ?_ fun bindings => asked (toText target) bindings
      cases value with
      | object extra => exact follows_pure _
      | null => exact follows_pure _
      | bool value => exact follows_placed position (.error (.environmentNotAnObject _))
      | number value => exact follows_placed position (.error (.environmentNotAnObject _))
      | string value => exact follows_placed position (.error (.environmentNotAnObject _))
      | array items => exact follows_placed position (.error (.environmentNotAnObject _))

mutual

theorem follows_exec (frame : Frame) : (node : Node) →
    Follows frame includeFile (frame.exec includeFile node) (frame.nodeScript node)
  | .text content => by
      unfold exec nodeScript
      exact follows_ask unscoped frame (.write (.literal content))
  | .echo value => by
      unfold exec nodeScript
      exact (follows_eval unscoped frame value).bind unscoped fun value =>
        follows_ask unscoped frame (.write (.escaped value))
  | .expression value => by
      unfold exec nodeScript
      exact (follows_eval unscoped frame value).bind unscoped fun _ => follows_pure ()
  | .declare name value => by
      unfold exec nodeScript
      exact (follows_eval unscoped frame value).bind unscoped fun value =>
        follows_modify fun scopes => declareScopes scopes name value
  | .assign position name value => by
      unfold exec nodeScript
      exact (follows_eval unscoped frame value).bind unscoped fun value =>
        follows_assign position name value
  | .choose branches none => by
      unfold exec nodeScript
      exact (follows_execBranches frame branches).bind unscoped fun _ => follows_pure ()
  | .choose branches (some body) => by
      unfold exec nodeScript
      apply (follows_execBranches frame branches).bind unscoped
      intro taken
      cases taken with
      | true => exact follows_pure ()
      | false => exact follows_inScope unscoped [] (follows_execAll frame body)
  | .each first second entries body => by
      unfold exec nodeScript
      apply (follows_eval unscoped frame entries).bind unscoped
      intro value
      apply (follows_placed entries.position (entriesOf value)).bind unscoped
      intro rounds
      exact follows_forEntries unscoped
        (fun key item => follows_inScope unscoped _ (follows_execAll frame body)) rounds
  | .embed position path environment => by
      unfold exec nodeScript
      exact follows_embed unscoped frame position path environment

theorem follows_execAll (frame : Frame) : (nodes : List Node) →
    Follows frame includeFile (frame.execAll includeFile nodes) (frame.nodesScript nodes)
  | [] => follows_pure ()
  | node :: rest => by
      unfold execAll nodesScript
      exact (follows_exec frame node).bind unscoped fun _ => follows_execAll frame rest

theorem follows_execBranches (frame : Frame) : (branches : List (Expr × List Node)) →
    Follows frame includeFile (frame.execBranches includeFile branches) (frame.branchesScript branches)
  | [] => follows_pure false
  | (condition, body) :: rest => by
      unfold execBranches branchesScript
      apply (follows_eval unscoped frame condition).bind unscoped
      intro value
      split
      · exact (follows_inScope unscoped [] (follows_execAll frame body)).bind unscoped fun _ =>
          follows_pure true
      · exact follows_execBranches frame rest

end

/-- The evaluator does what the script of its template asks for. -/
theorem run_eq_play (frame : Frame) (run : Run) :
    frame.run includeFile run = frame.play includeFile frame.script run := by
  obtain ⟨left, acted⟩ := follows_execAll unscoped frame frame.template.nodes { run with scopes := [[]] }
  change ((frame.execAll includeFile frame.template.nodes { run with scopes := [[]] }).1,
    { (frame.execAll includeFile frame.template.nodes { run with scopes := [[]] }).2 with
      scopes := run.scopes }) = _
  rw [acted, unscoped_play unscoped frame _ run [[]], script, play_bind, bind_apply]
  have kept := (unscoped_play unscoped frame
    (frame.nodesScript frame.template.nodes [[]])).scopes_eq run
  rw [← kept]
  generalize frame.play includeFile (frame.nodesScript frame.template.nodes [[]]) run = outcome
  obtain ⟨_ | _, after⟩ := outcome <;> rfl

end Unscoped

end Frame
end StaticSite.Template
