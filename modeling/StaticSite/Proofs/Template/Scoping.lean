import Mathlib.Data.List.Forall2
import StaticSite.Proofs.Json.Fields
import StaticSite.Proofs.Template.Course

/-!
Scopes. Whatever nodes do and however they end, the stack of scopes keeps its depth. The innermost scope
gains the names that the nodes declare themselves; no other scope gains or loses a name.
-/

namespace StaticSite.Template

open Json (Value Fields)

/-- The name that a node declares itself; what its bodies declare does not count. -/
def Node.declared? : Node → Option String
  | .declare name _ => some name
  | _ => none

def declaredNames (nodes : List Node) : List String := nodes.filterMap Node.declared?

theorem declaredNames_cons (node : Node) (rest : List Node) :
    declaredNames (node :: rest) = node.declared?.toList ++ declaredNames rest := by
  rw [declaredNames, List.filterMap_cons]
  cases node.declared? <;> rfl

/-! ## Stacks -/

/-- Stacks of the same depth whose scopes have the same names. -/
def SameNames : List Fields → List Fields → Prop :=
  List.Forall₂ fun scope scope' => ∀ name, scope'.contains name = scope.contains name

/-- A stack that became another one, with some of these names more in the innermost scope. -/
def Gains (names : List String) : List Fields → List Fields → Prop
  | [], after => after = []
  | scope :: below, after =>
    ∃ scope' below', after = scope' :: below' ∧ SameNames below below' ∧
      (∀ name, scope.contains name → scope'.contains name) ∧
      ∀ name, scope'.contains name → scope.contains name ∨ name ∈ names

section Stacks

variable {before between after : List Fields} {names more : List String}

theorem SameNames.refl (scopes : List Fields) : SameNames scopes scopes :=
  List.forall₂_same.mpr fun _ _ _ => rfl

theorem SameNames.trans (first : SameNames before between) (second : SameNames between after) :
    SameNames before after := by
  induction first generalizing after with
  | nil => exact second
  | cons same _ ih =>
      obtain _ | ⟨same', others⟩ := second
      exact .cons (fun name => (same' name).trans (same name)) (ih others)

/-- A name is visible in both stacks or in neither. -/
theorem SameNames.lookup (same : SameNames before after) (name : String) :
    (lookupScopes after name).isSome = (lookupScopes before name).isSome := by
  induction same with
  | nil => rfl
  | @cons scope scope' below below' here _ ih =>
      have both : (scope'.get? name).isSome = (scope.get? name).isSome := here name
      simp only [lookupScopes, List.findSome?_cons] at ih ⊢
      cases old : scope.get? name <;> cases new : scope'.get? name <;> simp_all

theorem SameNames.gains (same : SameNames before after) : Gains names before after := by
  cases same with
  | nil => rfl
  | cons here others =>
      exact ⟨_, _, rfl, others, fun name => (here name).symm ▸ id, fun name => .inl ∘ (here name ▸ id)⟩

theorem Gains.sameNames (gains : Gains [] before after) : SameNames before after := by
  cases before with
  | nil => cases gains; exact .nil
  | cons scope below =>
      obtain ⟨scope', below', rfl, others, kept, gained⟩ := gains
      refine .cons (fun name => Bool.eq_iff_iff.mpr ⟨fun has => ?_, kept name⟩) others
      simpa using gained name has

theorem Gains.trans (first : Gains names before between) (second : Gains more between after) :
    Gains (names ++ more) before after := by
  cases before with
  | nil => cases first; exact second
  | cons scope below =>
      obtain ⟨scope', below', rfl, others, kept, gained⟩ := first
      obtain ⟨scope'', below'', rfl, others', kept', gained'⟩ := second
      refine ⟨scope'', below'', rfl, others.trans others', fun name has => kept' name (kept name has), ?_⟩
      intro name has
      rw [List.mem_append]
      rcases gained' name has with has | member
      · exact (gained name has).imp_right .inl
      · exact .inr (.inr member)

theorem gains_declare (scopes : List Fields) (name : String) (value : Value) :
    Gains [name] scopes (declareScopes scopes name value) := by
  cases scopes with
  | nil => rfl
  | cons scope below =>
      refine ⟨scope.insert name value, below, rfl, .refl below, ?_, ?_⟩ <;> intro other has <;>
        rw [Fields.contains_insert] at * <;> simp_all [or_comm]

/-- An assignment takes place in the first scope that has the name. -/
theorem assignScopes?_of_contains {inner outer : List Fields} {scope : Fields} {name : String}
    (without : ∀ other ∈ inner, other.contains name = false) (has : scope.contains name = true)
    (value : Value) :
    assignScopes? (inner ++ scope :: outer) name value =
      some (inner ++ scope.insert name value :: outer) := by
  induction inner with
  | nil => simp [assignScopes?, has]
  | cons first inner ih =>
      rw [List.cons_append, assignScopes?, without first (by simp), if_neg (by simp),
        ih fun other member => without other (by simp [member])]
      rfl

theorem assignScopes?_eq_none {scopes : List Fields} {name : String}
    (without : ∀ scope ∈ scopes, scope.contains name = false) (value : Value) :
    assignScopes? scopes name value = none := by
  induction scopes with
  | nil => rfl
  | cons scope below ih =>
      rw [assignScopes?, without scope (by simp), if_neg (by simp),
        ih fun other member => without other (by simp [member])]
      rfl

theorem sameNames_assign {name : String} {value : Value}
    (assigned : assignScopes? before name value = some after) : SameNames before after := by
  induction before generalizing after with
  | nil => cases assigned
  | cons scope below ih =>
      rw [assignScopes?] at assigned
      split at assigned
      · rename_i has
        cases assigned
        refine .cons (fun other => ?_) (SameNames.refl below)
        rw [Fields.contains_insert]
        by_cases same : other = name <;> simp [same, has]
      · obtain ⟨below', found, rfl⟩ := Option.map_eq_some_iff.mp assigned
        exact .cons (fun _ => rfl) (ih found)

end Stacks

/-! ## What actions do to the stack -/

/-- An action that leaves a stack in this relation to the one that it began with, also when it fails. -/
def Leaves {α : Type} (relation : List Fields → List Fields → Prop) (action : EvalM α) : Prop :=
  ∀ run, relation run.scopes (action run).2.scopes

section Actions

variable {α β : Type} {action : EvalM α} {next : α → EvalM β} {names more : List String}

theorem leaves_pure (value : α) : Leaves Eq (pure value : EvalM α) := fun _ => rfl

theorem Unscoped.leaves (unscoped : Unscoped action) : Leaves Eq action :=
  fun run => (unscoped.scopes_eq run).symm

theorem Leaves.sameNames (leaves : Leaves Eq action) : Leaves SameNames action :=
  fun run => leaves run ▸ .refl _

theorem Leaves.gains (leaves : Leaves SameNames action) : Leaves (Gains names) action :=
  fun run => (leaves run).gains

/-- A second action that need not take place composes with a first one. -/
theorem leaves_bind {first second both : List Fields → List Fields → Prop}
    (early : ∀ {before between}, first before between → both before between)
    (late : ∀ {before between after}, first before between → second between after → both before after)
    (leaves : Leaves first action) (rest : ∀ value, Leaves second (next value)) :
    Leaves both (action >>= next) := by
  intro run
  have began := leaves run
  rw [bind_apply]
  generalize action run = outcome at began ⊢
  obtain ⟨_ | value, between⟩ := outcome
  · exact early began
  · exact late began (rest value between)

theorem Leaves.bind (leaves : Leaves Eq action) (rest : ∀ value, Leaves Eq (next value)) :
    Leaves Eq (action >>= next) :=
  leaves_bind id .trans leaves rest

theorem Leaves.bindNames (leaves : Leaves SameNames action)
    (rest : ∀ value, Leaves SameNames (next value)) :
    Leaves SameNames (action >>= next) :=
  leaves_bind id .trans leaves rest

theorem Leaves.bindGains (leaves : Leaves (Gains names) action)
    (rest : ∀ value, Leaves (Gains more) (next value)) :
    Leaves (Gains (names ++ more)) (action >>= next) := by
  have early {before between : List Fields} (gains : Gains names before between) :
      Gains (names ++ more) before between := gains.trans (SameNames.refl between).gains
  exact leaves_bind early .trans leaves rest

/-- A body within one more scope leaves the names of all scopes as they are. -/
theorem leaves_inScope {body : EvalM Unit} (leaves : Leaves (Gains names) body) (bindings : Fields) :
    Leaves SameNames (inScope bindings body) := by
  intro run
  obtain ⟨_, below', ends, others, -, -⟩ := leaves { run with scopes := bindings :: run.scopes }
  change SameNames run.scopes (body { run with scopes := bindings :: run.scopes }).2.scopes.tail
  rw [ends]
  exact others

theorem leaves_forEntries {body : Value → Value → EvalM Unit}
    (leaves : ∀ key item, Leaves SameNames (body key item)) (entries : List (Value × Value)) :
    Leaves SameNames (forEntries body entries) := by
  induction entries with
  | nil => exact (leaves_pure ()).sameNames
  | cons entry rest ih => exact (leaves entry.1 entry.2).bindNames fun _ => ih

end Actions

namespace Frame

variable {α : Type} {includeFile : Include}

/-! ## Expressions -/

theorem leaves_fail (frame : Frame) (position : Nat) (problem : RuntimeProblem) :
    Leaves Eq (frame.fail position problem : EvalM α) := (unscoped_throw _).leaves

theorem leaves_orFail (frame : Frame) (position : Nat) (result : Except RuntimeProblem α) :
    Leaves Eq (frame.orFail position result) := by
  cases result with
  | ok value => exact leaves_pure value
  | error problem => exact frame.leaves_fail position problem

theorem leaves_writeAll (frame : Frame) (texts : List String) : Leaves Eq (frame.writeAll texts) := by
  induction texts with
  | nil => exact leaves_pure ()
  | cons text rest ih => exact (unscoped_write frame text).leaves.bind fun _ => ih

theorem leaves_call (frame : Frame) (position : Nat) (name : String) (arguments : List Value) :
    Leaves Eq (frame.call position name arguments) := by
  unfold call
  split
  · exact (frame.leaves_writeAll _).bind fun _ => leaves_pure _
  split
  · exact (frame.leaves_writeAll _).bind fun _ => leaves_pure _
  split
  · exact frame.leaves_fail position _
  · split
    · exact leaves_pure _
    · exact frame.leaves_fail position _

/-- Looking at the stack changes nothing. -/
theorem leaves_looking {next : Run → EvalM α} (rest : ∀ run, Leaves Eq (next run)) :
    Leaves Eq (do next (← get)) :=
  fun run => rest run run

mutual

/-- The value of an expression is found without any change to the scopes. -/
theorem leaves_eval (frame : Frame) : (e : Expr) → Leaves Eq (frame.eval e)
  | .literal _ value => leaves_pure value
  | .variable position name => by
      unfold eval
      apply leaves_looking
      intro run
      split
      · exact leaves_pure _
      · exact frame.leaves_fail position _
  | .array _ items => by
      unfold eval
      exact (leaves_evalItems frame items).bind fun _ => leaves_pure _
  | .object _ entries => by
      unfold eval
      exact (leaves_evalEntries frame entries).bind fun _ => leaves_pure _
  | .member position target name => by
      unfold eval
      exact (leaves_eval frame target).bind fun _ => frame.leaves_orFail position _
  | .index position target index => by
      unfold eval
      exact (leaves_eval frame target).bind fun _ =>
        (leaves_eval frame index).bind fun _ => frame.leaves_orFail position _
  | .call position name arguments => by
      unfold eval
      apply leaves_looking
      intro run
      split
      · exact frame.leaves_fail position _
      · exact (leaves_evalItems frame arguments).bind fun values => frame.leaves_call position name values
  | .unary _ .not operand => by
      unfold eval
      exact (leaves_eval frame operand).bind fun _ => leaves_pure _
  | .unary position .negate operand => by
      unfold eval
      apply (leaves_eval frame operand).bind
      intro value
      split
      · split
        · exact leaves_pure _
        · exact frame.leaves_fail position _
      · exact frame.leaves_fail position _
  | .binary position operator left right => by
      have first := leaves_eval frame left
      have second := leaves_eval frame right
      cases operator
      case and =>
        unfold eval
        apply first.bind
        intro value
        split
        · exact second
        · exact leaves_pure value
      case or =>
        unfold eval
        apply first.bind
        intro value
        split
        · exact leaves_pure value
        · exact second
      all_goals
        unfold eval
        refine first.bind fun l => second.bind fun r => ?_
        split
        · exact leaves_pure _
        · exact frame.leaves_fail position _
  | .conditional _ condition yes no => by
      unfold eval
      apply (leaves_eval frame condition).bind
      intro value
      split
      · exact leaves_eval frame yes
      · exact leaves_eval frame no

theorem leaves_evalItems (frame : Frame) : (items : List Expr) → Leaves Eq (frame.evalItems items)
  | [] => leaves_pure []
  | item :: rest => by
      unfold evalItems
      exact (leaves_eval frame item).bind fun _ =>
        (leaves_evalItems frame rest).bind fun _ => leaves_pure _

theorem leaves_evalEntries (frame : Frame) :
    (entries : List (String × Expr)) → Leaves Eq (frame.evalEntries entries)
  | [] => leaves_pure []
  | (key, item) :: rest => by
      unfold evalEntries
      exact (leaves_eval frame item).bind fun _ =>
        (leaves_evalEntries frame rest).bind fun _ => leaves_pure _

end

/-! ## Nodes -/

theorem leaves_environment (frame : Frame) (position : Nat) (value : Value) :
    Leaves Eq (frame.environment position value) := by
  unfold environment
  split
  · exact leaves_pure _
  · exact leaves_pure _
  · exact frame.leaves_fail position _

theorem leaves_embed (unscoped : ∀ path properties, Unscoped (includeFile path properties))
    (frame : Frame) (position : Nat) (path : Expr) (environment : Option Expr) :
    Leaves Eq (frame.embed includeFile position path environment) := by
  have included (target : Value) (bindings : Fields) :
      Leaves Eq (if !frame.contextAlive then frame.fail position .contextGone
        else includeFile (frame.template.directory.resolve ⟨toText target⟩)
          { frame.properties with bindings, filename := none }) := by
    split
    · exact frame.leaves_fail position _
    · exact (unscoped _ _).leaves
  apply (frame.leaves_eval path).bind
  intro target
  cases environment with
  | none => exact (leaves_pure _).bind (included target)
  | some expression =>
      exact (frame.leaves_eval expression).bind fun value =>
        (frame.leaves_environment position value).bind (included target)

mutual

/-- One step: a node gains the name that it declares and no other. -/
theorem leaves_exec (unscoped : ∀ path properties, Unscoped (includeFile path properties))
    (frame : Frame) : (node : Node) → Leaves (Gains node.declared?.toList) (frame.exec includeFile node)
  | .text content => by
      unfold exec
      exact (unscoped_write frame content).leaves.sameNames.gains
  | .echo value => by
      unfold exec
      exact ((frame.leaves_eval value).bind fun _ => (unscoped_write frame _).leaves).sameNames.gains
  | .expression value => by
      unfold exec
      exact ((frame.leaves_eval value).bind fun _ => leaves_pure ()).sameNames.gains
  | .declare name value => by
      unfold exec
      have declares : ∀ found, Leaves (Gains [name]) (modify fun run =>
          { run with scopes := declareScopes run.scopes name found } : EvalM Unit) :=
        fun found run => gains_declare run.scopes name found
      refine leaves_bind (fun same => ?_) (fun same gains => ?_) (frame.leaves_eval value) declares
      · exact same ▸ (SameNames.refl _).gains
      · exact same ▸ gains
  | .assign position name value => by
      unfold exec
      refine ((frame.leaves_eval value).sameNames.bindNames fun found run => ?_).gains
      change SameNames run.scopes ((match assignScopes? run.scopes name found with
        | some scopes => set { run with scopes }
        | none => frame.fail position (.undeclaredVariable name) : EvalM Unit) run).2.scopes
      cases assigned : assignScopes? run.scopes name found with
      | none => exact .refl _
      | some scopes => exact sameNames_assign assigned
  | .choose branches none => by
      unfold exec
      exact ((leaves_execBranches unscoped frame branches).bindNames fun _ =>
        (leaves_pure ()).sameNames).gains
  | .choose branches (some body) => by
      unfold exec
      refine ((leaves_execBranches unscoped frame branches).bindNames fun taken => ?_).gains
      cases taken with
      | true => exact (leaves_pure ()).sameNames
      | false => exact leaves_inScope (leaves_execAll unscoped frame body) []
  | .each first second entries body => by
      unfold exec
      refine ((frame.leaves_eval entries).sameNames.bindNames fun value => ?_).gains
      refine (frame.leaves_orFail _ _).sameNames.bindNames fun rounds => ?_
      exact leaves_forEntries (fun key item => leaves_inScope (leaves_execAll unscoped frame body) _) rounds
  | .embed position path environment => by
      unfold exec
      exact (leaves_embed unscoped frame position path environment).sameNames.gains

/-- A whole run: nodes gain the names that they declare and no others. -/
theorem leaves_execAll (unscoped : ∀ path properties, Unscoped (includeFile path properties))
    (frame : Frame) :
    (nodes : List Node) → Leaves (Gains (declaredNames nodes)) (frame.execAll includeFile nodes)
  | [] => (leaves_pure ()).sameNames.gains
  | node :: rest => by
      unfold execAll
      rw [declaredNames_cons]
      exact (leaves_exec unscoped frame node).bindGains fun _ => leaves_execAll unscoped frame rest

theorem leaves_execBranches (unscoped : ∀ path properties, Unscoped (includeFile path properties))
    (frame : Frame) :
    (branches : List (Expr × List Node)) → Leaves SameNames (frame.execBranches includeFile branches)
  | [] => (leaves_pure false).sameNames
  | (condition, body) :: rest => by
      unfold execBranches
      apply (frame.leaves_eval condition).sameNames.bindNames
      intro value
      split
      · exact (leaves_inScope (leaves_execAll unscoped frame body) []).bindNames fun _ =>
        (leaves_pure true).sameNames
      · exact leaves_execBranches unscoped frame rest

end

theorem execAll_append (frame : Frame) (first rest : List Node) :
    frame.execAll includeFile (first ++ rest) =
      (do frame.execAll includeFile first; frame.execAll includeFile rest) := by
  induction first with
  | nil => rfl
  | cons node first ih => simp only [List.cons_append, execAll, ih, bind_assoc]

/-- A node behind nodes that have been executed goes on from where they end. -/
theorem execAll_apply {frame : Frame} {first : List Node} {start midway : Run}
    (executed : frame.execAll includeFile first start = (.ok (), midway)) (rest : List Node) :
    frame.execAll includeFile (first ++ rest) start = frame.execAll includeFile rest midway := by
  rw [execAll_append, bind_apply, executed]

theorem exec_declare {frame : Frame} {expression : Expr} {start midway : Run} {value : Value}
    (evaluated : frame.eval expression start = (.ok value, midway)) (name : String) :
    frame.exec includeFile (.declare name expression) start =
      (.ok (), { midway with scopes := declareScopes midway.scopes name value }) := by
  unfold exec
  rw [bind_apply, evaluated]
  rfl

theorem exec_assign {frame : Frame} {expression : Expr} {start midway : Run} {value : Value}
    (evaluated : frame.eval expression start = (.ok value, midway)) (position : Nat) (name : String) :
    frame.exec includeFile (.assign position name expression) start =
      match assignScopes? midway.scopes name value with
      | some scopes => (.ok (), { midway with scopes })
      | none => (.error (frame.template.error position (.undeclaredVariable name)), midway) := by
  unfold exec
  rw [bind_apply, evaluated]
  change (match assignScopes? midway.scopes name value with
    | some scopes => set { midway with scopes }
    | none => frame.fail position (.undeclaredVariable name) : EvalM Unit) midway = _
  cases assignScopes? midway.scopes name value <;> rfl

theorem exec_assign_of_error {frame : Frame} {expression : Expr} {start midway : Run} {error : Error}
    (failed : frame.eval expression start = (.error error, midway)) (position : Nat) (name : String) :
    frame.exec includeFile (.assign position name expression) start = (.error error, midway) := by
  unfold exec
  rw [bind_apply, failed]

/-- An assignment goes to the innermost scope with the name. -/
theorem exec_assign_of_contains {frame : Frame} {expression : Expr} {start midway : Run} {value : Value}
    {inner outer : List Fields} {found : Fields} {name : String}
    (stack : start.scopes = inner ++ found :: outer) (without : ∀ other ∈ inner, other.contains name = false)
    (has : found.contains name) (evaluated : frame.eval expression start = (.ok value, midway))
    (position : Nat) :
    frame.exec includeFile (.assign position name expression) start =
      (.ok (), { midway with scopes := inner ++ found.insert name value :: outer }) := by
  have looked := frame.leaves_eval expression start
  rw [evaluated, stack] at looked
  rw [exec_assign evaluated, ← looked, assignScopes?_of_contains without has]

/-- An assignment to a name in no scope fails without a change to the scopes. -/
theorem exec_assign_of_absent (frame : Frame) {start : Run} {name : String}
    (without : ∀ other ∈ start.scopes, other.contains name = false) (position : Nat) (expression : Expr) :
    ∃ error, (frame.exec includeFile (.assign position name expression) start).1 = .error error ∧
      (frame.exec includeFile (.assign position name expression) start).2.scopes = start.scopes ∧
      ∀ value midway, frame.eval expression start = (.ok value, midway) →
        error = frame.template.error position (.undeclaredVariable name) := by
  have looked := frame.leaves_eval expression start
  cases evaluated : frame.eval expression start with
  | mk result midway =>
      rw [evaluated] at looked
      cases result with
      | error error =>
          rw [exec_assign_of_error evaluated]
          exact ⟨error, rfl, looked.symm, by rintro value midway ⟨⟩⟩
      | ok value =>
          rw [exec_assign evaluated, ← looked, assignScopes?_eq_none without]
          exact ⟨_, rfl, looked.symm, fun _ _ _ => rfl⟩

end Frame

/-- A declaration that was executed among nodes is in the innermost scope after all of them. -/
theorem Frame.declared_stays {frame : Frame} {includeFile : Include}
    (unscoped : ∀ path properties, Unscoped (includeFile path properties))
    {before rest : List Node} {name : String} {expression : Expr} {start midway declared : Run}
    {value : Value} {scope : Fields} {below : List Fields} (stack : start.scopes = scope :: below)
    (executed : frame.execAll includeFile before start = (.ok (), midway))
    (evaluated : frame.eval expression midway = (.ok value, declared)) :
    ∃ scope' below',
      (frame.execAll includeFile (before ++ .declare name expression :: rest) start).2.scopes =
        scope' :: below' ∧ scope'.contains name := by
  have began := frame.leaves_execAll unscoped before start
  have looked := frame.leaves_eval expression midway
  rw [executed, stack] at began
  rw [evaluated] at looked
  obtain ⟨top, under, ends, -, -, -⟩ := began
  rw [frame.execAll_apply executed, execAll, bind_apply, exec_declare evaluated]
  have goesOn := frame.leaves_execAll unscoped rest
    { declared with scopes := declareScopes declared.scopes name value }
  rw [← looked, ends] at goesOn ⊢
  obtain ⟨scope', below', ends', -, kept, -⟩ := goesOn
  exact ⟨scope', below', ends', kept name (by simp [Fields.contains_insert])⟩

/-- The scopes that nodes leave behind, however they end. -/
theorem scopes_after_nodes (frame : Frame) (fs : FileSystem) (depth : Nat) (run : Run) (scope : Fields)
    (below : List Fields) :
    let includeFile := evalFile fs frame.shared depth
    let start : Run := { run with scopes := scope :: below }
    (∀ nodes, ∃ scope' below',
      (frame.execAll includeFile nodes start).2.scopes = scope' :: below' ∧ SameNames below below' ∧
        (∀ name, scope.contains name → scope'.contains name) ∧
        (∀ name, scope'.contains name → scope.contains name ∨ name ∈ declaredNames nodes) ∧
        ∀ before name expression rest midway value declared,
          nodes = before ++ .declare name expression :: rest →
          frame.execAll includeFile before start = (.ok (), midway) →
          frame.eval expression midway = (.ok value, declared) → scope'.contains name) ∧
    (∀ node, node.declared? = none →
      let after := (frame.exec includeFile node start).2.scopes
      SameNames (scope :: below) after ∧
        ∀ name, (lookupScopes after name).isSome = (lookupScopes (scope :: below) name).isSome) ∧
    ∀ position name expression,
      let assignment := frame.exec includeFile (.assign position name expression) start
      (∀ inner found outer value midway, scope :: below = inner ++ found :: outer →
        (∀ other ∈ inner, other.contains name = false) → found.contains name →
        frame.eval expression start = (.ok value, midway) →
        assignment = (.ok (), { midway with scopes := inner ++ found.insert name value :: outer })) ∧
      ((∀ other ∈ scope :: below, other.contains name = false) →
        ∃ error, assignment.1 = .error error ∧ assignment.2.scopes = scope :: below ∧
          ∀ value midway, frame.eval expression start = (.ok value, midway) →
            error = frame.template.error position (.undeclaredVariable name)) := by
  intro includeFile start
  have unscoped := unscoped_of_courses (evalFile_eq fs frame.shared depth)
  refine ⟨fun nodes => ?nodes, fun node undeclared => ?node, fun position name expression => ?assign⟩
  case nodes =>
    obtain ⟨scope', below', ends, same, kept, gained⟩ := frame.leaves_execAll unscoped nodes start
    refine ⟨scope', below', ends, same, kept, gained, ?_⟩
    rintro before name expression rest midway value declared rfl executed evaluated
    obtain ⟨_, _, ends', has⟩ := Frame.declared_stays unscoped rfl executed evaluated
    rw [ends] at ends'
    cases ends'
    exact has
  case node =>
    have gains := frame.leaves_exec unscoped node start
    rw [undeclared] at gains
    exact ⟨gains.sameNames, gains.sameNames.lookup⟩
  case assign =>
    constructor
    · intro inner found outer value midway stack without has evaluated
      exact Frame.exec_assign_of_contains stack without has evaluated position
    · intro without
      exact frame.exec_assign_of_absent without position expression

end StaticSite.Template
