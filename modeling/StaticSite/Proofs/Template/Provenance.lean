import StaticSite.Proofs.Template.Trace
import StaticSite.Proofs.Text.Markup

/-!
Where written strings come from. What an evaluation writes is text of a template that is evaluated, or
an escaped value, or what such a template itself hands to `print`.
-/

namespace StaticSite.Template

open Json (Value Fields)

/-! ## What a template says -/

/-- A place of a template that a written string can come from, or a call of a function. -/
inductive Part
  | text (content : String)
  | echo (value : Expr)
  | call (name : String) (arguments : List Expr)

mutual

def Expr.parts : Expr → List Part
  | .literal _ _ => []
  | .variable _ _ => []
  | .array _ items => partsOfItems items
  | .object _ entries => partsOfEntries entries
  | .member _ target _ => target.parts
  | .index _ target selector => target.parts ++ selector.parts
  | .call _ name arguments => .call name arguments :: partsOfItems arguments
  | .unary _ _ operand => operand.parts
  | .binary _ _ left right => left.parts ++ right.parts
  | .conditional _ condition yes no => condition.parts ++ (yes.parts ++ no.parts)

def Expr.partsOfItems : List Expr → List Part
  | [] => []
  | item :: rest => item.parts ++ partsOfItems rest

def Expr.partsOfEntries : List (String × Expr) → List Part
  | [] => []
  | (_, item) :: rest => item.parts ++ partsOfEntries rest

end

mutual

def Node.parts : Node → List Part
  | .text content => [.text content]
  | .echo value => .echo value :: value.parts
  | .expression value => value.parts
  | .declare _ value => value.parts
  | .assign _ _ value => value.parts
  | .choose branches none => partsOfBranches branches
  | .choose branches (some body) => partsOfBranches branches ++ partsOfAll body
  | .each _ _ entries body => entries.parts ++ partsOfAll body
  | .embed _ path none => path.parts
  | .embed _ path (some environment) => path.parts ++ environment.parts

def Node.partsOfAll : List Node → List Part
  | [] => []
  | node :: rest => node.parts ++ partsOfAll rest

def Node.partsOfBranches : List (Expr × List Node) → List Part
  | [] => []
  | (condition, body) :: rest => condition.parts ++ (partsOfAll body ++ partsOfBranches rest)

end

def Compiled.parts (template : Compiled) : List Part := Node.partsOfAll template.nodes

/-- The expressions that one of `parts` echoes, or hands to a function of a name. -/
def handedTo (name : String) (parts : List Part) (e : Expr) : Prop :=
  ∃ arguments, Part.call name arguments ∈ parts ∧ e ∈ arguments

/-- The origins that a string may have in `parts`, where `gives` says which values an expression has. -/
def Licenses (gives : Expr → Value → Prop) (parts : List Part) : Chunk → Prop
  | .literal content => .text content ∈ parts
  | .escaped value => ∃ e, (.echo e ∈ parts ∨ handedTo "printv" parts e) ∧ gives e value
  | .printed value => ∃ e, handedTo "print" parts e ∧ gives e value

theorem Licenses.mono {gives others : Expr → Value → Prop} {parts more : List Part} {chunk : Chunk}
    (licensed : Licenses gives parts chunk) (sub : parts ⊆ more)
    (weaker : ∀ e value, gives e value → others e value) : Licenses others more chunk := by
  cases chunk with
  | literal content => exact sub licensed
  | escaped value =>
      obtain ⟨e, said | ⟨arguments, called, member⟩, given⟩ := licensed
      · exact ⟨e, .inl (sub said), weaker e value given⟩
      · exact ⟨e, .inr ⟨arguments, sub called, member⟩, weaker e value given⟩
  | printed value =>
      obtain ⟨e, ⟨arguments, called, member⟩, given⟩ := licensed
      exact ⟨e, ⟨arguments, sub called, member⟩, weaker e value given⟩

/-! ## What a script asks for -/

section Scripts

variable {α β : Type} {allowed : Request → Prop} {first : ScriptM α} {rest : α → ScriptM β}

/-- A value that a script gives for some scopes. -/
def Gives (script : ScriptM α) (value : α) : Prop :=
  ∃ scopes left, (script scopes).result = .ok (value, left)

/-- A script that asks for nothing that is not allowed. -/
def Asks (allowed : Request → Prop) (script : ScriptM α) : Prop :=
  ∀ scopes, ∀ request ∈ (script scopes).requests, allowed request

theorem bind_script (first : ScriptM α) (rest : α → ScriptM β) (scopes : List Fields) :
    (first >>= rest) scopes =
      match (first scopes).result with
      | .ok (value, left) =>
        ⟨(first scopes).requests ++ (rest value left).requests, (rest value left).result⟩
      | .error error => ⟨(first scopes).requests, .error error⟩ := by
  change (first scopes >>= fun outcome => rest outcome.1 outcome.2) = _
  generalize first scopes = script
  obtain ⟨requests, _ | outcome⟩ := script <;> rfl

theorem gives_pure {value other : α} (given : Gives (pure value) other) : other = value := by
  obtain ⟨scopes, left, same⟩ := given
  cases same
  rfl

theorem gives_bind {value : β} (given : Gives (first >>= rest) value) :
    ∃ between, Gives first between ∧ Gives (rest between) value := by
  obtain ⟨scopes, left, same⟩ := given
  rw [bind_script] at same
  cases ended : (first scopes).result with
  | error error => simp [ended] at same
  | ok outcome =>
      rw [ended] at same
      exact ⟨outcome.1, ⟨scopes, outcome.2, ended⟩, ⟨outcome.2, left, same⟩⟩

theorem Asks.bind (asks : Asks allowed first)
    (others : ∀ value, Gives first value → Asks allowed (rest value)) : Asks allowed (first >>= rest) := by
  intro scopes request asked
  rw [bind_script] at asked
  cases ended : (first scopes).result with
  | error error =>
      rw [ended] at asked
      exact asks scopes request asked
  | ok outcome =>
      rw [ended] at asked
      rcases List.mem_append.mp asked with asked | asked
      · exact asks scopes request asked
      · exact others outcome.1 ⟨scopes, outcome.2, ended⟩ outcome.2 request asked

theorem Asks.mono {other : Request → Prop} (asks : Asks allowed first)
    (weaker : ∀ request, allowed request → other request) : Asks other first :=
  fun scopes request asked => weaker request (asks scopes request asked)

theorem asks_pure (value : α) : Asks allowed (pure value : ScriptM α) :=
  fun _ _ asked => absurd asked List.not_mem_nil

theorem asks_placed (frame : Frame) (position : Nat) (result : Except RuntimeProblem α) :
    Asks allowed (frame.placed position result) :=
  fun _ _ asked => absurd asked List.not_mem_nil

theorem asks_lookup (frame : Frame) (name : String) : Asks allowed (frame.lookupScript name) :=
  fun _ _ asked => absurd asked List.not_mem_nil

theorem asks_modify (change : List Fields → List Fields) :
    Asks allowed (modify change : ScriptM Unit) :=
  fun _ _ asked => absurd asked List.not_mem_nil

theorem asks_ask {request : Request} (permitted : allowed request) : Asks allowed (.ask request) :=
  fun _ _ asked => List.mem_singleton.mp asked ▸ permitted

theorem asks_writeAll {chunks : List Chunk} (permitted : ∀ chunk ∈ chunks, allowed (.write chunk)) :
    Asks allowed (.writeAll chunks) := by
  induction chunks with
  | nil => exact asks_pure ()
  | cons chunk rest ih =>
      exact (asks_ask (permitted chunk (by simp))).bind fun _ _ =>
        ih fun other member => permitted other (by simp [member])

/-- A body within one more scope puts the scope on the stack first and takes it off in the end. -/
theorem inScope_script (bindings : Fields) (body : ScriptM Unit) :
    ScriptM.inScope bindings body = (do modify (bindings :: ·); body; modify List.tail) := by
  funext scopes
  rw [bind_script]
  rfl

theorem asks_inScope {body : ScriptM Unit} (bindings : Fields) (asks : Asks allowed body) :
    Asks allowed (.inScope bindings body) := by
  rw [inScope_script]
  exact (asks_modify _).bind fun _ _ => asks.bind fun _ _ => asks_modify _

theorem asks_forEntries {body : Value → Value → ScriptM Unit} (asks : ∀ key item, Asks allowed (body key item))
    (entries : List (Value × Value)) : Asks allowed (.forEntries body entries) := by
  induction entries with
  | nil => exact asks_pure ()
  | cons entry rest ih => exact (asks entry.1 entry.2).bind fun _ _ => ih

end Scripts

/-! ## Expressions -/

namespace Frame

variable {α : Type}

/-- Requests of expressions: strings that `parts` can be the origin of. -/
def Writes (frame : Frame) (parts : List Part) (request : Request) : Prop :=
  ∃ chunk, request = .write chunk ∧ Licenses (fun e => Gives (frame.exprScript e)) parts chunk

theorem writes_within {frame : Frame} {parts more : List Part} {script : ScriptM α}
    (asks : Asks (frame.Writes parts) script) (sub : parts ⊆ more) : Asks (frame.Writes more) script :=
  asks.mono fun _ ⟨chunk, same, licensed⟩ => ⟨chunk, same, licensed.mono sub fun _ _ given => given⟩

theorem gives_items {frame : Frame} {items : List Expr} {values : List Value}
    (given : Gives (frame.itemsScript items) values) :
    ∀ value ∈ values, ∃ item ∈ items, Gives (frame.exprScript item) value := by
  induction items generalizing values with
  | nil =>
      unfold itemsScript at given
      rw [gives_pure given]
      simp
  | cons item rest ih =>
      unfold itemsScript at given
      obtain ⟨value, first, given⟩ := gives_bind given
      obtain ⟨others, given, same⟩ := gives_bind given
      rw [gives_pure same]
      intro other member
      rcases List.mem_cons.mp member with rfl | member
      · exact ⟨item, by simp, first⟩
      · obtain ⟨found, among, gives⟩ := ih given other member
        exact ⟨found, by simp [among], gives⟩

theorem callScript_writes {frame : Frame} (position : Nat) (name : String) {arguments : List Expr}
    {values : List Value} (given : Gives (frame.itemsScript arguments) values) {parts : List Part}
    (called : .call name arguments ∈ parts) :
    Asks (frame.Writes parts) (frame.callScript position name values) := by
  have handed (value : Value) (member : value ∈ values) :
      ∃ e, handedTo name parts e ∧ Gives (frame.exprScript e) value := by
    obtain ⟨e, among, gives⟩ := gives_items given value member
    exact ⟨e, ⟨arguments, called, among⟩, gives⟩
  unfold callScript
  split
  case isTrue isPrint =>
    refine Asks.bind (asks_writeAll fun chunk member => ?_) fun _ _ => asks_pure _
    obtain rfl := beq_iff_eq.mp isPrint
    obtain ⟨value, among, rfl⟩ := List.mem_map.mp member
    exact ⟨_, rfl, handed value among⟩
  case isFalse =>
    split
    case isTrue isPrintv =>
      refine Asks.bind (asks_writeAll fun chunk member => ?_) fun _ _ => asks_pure _
      obtain rfl := beq_iff_eq.mp isPrintv
      obtain ⟨value, among, rfl⟩ := List.mem_map.mp member
      obtain ⟨e, handing, gives⟩ := handed value among
      exact ⟨_, rfl, e, .inr handing, gives⟩
    case isFalse =>
      cases frame.shared.function? name <;> exact asks_placed frame _ _

mutual

theorem exprScript_writes (frame : Frame) : (e : Expr) → Asks (frame.Writes e.parts) (frame.exprScript e)
  | .literal _ value => asks_pure value
  | .variable position name => by
      unfold exprScript
      refine (asks_lookup frame name).bind fun found _ => ?_
      cases found with
      | none => exact asks_placed frame _ _
      | some value => exact asks_pure value
  | .array _ items => by
      unfold exprScript Expr.parts
      exact (itemsScript_writes frame items).bind fun _ _ => asks_pure _
  | .object _ entries => by
      unfold exprScript Expr.parts
      exact (entriesScript_writes frame entries).bind fun _ _ => asks_pure _
  | .member position target name => by
      unfold exprScript Expr.parts
      exact (exprScript_writes frame target).bind fun _ _ => asks_placed frame _ _
  | .index position target index => by
      unfold exprScript Expr.parts
      have first := writes_within (exprScript_writes frame target) (List.subset_append_left _ index.parts)
      have second := writes_within (exprScript_writes frame index) (List.subset_append_right target.parts _)
      exact first.bind fun _ _ => second.bind fun _ _ => asks_placed frame _ _
  | .call position name arguments => by
      unfold exprScript Expr.parts
      refine (asks_lookup frame name).bind fun found _ => ?_
      cases found with
      | some value => exact asks_placed frame _ _
      | none =>
          have first := writes_within (itemsScript_writes frame arguments) (List.subset_cons_self (.call name arguments) _)
          exact first.bind fun values given => callScript_writes position name given (List.mem_cons_self ..)
  | .unary _ .not operand => by
      unfold exprScript Expr.parts
      exact (exprScript_writes frame operand).bind fun _ _ => asks_pure _
  | .unary position .negate operand => by
      unfold exprScript Expr.parts
      exact (exprScript_writes frame operand).bind fun _ _ => asks_placed frame _ _
  | .binary position operator left right => by
      have first := writes_within (exprScript_writes frame left) (List.subset_append_left _ right.parts)
      have second := writes_within (exprScript_writes frame right) (List.subset_append_right left.parts _)
      unfold Expr.parts
      cases operator
      case and =>
        unfold exprScript
        apply first.bind
        intro value _
        split
        · exact second
        · exact asks_pure value
      case or =>
        unfold exprScript
        apply first.bind
        intro value _
        split
        · exact asks_pure value
        · exact second
      all_goals
        unfold exprScript
        exact first.bind fun _ _ => second.bind fun _ _ => asks_placed frame _ _
  | .conditional _ condition yes no => by
      unfold exprScript Expr.parts
      apply (writes_within (exprScript_writes frame condition) (by simp)).bind
      intro value _
      split
      · exact writes_within (exprScript_writes frame yes) (by simp)
      · exact writes_within (exprScript_writes frame no) (by simp)

theorem itemsScript_writes (frame : Frame) : (items : List Expr) →
    Asks (frame.Writes (Expr.partsOfItems items)) (frame.itemsScript items)
  | [] => asks_pure []
  | item :: rest => by
      unfold itemsScript Expr.partsOfItems
      have first := writes_within (exprScript_writes frame item) (List.subset_append_left _ (Expr.partsOfItems rest))
      have others := writes_within (itemsScript_writes frame rest) (List.subset_append_right item.parts _)
      exact first.bind fun _ _ => others.bind fun _ _ => asks_pure _

theorem entriesScript_writes (frame : Frame) : (entries : List (String × Expr)) →
    Asks (frame.Writes (Expr.partsOfEntries entries)) (frame.entriesScript entries)
  | [] => asks_pure []
  | (key, item) :: rest => by
      unfold entriesScript Expr.partsOfEntries
      have first := writes_within (exprScript_writes frame item) (List.subset_append_left _ (Expr.partsOfEntries rest))
      have others := writes_within (entriesScript_writes frame rest) (List.subset_append_right item.parts _)
      exact first.bind fun _ _ => others.bind fun _ _ => asks_pure _

end

/-! ## Nodes -/

/-- Requests of nodes: those of expressions, and files. -/
def Requests (frame : Frame) (parts : List Part) (request : Request) : Prop :=
  frame.Writes parts request ∨ ∃ position target bindings, request = .embed position target bindings

theorem requests_within {frame : Frame} {parts more : List Part} {script : ScriptM α}
    (asks : Asks (frame.Requests parts) script) (sub : parts ⊆ more) :
    Asks (frame.Requests more) script := by
  refine asks.mono fun request requested => requested.imp_left ?_
  rintro ⟨chunk, same, licensed⟩
  exact ⟨chunk, same, licensed.mono sub fun _ _ given => given⟩

/-- What an expression asks for is among what a node with all of its parts may ask for. -/
theorem exprScript_requests (frame : Frame) (e : Expr) {parts : List Part} (sub : e.parts ⊆ parts) :
    Asks (frame.Requests parts) (frame.exprScript e) :=
  (writes_within (exprScript_writes frame e) sub).mono fun _ => .inl

theorem embedScript_requests (frame : Frame) (position : Nat) (path : Expr) (environment : Option Expr) :
    Asks (frame.Requests (Node.embed position path environment).parts)
      (frame.embedScript position path environment) := by
  have embedding {parts : List Part} (target : String) (bindings : Fields) :
      Asks (frame.Requests parts) (.ask (.embed position target bindings)) :=
    asks_ask (.inr ⟨position, target, bindings, rfl⟩)
  unfold embedScript
  cases environment with
  | none =>
      unfold Node.parts
      exact (exprScript_requests frame path (List.Subset.refl _)).bind fun target _ => embedding _ _
  | some environment =>
      unfold Node.parts
      apply (exprScript_requests frame path (by simp)).bind
      intro target _
      apply (exprScript_requests frame environment (by simp)).bind
      intro value _
      exact (asks_placed frame position _).bind fun bindings _ => embedding _ _

mutual

theorem nodeScript_requests (frame : Frame) : (node : Node) →
    Asks (frame.Requests node.parts) (frame.nodeScript node)
  | .text content => by
      unfold nodeScript Node.parts
      exact asks_ask (.inl ⟨_, rfl, List.mem_singleton_self _⟩)
  | .echo value => by
      unfold nodeScript Node.parts
      apply (exprScript_requests frame value (by simp)).bind
      intro given gives
      exact asks_ask (.inl ⟨_, rfl, value, .inl (by simp), gives⟩)
  | .expression value => by
      unfold nodeScript Node.parts
      exact (exprScript_requests frame value (by simp)).bind fun _ _ => asks_pure _
  | .declare name value => by
      unfold nodeScript Node.parts
      exact (exprScript_requests frame value (by simp)).bind fun _ _ => asks_modify _
  | .assign position name value => by
      unfold nodeScript Node.parts
      apply (exprScript_requests frame value (by simp)).bind
      intro given _ scopes request asked
      rw [bind_script] at asked
      change request ∈ ((match assignScopes? scopes name given with
        | some scopes => set scopes
        | none => frame.placed position _ : ScriptM Unit) scopes).requests at asked
      cases assigned : assignScopes? scopes name given <;> simp [assigned] at asked <;> cases asked
  | .choose branches none => by
      unfold nodeScript Node.parts
      exact (branchesScript_requests frame branches).bind fun _ _ => asks_pure _
  | .choose branches (some body) => by
      unfold nodeScript Node.parts
      have tried := requests_within (branchesScript_requests frame branches)
        (List.subset_append_left _ (Node.partsOfAll body))
      have others := requests_within (nodesScript_requests frame body)
        (List.subset_append_right (Node.partsOfBranches branches) _)
      apply tried.bind
      intro taken _
      cases taken with
      | true => exact asks_pure _
      | false => exact asks_inScope [] others
  | .each first second entries body => by
      unfold nodeScript Node.parts
      have round := requests_within (nodesScript_requests frame body)
        (List.subset_append_right entries.parts _)
      apply (exprScript_requests frame entries (by simp)).bind
      intro value _
      refine (asks_placed frame entries.position (entriesOf value)).bind fun rounds _ => ?_
      exact asks_forEntries (fun key item => asks_inScope _ round) rounds
  | .embed position path environment => by
      unfold nodeScript
      exact embedScript_requests frame position path environment

theorem nodesScript_requests (frame : Frame) : (nodes : List Node) →
    Asks (frame.Requests (Node.partsOfAll nodes)) (frame.nodesScript nodes)
  | [] => asks_pure ()
  | node :: rest => by
      unfold nodesScript Node.partsOfAll
      have first := requests_within (nodeScript_requests frame node)
        (List.subset_append_left _ (Node.partsOfAll rest))
      have others := requests_within (nodesScript_requests frame rest)
        (List.subset_append_right node.parts _)
      exact first.bind fun _ _ => others

theorem branchesScript_requests (frame : Frame) : (branches : List (Expr × List Node)) →
    Asks (frame.Requests (Node.partsOfBranches branches)) (frame.branchesScript branches)
  | [] => asks_pure false
  | (condition, body) :: rest => by
      unfold branchesScript Node.partsOfBranches
      apply (exprScript_requests frame condition (by simp)).bind
      intro value _
      split
      · exact (asks_inScope [] (requests_within (nodesScript_requests frame body) (by simp))).bind
          fun _ _ => asks_pure true
      · exact requests_within (branchesScript_requests frame rest) (by simp)

end

/-! ## What a frame writes -/

/-- A value that an expression has in a frame, for some local variables. -/
def Evaluates (frame : Frame) (e : Expr) (value : Value) : Prop :=
  ∃ scopes, ((frame.eval e).run.run { scopes }).1 = .ok value

theorem answerAll_writes {frame : Frame} {includeFile : Include} {requests : List Request}
    (writes : ∀ request ∈ requests, ∃ chunk, request = .write chunk) (run : Run)
    (unlimited : run.output.limit = none) :
    ∃ after, frame.answerAll includeFile requests run = (.ok (), after) := by
  induction requests generalizing run with
  | nil => exact ⟨run, rfl⟩
  | cons request rest ih =>
      obtain ⟨chunk, rfl⟩ := writes request (by simp)
      have taken : run.output.write? chunk.text =
          some { run.output with chunks := run.output.chunks.push chunk.text } := by
        simp [Output.write?, unlimited]
      rw [answerAll, bind_apply, answer, write_apply, taken]
      exact ih (fun other member => writes other (by simp [member])) { run with output := _ } unlimited

/-- An expression has the value that its script gives, since nothing that it writes is refused. -/
theorem evaluates_of_gives {frame : Frame} {e : Expr} {value : Value}
    (gives : Gives (frame.exprScript e) value) : frame.Evaluates e value := by
  obtain ⟨scopes, left, given⟩ := gives
  let ignore : Include := fun _ _ => pure ()
  have unscoped (path : Path) (properties : Properties) : Unscoped (ignore path properties) :=
    unscoped_pure ()
  obtain ⟨dropped, acted⟩ := follows_eval unscoped frame e { scopes }
  have writes : ∀ request ∈ (frame.exprScript e scopes).requests, ∃ chunk, request = .write chunk := by
    intro request asked
    obtain ⟨chunk, same, -⟩ := exprScript_writes frame e scopes request asked
    exact ⟨chunk, same⟩
  obtain ⟨after, answered⟩ : ∃ after, frame.answerAll ignore _ { scopes } = (.ok (), after) :=
    answerAll_writes writes { scopes } rfl
  rw [play, bind_apply, answered, given] at acted
  exact ⟨scopes, congrArg Prod.fst acted⟩

/-- What the evaluation of a frame's own template may write. -/
def MayWrite (frame : Frame) (chunk : Chunk) : Prop :=
  Licenses frame.Evaluates frame.template.parts chunk

theorem mayWrite_of_script (frame : Frame) {chunk : Chunk}
    (asked : .write chunk ∈ frame.script.requests) : frame.MayWrite chunk := by
  have same : frame.script.requests = (frame.nodesScript frame.template.nodes [[]]).requests := by
    rw [script]
    generalize frame.nodesScript frame.template.nodes [[]] = script
    obtain ⟨requests, _ | outcome⟩ := script
    · rfl
    · exact List.append_nil requests
  rw [same] at asked
  rcases nodesScript_requests frame frame.template.nodes [[]] _ asked with written | ⟨_, _, _, embedded⟩
  · obtain ⟨_, ⟨⟩, licensed⟩ := written
    exact licensed.mono (List.Subset.refl _) fun e value => evaluates_of_gives
  · cases embedded

end Frame

/-! ## What an evaluation writes -/

/-- The frames that an evaluation goes through: its own, and those of the files that are loaded before
the sink refuses a string. -/
def Course.evaluated (course : Course) (output : Output) (frame : Frame) : List Frame :=
  frame :: (happened output course.events).filterMap (Event.frame? frame.shared)

/-- Whether some call in a template is one of `print`. -/
def Compiled.Prints (template : Compiled) : Prop :=
  ∃ arguments, .call "print" arguments ∈ template.parts

/-- Data reaches the output unescaped only through `print`. -/
theorem unescaped_only_through_print (fs : FileSystem) (shared : Shared) (depth : Nat)
    (contextAlive : Bool) (template : Compiled) (properties : Properties) (cache : Cache)
    (limit : Option Nat) :
    let course := Course.ofCompiled fs shared depth contextAlive template properties cache
    let after := ((evalCompiled fs shared depth contextAlive template properties).run.run
      { output := { limit }, cache }).2
    let writes := (happened { limit } course.events).filterMap Event.write?
    let evaluated := course.evaluated { limit } { template, properties, shared, contextAlive }
    after.output.chunks.toList = writes.map (·.2.text) ∧
      (∀ write ∈ writes, ∃ frame ∈ evaluated, frame.template = write.1 ∧ frame.MayWrite write.2) ∧
      ((∀ frame ∈ evaluated, ¬ frame.template.Prints) →
        ∀ write ∈ writes, (∃ content, write.2 = .literal content) ∨
          ∃ value, write.2 = .escaped value ∧ Text.Harmless write.2.text ∧
            Text.unescapeMarkup write.2.text = toText value) := by
  intro course after writes evaluated
  have traced : Traced fs shared [{ template, properties, shared, contextAlive }] cache
      (happened { limit } course.events) :=
    (traced_ofCompiled fs shared depth contextAlive template properties cache).ofPrefix
      (happened_isPrefix { limit } course.events)
  have licensed : ∀ write ∈ writes, ∃ frame ∈ evaluated,
      frame.template = write.1 ∧ frame.MayWrite write.2 := by
    intro write member
    obtain ⟨event, took, wrote⟩ := List.mem_filterMap.mp member
    cases event <;> cases wrote
    obtain ⟨frame, among, same, asked⟩ := traced.exists_frame took
    exact ⟨frame, among, same, frame.mayWrite_of_script asked⟩
  refine ⟨?_, licensed, fun printless write member => ?_⟩
  · have ran : after = (happen course.result course.events { output := { limit }, cache }).2 :=
      congrArg Prod.snd (evalCompiled_eq fs shared depth contextAlive template properties
        { output := { limit }, cache })
    rw [ran]
    exact chunks_happen course.result course.events { output := { limit }, cache }
  · obtain ⟨performing, chunk⟩ := write
    obtain ⟨frame, among, same, writes⟩ := licensed _ member
    cases chunk with
    | literal content => exact .inl ⟨content, rfl⟩
    | escaped value =>
        exact .inr ⟨value, rfl, Text.harmless_escapeMarkup _, Text.unescapeMarkup_escapeMarkup _⟩
    | printed value =>
        obtain ⟨e, ⟨arguments, called, -⟩, -⟩ := writes
        exact absurd ⟨arguments, called⟩ (printless frame among)

end StaticSite.Template
