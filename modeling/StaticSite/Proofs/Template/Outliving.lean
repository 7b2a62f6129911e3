import StaticSite.Proofs.Template.Likeness
import StaticSite.Proofs.Template.Sink

/-!
Templates that outlive their context. What a template asks for does not depend on whether its context still
exists; without it an evaluation goes as before up to the first call of `include`, and fails there.
-/

namespace StaticSite.Template

open Json (Fields)

/-! ## Calls of include -/

/-- A call of `include` in a template. -/
structure IncludeCall where
  position : Nat
  path : Expr
  environment : Option Expr

mutual

/-- The calls of `include` in a node, at any depth. -/
def Node.includes : Node → List IncludeCall
  | .text _ => []
  | .echo _ => []
  | .expression _ => []
  | .declare _ _ => []
  | .assign _ _ _ => []
  | .choose branches none => includesOfBranches branches
  | .choose branches (some body) => includesOfBranches branches ++ includesOfAll body
  | .each _ _ _ body => includesOfAll body
  | .embed position path environment => [⟨position, path, environment⟩]

def Node.includesOfAll : List Node → List IncludeCall
  | [] => []
  | node :: rest => node.includes ++ includesOfAll rest

def Node.includesOfBranches : List (Expr × List Node) → List IncludeCall
  | [] => []
  | (_, body) :: rest => includesOfAll body ++ includesOfBranches rest

end

def Compiled.includes (template : Compiled) : List IncludeCall := Node.includesOfAll template.nodes

namespace Frame

variable {α : Type} {calls more : List IncludeCall}

/-- A string to be written, or the file that one of some calls asks for after its arguments are evaluated. -/
def Calls (frame : Frame) (calls : List IncludeCall) : Request → Prop
  | .write _ => True
  | .embed position target bindings => ∃ call ∈ calls, call.position = position ∧ ∃ scopes,
      .embed position target bindings ∈
        (frame.embedScript call.position call.path call.environment scopes).requests

theorem calls_within {frame : Frame} {script : ScriptM α} (asks : Asks (frame.Calls calls) script)
    (sub : calls ⊆ more) : Asks (frame.Calls more) script := by
  refine asks.mono fun request called => ?_
  cases request with
  | write chunk => trivial
  | embed position target bindings =>
      obtain ⟨call, member, asked⟩ := called
      exact ⟨call, sub member, asked⟩

/-- Expressions ask for no files. -/
theorem exprScript_asks (frame : Frame) (e : Expr) (allowed : Request → Prop)
    (writes : ∀ chunk, allowed (.write chunk)) : Asks allowed (frame.exprScript e) := by
  refine (exprScript_writes frame e).mono ?_
  rintro _ ⟨chunk, rfl, -⟩
  exact writes chunk

theorem exprScript_calls (frame : Frame) (e : Expr) : Asks (frame.Calls calls) (frame.exprScript e) :=
  exprScript_asks frame e _ fun _ => trivial

theorem asks_assign (frame : Frame) (position : Nat) (name : String) (value : Json.Value)
    {allowed : Request → Prop} :
    Asks allowed (do
      match assignScopes? (← get) name value with
      | some scopes => set scopes
      | none => frame.placed position (.error (.undeclaredVariable name))) := by
  have current : Asks allowed (get : ScriptM (List Fields)) := fun _ _ asked => absurd asked List.not_mem_nil
  refine current.bind fun scopes _ => ?_
  cases assignScopes? scopes name value with
  | some scopes => exact fun _ _ asked => absurd asked List.not_mem_nil
  | none => exact asks_placed frame position _

/-- Strings to be written, and files that the call of `include` at a position asks for. -/
def At (position : Nat) : Request → Prop
  | .write _ => True
  | .embed asking _ _ => asking = position

theorem embedScript_at (frame : Frame) (position : Nat) (path : Expr) (environment : Option Expr) :
    Asks (At position) (frame.embedScript position path environment) := by
  unfold embedScript
  have evaluating (e : Expr) := exprScript_asks frame e (At position) fun _ => trivial
  have embedding (target : String) (bindings : Fields) :
      Asks (At position) (.ask (.embed position target bindings)) := asks_ask rfl
  apply (evaluating path).bind
  intro target _
  cases environment with
  | none => exact embedding _ _
  | some environment =>
      apply (evaluating environment).bind
      intro value _
      exact (asks_placed frame position _).bind fun bindings _ => embedding _ _

theorem embedScript_calls (frame : Frame) (position : Nat) (path : Expr) (environment : Option Expr) :
    Asks (frame.Calls [⟨position, path, environment⟩]) (frame.embedScript position path environment) := by
  intro scopes request asked
  have placed := embedScript_at frame position path environment scopes request asked
  cases request with
  | write chunk => trivial
  | embed asking target bindings =>
      obtain rfl : asking = position := placed
      exact ⟨_, List.mem_singleton_self _, rfl, scopes, asked⟩

mutual

theorem nodeScript_calls (frame : Frame) : (node : Node) →
    Asks (frame.Calls node.includes) (frame.nodeScript node)
  | .text _ => by
      unfold nodeScript
      exact asks_ask trivial
  | .echo value => by
      unfold nodeScript
      exact (exprScript_calls frame value).bind fun _ _ => asks_ask trivial
  | .expression value => by
      unfold nodeScript
      exact (exprScript_calls frame value).bind fun _ _ => asks_pure _
  | .declare _ value => by
      unfold nodeScript
      exact (exprScript_calls frame value).bind fun _ _ => asks_modify _
  | .assign position name value => by
      unfold nodeScript
      apply (exprScript_calls frame value).bind
      intro given _
      exact asks_assign frame position name given
  | .choose branches none => by
      unfold nodeScript Node.includes
      exact (branchesScript_calls frame branches).bind fun _ _ => asks_pure _
  | .choose branches (some body) => by
      unfold nodeScript Node.includes
      apply (calls_within (branchesScript_calls frame branches) (List.subset_append_left _ _)).bind
      intro taken _
      cases taken with
      | true => exact asks_pure _
      | false => exact asks_inScope [] (calls_within (nodesScript_calls frame body) (List.subset_append_right _ _))
  | .each _ _ entries body => by
      unfold nodeScript Node.includes
      apply (exprScript_calls frame entries).bind
      intro value _
      refine (asks_placed frame entries.position _).bind fun rounds _ => ?_
      exact asks_forEntries (fun _ _ => asks_inScope _ (nodesScript_calls frame body)) rounds
  | .embed position path environment => by
      unfold nodeScript Node.includes
      exact embedScript_calls frame position path environment

theorem nodesScript_calls (frame : Frame) : (nodes : List Node) →
    Asks (frame.Calls (Node.includesOfAll nodes)) (frame.nodesScript nodes)
  | [] => asks_pure ()
  | node :: rest => by
      unfold nodesScript Node.includesOfAll
      have first := calls_within (nodeScript_calls frame node)
        (List.subset_append_left _ (Node.includesOfAll rest))
      have others := calls_within (nodesScript_calls frame rest) (List.subset_append_right node.includes _)
      exact first.bind fun _ _ => others

theorem branchesScript_calls (frame : Frame) : (branches : List (Expr × List Node)) →
    Asks (frame.Calls (Node.includesOfBranches branches)) (frame.branchesScript branches)
  | [] => asks_pure false
  | (condition, body) :: rest => by
      unfold branchesScript Node.includesOfBranches
      apply (exprScript_calls frame condition).bind
      intro value _
      have taken := calls_within (nodesScript_calls frame body)
        (List.subset_append_left _ (Node.includesOfBranches rest))
      have others := calls_within (branchesScript_calls frame rest)
        (List.subset_append_right (Node.includesOfAll body) _)
      split
      · exact (asks_inScope [] taken).bind fun _ _ => asks_pure true
      · exact others

end

/-- A template asks for what its nodes ask for. -/
theorem script_requests (frame : Frame) :
    frame.script.requests = (frame.nodesScript frame.template.nodes [[]]).requests := by
  rw [script]
  generalize frame.nodesScript frame.template.nodes [[]] = script
  obtain ⟨requests, _ | outcome⟩ := script
  · rfl
  · exact List.append_nil requests

theorem script_calls (frame : Frame) {request : Request} (asked : request ∈ frame.script.requests) :
    frame.Calls frame.template.includes request := by
  rw [script_requests] at asked
  exact nodesScript_calls frame frame.template.nodes [[]] request asked

/-! ## Scripts without the context -/

/-- The frame while its context exists or not. -/
def within (frame : Frame) (contextAlive : Bool) : Frame := { frame with contextAlive }

mutual

theorem exprScript_within (frame : Frame) (contextAlive : Bool) : (e : Expr) →
    (frame.within contextAlive).exprScript e = frame.exprScript e
  | .literal _ _ => by unfold exprScript; rfl
  | .variable _ _ => by unfold exprScript; rfl
  | .array _ items => by unfold exprScript; rw [itemsScript_within frame contextAlive items]
  | .object _ entries => by unfold exprScript; rw [entriesScript_within frame contextAlive entries]
  | .member _ target _ => by unfold exprScript; rw [exprScript_within frame contextAlive target]; rfl
  | .index _ target index => by
      unfold exprScript
      rw [exprScript_within frame contextAlive target, exprScript_within frame contextAlive index]
      rfl
  | .call _ _ arguments => by unfold exprScript; rw [itemsScript_within frame contextAlive arguments]; rfl
  | .unary _ .not operand => by unfold exprScript; rw [exprScript_within frame contextAlive operand]
  | .unary _ .negate operand => by unfold exprScript; rw [exprScript_within frame contextAlive operand]; rfl
  | .binary _ operator left right => by
      have left := exprScript_within frame contextAlive left
      have right := exprScript_within frame contextAlive right
      cases operator <;> unfold exprScript <;> rw [left, right] <;> rfl
  | .conditional _ condition yes no => by
      unfold exprScript
      rw [exprScript_within frame contextAlive condition, exprScript_within frame contextAlive yes,
        exprScript_within frame contextAlive no]

theorem itemsScript_within (frame : Frame) (contextAlive : Bool) : (items : List Expr) →
    (frame.within contextAlive).itemsScript items = frame.itemsScript items
  | [] => by unfold itemsScript; rfl
  | item :: rest => by
      unfold itemsScript
      rw [exprScript_within frame contextAlive item, itemsScript_within frame contextAlive rest]

theorem entriesScript_within (frame : Frame) (contextAlive : Bool) : (entries : List (String × Expr)) →
    (frame.within contextAlive).entriesScript entries = frame.entriesScript entries
  | [] => by unfold entriesScript; rfl
  | (_, item) :: rest => by
      unfold entriesScript
      rw [exprScript_within frame contextAlive item, entriesScript_within frame contextAlive rest]

end

theorem embedScript_within (frame : Frame) (contextAlive : Bool) (position : Nat) (path : Expr)
    (environment : Option Expr) :
    (frame.within contextAlive).embedScript position path environment =
      frame.embedScript position path environment := by
  unfold embedScript
  rw [exprScript_within]
  cases environment with
  | none => rfl
  | some environment => dsimp only; rw [exprScript_within]; rfl

mutual

theorem nodeScript_within (frame : Frame) (contextAlive : Bool) : (node : Node) →
    (frame.within contextAlive).nodeScript node = frame.nodeScript node
  | .text _ => by unfold nodeScript; rfl
  | .echo _ => by unfold nodeScript; rw [exprScript_within]
  | .expression _ => by unfold nodeScript; rw [exprScript_within]
  | .declare _ _ => by unfold nodeScript; rw [exprScript_within]
  | .assign _ _ _ => by unfold nodeScript; rw [exprScript_within]; rfl
  | .choose branches none => by
      unfold nodeScript
      rw [branchesScript_within frame contextAlive branches]
  | .choose branches (some body) => by
      unfold nodeScript
      rw [branchesScript_within frame contextAlive branches, nodesScript_within frame contextAlive body]
  | .each _ _ _ body => by
      unfold nodeScript
      rw [exprScript_within, nodesScript_within frame contextAlive body]
      rfl
  | .embed _ _ _ => by unfold nodeScript; exact embedScript_within ..

theorem nodesScript_within (frame : Frame) (contextAlive : Bool) : (nodes : List Node) →
    (frame.within contextAlive).nodesScript nodes = frame.nodesScript nodes
  | [] => by unfold nodesScript; rfl
  | node :: rest => by
      unfold nodesScript
      rw [nodeScript_within frame contextAlive node, nodesScript_within frame contextAlive rest]

theorem branchesScript_within (frame : Frame) (contextAlive : Bool) : (branches : List (Expr × List Node)) →
    (frame.within contextAlive).branchesScript branches = frame.branchesScript branches
  | [] => by unfold branchesScript; rfl
  | (_, body) :: rest => by
      unfold branchesScript
      rw [exprScript_within, nodesScript_within frame contextAlive body,
        branchesScript_within frame contextAlive rest]

end

/-- What a template asks for does not depend on whether its context still exists. -/
theorem script_within (frame : Frame) (contextAlive : Bool) :
    (frame.within contextAlive).script = frame.script := by
  unfold script
  rw [nodesScript_within]
  rfl
end Frame

/-! ## The first file that is asked for -/

/-- What a template asks for begins with strings to be written, up to the first file. -/
theorem split_requests (requests : List Request) :
    (∃ chunks : List Chunk, requests = chunks.map .write) ∨
      ∃ (chunks : List Chunk) (position : Nat) (target : String) (bindings : Fields) (rest : List Request),
      requests = chunks.map .write ++ .embed position target bindings :: rest := by
  induction requests with
  | nil => exact .inl ⟨[], rfl⟩
  | cons request requests ih =>
      cases request with
      | embed position target bindings => exact .inr ⟨[], position, target, bindings, requests, rfl⟩
      | write chunk =>
          obtain ⟨chunks, rfl⟩ | ⟨chunks, position, target, bindings, rest, rfl⟩ := ih
          · exact .inl ⟨chunk :: chunks, rfl⟩
          · exact .inr ⟨chunk :: chunks, position, target, bindings, rest, rfl⟩

/-- The events of a template that writes strings. -/
def writing (template : Compiled) (chunks : List Chunk) : List Event := chunks.map (.write template)

theorem asked_writing (template : Compiled) (chunks : List Chunk) :
    (writing template chunks).filterMap Event.asked? = [] := by
  simp [writing, Event.asked?]

theorem ofRequests_writes (frame : Frame) (courses : Path → Properties → Cache → Course)
    (result : Except Error Unit) (chunks : List Chunk) (rest : List Request) (cache : Cache) :
    Course.ofRequests frame courses result (chunks.map .write ++ rest) cache =
      (Course.ofRequests frame courses result rest cache).after (writing frame.template chunks) := by
  induction chunks with
  | nil => rfl
  | cons chunk chunks ih =>
      rw [List.map_cons, List.cons_append, Course.ofRequests, ih]
      rfl

theorem happened_append (first rest : List Event) (run : Run) :
    happened run.output (first ++ rest) =
      match happen (.ok ()) first run with
      | (.ok _, after) => first ++ happened after.output rest
      | (.error _, _) => happened run.output first := by
  induction first generalizing run with
  | nil => rfl
  | cons event first ih =>
      cases event with
      | load cache path properties outcome =>
          let asked := Event.load cache path properties outcome
          have others := ih { run with cache := asked.cacheAfter run.cache }
          rw [List.cons_append, happened, happened, happen, others]
          generalize happen (.ok ()) first _ = ended
          obtain ⟨_ | _, after⟩ := ended <;> rfl
      | write template chunk =>
          rw [List.cons_append, happened, happened, happen]
          cases run.output.write? chunk.text with
          | none => rfl
          | some output =>
              have others := ih { run with output }
              dsimp only at others ⊢
              rw [others]
              generalize happen (.ok ()) first _ = ended
              obtain ⟨_ | _, after⟩ := ended <;> rfl

/-- Events that others could follow, but for an error: the sink refuses a string of theirs, or all of them take
place and the others go on. -/
theorem happen_parted (result : Except Error Unit) (error : Error) (first rest : List Event) (run : Run) :
    happened run.output (first ++ rest) = happened run.output first ∧
        happen result (first ++ rest) run = happen (.error error) first run ∨
      happened run.output first = first ∧ (happen (.error error) first run).1 = .error error ∧
        ∃ left : Run, happened run.output (first ++ rest) = first ++ happened left.output rest := by
  rw [happened_append, happen_append, happen_error]
  cases completed : happen (.ok ()) first run with
  | mk outcome left =>
      cases outcome with
      | error error => exact .inl ⟨rfl, rfl⟩
      | ok value => exact .inr ⟨happened_of_ok run completed, rfl, left, rfl⟩

/-- Strings are written whatever is in the cache, and leave it as it is. -/
theorem happen_writing (result : Except Error Unit) (template : Compiled) (chunks : List Chunk) (run : Run)
    (cache : Cache) :
    happen result (writing template chunks) { run with cache } =
      ((happen result (writing template chunks) run).1,
        { (happen result (writing template chunks) run).2 with cache }) := by
  induction chunks generalizing run with
  | nil => rfl
  | cons chunk chunks ih =>
      rw [writing, List.map_cons, happen, happen]
      cases run.output.write? chunk.text with
      | none => rfl
      | some output => exact ih { run with output }

/-! ## Evaluations without the context -/

/-- Without its context a template asks for no file, and ends where it would. -/
theorem ofRequests_gone {frame : Frame} (gone : frame.contextAlive = false)
    (courses : Path → Properties → Cache → Course) (result : Except Error Unit) (chunks : List Chunk)
    (position : Nat) (target : String) (bindings : Fields) (rest : List Request) (cache : Cache) :
    Course.ofRequests frame courses result (chunks.map .write ++ .embed position target bindings :: rest) cache =
      ⟨writing frame.template chunks, .error (frame.template.error position .contextGone)⟩ := by
  rw [ofRequests_writes, Course.ofRequests, gone]
  simp [Course.after]

/-- A file is loaded before anything else happens. -/
theorem ofFile_begins (fs : FileSystem) (shared : Shared) (depth : Nat) (path : Path) (properties : Properties)
    (cache : Cache) :
    ∃ more, (Course.ofFile fs shared (depth + 1) path properties cache).events =
      .load cache path properties (load fs cache path properties) :: more := by
  rw [Course.ofFile]
  cases load fs cache path properties with
  | error error => exact ⟨[], rfl⟩
  | ok found => exact ⟨_, rfl⟩

theorem ofRequests_alive {frame : Frame} (alive : frame.contextAlive = true) (fs : FileSystem)
    (depth : Nat) (result : Except Error Unit) (chunks : List Chunk) (position : Nat) (target : String)
    (bindings : Fields) (rest : List Request) (cache : Cache) :
    let path := frame.template.directory.resolve ⟨target⟩
    let including := { frame.properties with bindings, filename := none }
    ∃ more, (Course.ofRequests frame (Course.ofFile fs frame.shared (depth + 1)) result
        (chunks.map .write ++ .embed position target bindings :: rest) cache).events =
      writing frame.template chunks ++ .load cache path including (load fs cache path including) :: more := by
  obtain ⟨more, begins⟩ := ofFile_begins fs frame.shared depth (frame.template.directory.resolve ⟨target⟩)
    { frame.properties with bindings, filename := none } cache
  intro path including
  rw [ofRequests_writes, Course.ofRequests, alive]
  simp only [Bool.not_true, Bool.false_eq_true, if_false, Course.after]
  generalize Course.ofFile fs frame.shared (depth + 1) (frame.template.directory.resolve ⟨target⟩)
    { frame.properties with bindings, filename := none } cache = course at begins ⊢
  obtain ⟨events, ending⟩ := course
  obtain rfl : events = _ := begins
  cases ending with
  | error error => exact ⟨more, rfl⟩
  | ok value => exact ⟨_, rfl⟩

/-- The course without the context is as before, or ends where that goes on with the first file. -/
theorem ofCompiled_gone (fs fs' : FileSystem) (shared : Shared) (depth depth' : Nat) (template : Compiled)
    (properties : Properties) (cache cache' : Cache) :
    let frame : Frame := { template, properties, shared, contextAlive := true }
    let course := Course.ofCompiled fs shared (depth + 1) true template properties cache
    let course' := Course.ofCompiled fs' shared depth' false template properties cache'
    ∃ chunks, course'.events = writing template chunks ∧
      (course = course' ∨ ∃ position target bindings more,
        let path := template.directory.resolve ⟨target⟩
        let including := { properties with bindings, filename := none }
        frame.Calls template.includes (.embed position target bindings) ∧
          course.events = writing template chunks ++
            .load cache path including (load fs cache path including) :: more ∧
          course'.result = .error (template.error position .contextGone)) := by
  intro frame course course'
  have same : course' = Course.ofRequests (frame.within false) (Course.ofFile fs' shared depth')
      frame.script.result frame.script.requests cache' := by
    rw [← frame.script_within false]
    rfl
  obtain ⟨chunks, writes⟩ | ⟨chunks, position, target, bindings, rest, requests⟩ :=
    split_requests frame.script.requests
  · have ends (frame' : Frame) (courses : Path → Properties → Cache → Course) (cache : Cache) :
        Course.ofRequests frame' courses frame.script.result frame.script.requests cache =
          ⟨writing frame'.template chunks, frame.script.result⟩ := by
      rw [writes, ← List.append_nil (chunks.map _), ofRequests_writes]
      simp [Course.ofRequests, Course.after]
    refine ⟨chunks, ?_, .inl ?_⟩
    · rw [same, ends]
      rfl
    · rw [same, ends]
      exact ends frame (Course.ofFile fs shared (depth + 1)) cache
  · have gone : (frame.within false).contextAlive = false := rfl
    have alive : frame.contextAlive = true := rfl
    have stops := ofRequests_gone gone (Course.ofFile fs' shared depth')
      frame.script.result chunks position target bindings rest cache'
    rw [← requests, ← same] at stops
    obtain ⟨more, goes⟩ := ofRequests_alive alive fs depth frame.script.result chunks position
      target bindings rest cache
    rw [← requests] at goes
    have asked : .embed position target bindings ∈ frame.script.requests := by simp [requests]
    have called := frame.script_calls asked
    rw [stops]
    exact ⟨chunks, rfl, .inr ⟨position, target, bindings, more, called, goes, rfl⟩⟩

/-- A template that is kept when its context is gone goes on as before up to its first include. -/
theorem template_outlives_context (fs fs' : FileSystem) (shared : Shared) (depth depth' : Nat)
    (template : Compiled) (properties : Properties) (run : Run) (cache' : Cache) :
    let frame : Frame := { template, properties, shared, contextAlive := true }
    let before := evalCompiled fs shared (depth + 1) true template properties run
    let after := evalCompiled fs' shared depth' false template properties { run with cache := cache' }
    let events := happened run.output
      (Course.ofCompiled fs shared (depth + 1) true template properties run.cache).events
    let events' := happened run.output (Course.ofCompiled fs' shared depth' false template properties cache').events
    events'.filterMap Event.asked? = [] ∧ after.2.cache = cache' ∧ after.2.scopes = run.scopes ∧
      after.2.output.chunks.toList =
        run.output.chunks.toList ++ (events'.filterMap Event.write?).map (·.2.text) ∧
      (events.filterMap Event.asked? = [] ∧ events' = events ∧
          after = (before.1, { before.2 with cache := cache' }) ∨
        ∃ position target bindings rest,
          let path := template.directory.resolve ⟨target⟩
          let including := { properties with bindings, filename := none }
          frame.Calls template.includes (.embed position target bindings) ∧
            events = events' ++ .load run.cache path including (load fs run.cache path including) :: rest ∧
            after.1 = .error (template.error position .contextGone)) := by
  intro frame before after events events'
  let course := Course.ofCompiled fs shared (depth + 1) true template properties run.cache
  let course' := Course.ofCompiled fs' shared depth' false template properties cache'
  have ran : before = happen course.result course.events run :=
    evalCompiled_eq fs shared (depth + 1) true template properties run
  have ran' : after = happen course'.result course'.events { run with cache := cache' } :=
    evalCompiled_eq fs' shared depth' false template properties { run with cache := cache' }
  have kept : after.2.scopes = run.scopes := by
    rw [ran']
    exact congrArg (·.2.scopes) (happen_scopes course'.result course'.events { run with cache := cache' } run.scopes)
  have wrote : after.2.output.chunks.toList =
      run.output.chunks.toList ++ (events'.filterMap Event.write?).map (·.2.text) := by
    rw [ran']
    exact chunks_happen course'.result course'.events { run with cache := cache' }
  obtain ⟨chunks, writes, alike⟩ := ofCompiled_gone fs fs' shared depth depth' template properties run.cache cache'
  have apart : after = ((happen course'.result course'.events run).1,
      { (happen course'.result course'.events run).2 with cache := cache' }) := by
    rw [ran', writes]
    exact happen_writing course'.result template chunks run cache'
  have unasked : events'.filterMap Event.asked? = [] := by
    have among := (happened_isPrefix run.output course'.events).filterMap Event.asked?
    have silent : course'.events.filterMap Event.asked? = [] := by rw [writes, asked_writing]
    exact List.prefix_nil.mp (silent ▸ among)
  refine ⟨unasked, congrArg (·.2.cache) apart, kept, wrote, ?_⟩
  obtain alike | ⟨position, target, bindings, more, called, goes, stops⟩ := alike
  · have alike : course = course' := alike
    have shown : events' = events := congrArg (fun course => happened run.output course.events) alike.symm
    refine .inl ⟨shown ▸ unasked, shown, ?_⟩
    rw [apart, ran, alike]
  · have goes : course.events = writing template chunks ++ .load run.cache _ _ _ :: more := goes
    have stops : course'.result = .error (template.error position .contextGone) := stops
    have begun : events' = happened run.output (writing template chunks) := congrArg (happened run.output) writes
    have all : events = happened run.output (writing template chunks ++ _ :: more) :=
      congrArg (happened run.output) goes
    obtain ⟨shown, ended⟩ | ⟨shown, ended, left, others⟩ := happen_parted course.result
      (template.error position .contextGone) (writing template chunks) (.load run.cache _ _ _ :: more) run
    · rw [← begun, ← all] at shown
      rw [← goes, ← ran, ← stops, ← writes] at ended
      exact .inl ⟨by rw [shown, unasked], shown.symm, by rw [apart, ended]⟩
    · rw [← all, ← shown, ← begun] at others
      refine .inr ⟨position, target, bindings, happened left.output more, called, others, ?_⟩
      rw [← stops, ← writes] at ended
      rw [apart, ended, stops]

end StaticSite.Template
