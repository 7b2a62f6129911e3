import Mathlib.Data.List.Forall2
import StaticSite.Proofs.Template.Provenance

/-!
Evaluations that go alike. Two of them may differ in where variables come from, in the templates that
stand for a file, in the caches and in the errors, each as a `Likeness` says. Templates that are alike
then ask for the same strings and files, and so do all files that they include.
-/

namespace StaticSite.Template

open Json (Value Fields)

/-- What two evaluations that go alike may differ in. -/
structure Likeness (shared shared' : Shared) where
  /-- The bindings of a template. -/
  Fields : Fields → Fields → Prop
  Templates : Compiled → Compiled → Prop
  Errors : Error → Error → Prop
  /-- The paths that a file is asked for by. -/
  Paths : Path → Path → Prop
  Caches : Cache → Cache → Prop
  /-- Whether both use cached templates without looking at their files. -/
  reuse : Bool
  functions : shared.function? = shared'.function?
  visible {bindings bindings'} : Fields bindings bindings' → ∀ name,
    (bindings.get? name).or (shared.constants.get? name) =
      (bindings'.get? name).or (shared'.constants.get? name)
  overridden {bindings bindings'} : Fields bindings bindings' → ∀ extra,
    Fields (bindings.overriddenBy extra) (bindings'.overriddenBy extra)
  nodes {template template'} : Templates template template' → template.nodes = template'.nodes
  resolved {template template'} : Templates template template' → ∀ target,
    Paths (template.directory.resolve target) (template'.directory.resolve target)
  failed {template template'} : Templates template template' → ∀ position problem,
    Errors (template.error position problem) (template'.error position problem)
  tooDeep : Errors .tooDeep .tooDeep

namespace Likeness

variable {shared shared' : Shared} {like : Likeness shared shared'} {α β : Type}

structure Properties (like : Likeness shared shared') (properties properties' : Template.Properties) :
    Prop where
  bindings : like.Fields properties.bindings properties'.bindings
  filename : properties.filename = properties'.filename
  reuse : properties.reuse = like.reuse
  reuse' : properties'.reuse = like.reuse

structure Frames (like : Likeness shared shared') (frame frame' : Frame) : Prop where
  template : like.Templates frame.template frame'.template
  properties : like.Properties frame.properties frame'.properties
  shared : frame.shared = shared
  shared' : frame'.shared = shared'
  alive : frame.contextAlive = frame'.contextAlive

/-! ## Scripts -/

inductive Requests (like : Likeness shared shared') : Request → Request → Prop
  | write (chunk : Chunk) : like.Requests (.write chunk) (.write chunk)
  | embed (position : Nat) (target : String) {bindings bindings' : Json.Fields}
    (alike : like.Fields bindings bindings') :
    like.Requests (.embed position target bindings) (.embed position target bindings')

inductive Ends (like : Likeness shared shared') : Except Error α → Except Error α → Prop
  | ok (value : α) : like.Ends (.ok value) (.ok value)
  | error {error error' : Error} (alike : like.Errors error error') :
    like.Ends (.error error) (.error error')

/-- Scripts that ask for the same things and end alike, from any scopes. -/
def Scripts (like : Likeness shared shared') (script script' : ScriptM α) : Prop :=
  ∀ scopes, List.Forall₂ like.Requests (script scopes).requests (script' scopes).requests ∧
    like.Ends (script scopes).result (script' scopes).result

theorem scripts_pure (value : α) : like.Scripts (pure value) (pure value) :=
  fun scopes => ⟨.nil, .ok (value, scopes)⟩

theorem scripts_ask {request request' : Request} (alike : like.Requests request request') :
    like.Scripts (.ask request) (.ask request') :=
  fun scopes => ⟨.cons alike .nil, .ok ((), scopes)⟩

theorem scripts_modify (change : List Json.Fields → List Json.Fields) :
    like.Scripts (modify change) (modify change) :=
  fun scopes => ⟨.nil, .ok ((), change scopes)⟩

theorem scripts_get : like.Scripts (get : ScriptM (List Json.Fields)) get :=
  fun scopes => ⟨.nil, .ok (scopes, scopes)⟩

theorem scripts_set (scopes : List Json.Fields) : like.Scripts (set scopes) (set scopes) :=
  fun _ => ⟨.nil, .ok ((), scopes)⟩

theorem Scripts.bind {first first' : ScriptM α} {rest rest' : α → ScriptM β}
    (alike : like.Scripts first first') (others : ∀ value, like.Scripts (rest value) (rest' value)) :
    like.Scripts (first >>= rest) (first' >>= rest') := by
  intro scopes
  obtain ⟨requests, ends⟩ := alike scopes
  rw [bind_script, bind_script]
  generalize (first scopes).result = result, (first' scopes).result = result' at ends
  cases ends with
  | error alike => exact ⟨requests, .error alike⟩
  | ok outcome =>
      obtain ⟨requests', ends'⟩ := others outcome.1 outcome.2
      exact ⟨List.rel_append requests requests', ends'⟩

theorem scripts_writeAll (chunks : List Chunk) :
    like.Scripts (ScriptM.writeAll chunks) (ScriptM.writeAll chunks) := by
  induction chunks with
  | nil => exact scripts_pure ()
  | cons chunk rest ih => exact (scripts_ask (.write chunk)).bind fun _ => ih

theorem scripts_inScope {body body' : ScriptM Unit} (bindings : Json.Fields)
    (alike : like.Scripts body body') :
    like.Scripts (.inScope bindings body) (.inScope bindings body') := by
  rw [inScope_script, inScope_script]
  exact (scripts_modify _).bind fun _ => alike.bind fun _ => scripts_modify _

theorem scripts_forEntries {body body' : Value → Value → ScriptM Unit}
    (alike : ∀ key item, like.Scripts (body key item) (body' key item))
    (entries : List (Value × Value)) :
    like.Scripts (.forEntries body entries) (.forEntries body' entries) := by
  induction entries with
  | nil => exact scripts_pure ()
  | cons entry rest ih => exact (alike entry.1 entry.2).bind fun _ => ih

section Frames

variable {frame frame' : Frame}

theorem Frames.lookup_eq (alike : like.Frames frame frame') (scopes : List Json.Fields) (name : String) :
    frame.lookup scopes name = frame'.lookup scopes name := by
  unfold Frame.lookup
  rw [alike.shared, alike.shared', like.visible alike.properties.bindings name]

theorem scripts_placed (alike : like.Frames frame frame') (position : Nat) (result : Except RuntimeProblem α) :
    like.Scripts (frame.placed position result) (frame'.placed position result) := by
  intro scopes
  cases result with
  | ok value => exact ⟨.nil, .ok (value, scopes)⟩
  | error problem => exact ⟨.nil, .error (like.failed alike.template position problem)⟩

theorem scripts_lookup (alike : like.Frames frame frame') (name : String) :
    like.Scripts (frame.lookupScript name) (frame'.lookupScript name) := by
  refine scripts_get.bind fun scopes => ?_
  rw [alike.lookup_eq]
  exact scripts_pure _

theorem scripts_assign (alike : like.Frames frame frame') (position : Nat) (name : String) (value : Value) :
    like.Scripts
      (do
        match assignScopes? (← get) name value with
        | some scopes => set scopes
        | none => frame.placed position (.error (.undeclaredVariable name)))
      (do
        match assignScopes? (← get) name value with
        | some scopes => set scopes
        | none => frame'.placed position (.error (.undeclaredVariable name))) := by
  refine scripts_get.bind fun scopes => ?_
  cases assignScopes? scopes name value with
  | some scopes => exact scripts_set scopes
  | none => exact scripts_placed alike position _

theorem scripts_call (alike : like.Frames frame frame') (position : Nat) (name : String) (arguments : List Value) :
    like.Scripts (frame.callScript position name arguments)
      (frame'.callScript position name arguments) := by
  unfold Frame.callScript
  split
  · exact (scripts_writeAll _).bind fun _ => scripts_pure _
  split
  · exact (scripts_writeAll _).bind fun _ => scripts_pure _
  · rw [alike.shared, alike.shared', like.functions]
    cases shared'.function? name with
    | none => exact scripts_placed alike position _
    | some function => exact scripts_placed alike position _

mutual

theorem scripts_expr (alike : like.Frames frame frame') : (e : Expr) → like.Scripts (frame.exprScript e) (frame'.exprScript e)
  | .literal _ value => scripts_pure value
  | .variable position name => by
      unfold Frame.exprScript
      apply (scripts_lookup alike name).bind
      intro found
      cases found with
      | none => exact scripts_placed alike position _
      | some value => exact scripts_pure value
  | .array _ items => by
      unfold Frame.exprScript
      exact (scripts_items alike items).bind fun _ => scripts_pure _
  | .object _ entries => by
      unfold Frame.exprScript
      exact (scripts_entries alike entries).bind fun _ => scripts_pure _
  | .member position target name => by
      unfold Frame.exprScript
      exact (scripts_expr alike target).bind fun _ => scripts_placed alike position _
  | .index position target index => by
      unfold Frame.exprScript
      exact (scripts_expr alike target).bind fun _ =>
        (scripts_expr alike index).bind fun _ => scripts_placed alike position _
  | .call position name arguments => by
      unfold Frame.exprScript
      apply (scripts_lookup alike name).bind
      intro found
      cases found with
      | none => exact (scripts_items alike arguments).bind fun _ => scripts_call alike position name _
      | some value => exact scripts_placed alike position _
  | .unary _ .not operand => by
      unfold Frame.exprScript
      exact (scripts_expr alike operand).bind fun _ => scripts_pure _
  | .unary position .negate operand => by
      unfold Frame.exprScript
      exact (scripts_expr alike operand).bind fun _ => scripts_placed alike position _
  | .binary position operator left right => by
      have first := scripts_expr alike left
      have second := scripts_expr alike right
      cases operator
      case and =>
        unfold Frame.exprScript
        apply first.bind
        intro value
        split
        · exact second
        · exact scripts_pure value
      case or =>
        unfold Frame.exprScript
        apply first.bind
        intro value
        split
        · exact scripts_pure value
        · exact second
      all_goals
        unfold Frame.exprScript
        exact first.bind fun _ => second.bind fun _ => scripts_placed alike position _
  | .conditional _ condition yes no => by
      unfold Frame.exprScript
      apply (scripts_expr alike condition).bind
      intro value
      split
      · exact scripts_expr alike yes
      · exact scripts_expr alike no

theorem scripts_items (alike : like.Frames frame frame') : (items : List Expr) →
    like.Scripts (frame.itemsScript items) (frame'.itemsScript items)
  | [] => scripts_pure []
  | item :: rest => by
      unfold Frame.itemsScript
      exact (scripts_expr alike item).bind fun _ => (scripts_items alike rest).bind fun _ => scripts_pure _

theorem scripts_entries (alike : like.Frames frame frame') : (entries : List (String × Expr)) →
    like.Scripts (frame.entriesScript entries) (frame'.entriesScript entries)
  | [] => scripts_pure []
  | (key, item) :: rest => by
      unfold Frame.entriesScript
      exact (scripts_expr alike item).bind fun _ => (scripts_entries alike rest).bind fun _ => scripts_pure _

end

/-- The environments that a value makes differ only in the bindings that they start from. -/
theorem scripts_environment (alike : like.Frames frame frame') (position : Nat) (target : String) (value : Value) :
    like.Scripts
      (do ScriptM.ask (.embed position target (← frame.placed position (frame.environmentOf value))))
      (do ScriptM.ask (.embed position target (← frame'.placed position (frame'.environmentOf value)))) := by
  have asks {bindings bindings' : Json.Fields} (fields : like.Fields bindings bindings') :
      like.Scripts (do ScriptM.ask (.embed position target (← pure bindings)))
        (do ScriptM.ask (.embed position target (← pure bindings'))) :=
    scripts_ask (.embed position target fields)
  have fails : like.Scripts
      (do ScriptM.ask (.embed position target
        (← frame.placed position (.error (.environmentNotAnObject (kindOf value))))))
      (do ScriptM.ask (.embed position target
        (← frame'.placed position (.error (.environmentNotAnObject (kindOf value)))))) :=
    fun _ => ⟨.nil, .error (like.failed alike.template position _)⟩
  cases value with
  | object extra => exact asks (like.overridden alike.properties.bindings extra)
  | null => exact asks alike.properties.bindings
  | bool value => exact fails
  | number value => exact fails
  | string value => exact fails
  | array items => exact fails

theorem scripts_embed (alike : like.Frames frame frame') (position : Nat) (path : Expr)
    (environment : Option Expr) :
    like.Scripts (frame.embedScript position path environment)
      (frame'.embedScript position path environment) := by
  apply (scripts_expr alike path).bind
  intro target
  cases environment with
  | none => exact scripts_ask (.embed position _ alike.properties.bindings)
  | some expression =>
      exact (scripts_expr alike expression).bind fun value =>
        scripts_environment alike position (toText target) value

mutual

theorem scripts_node (alike : like.Frames frame frame') : (node : Node) →
    like.Scripts (frame.nodeScript node) (frame'.nodeScript node)
  | .text content => by
      unfold Frame.nodeScript
      exact scripts_ask (.write _)
  | .echo value => by
      unfold Frame.nodeScript
      exact (scripts_expr alike value).bind fun _ => scripts_ask (.write _)
  | .expression value => by
      unfold Frame.nodeScript
      exact (scripts_expr alike value).bind fun _ => scripts_pure ()
  | .declare name value => by
      unfold Frame.nodeScript
      exact (scripts_expr alike value).bind fun value =>
        scripts_modify fun scopes => declareScopes scopes name value
  | .assign position name value => by
      unfold Frame.nodeScript
      exact (scripts_expr alike value).bind fun value => scripts_assign alike position name value
  | .choose branches none => by
      unfold Frame.nodeScript
      exact (scripts_branches alike branches).bind fun _ => scripts_pure ()
  | .choose branches (some body) => by
      unfold Frame.nodeScript
      apply (scripts_branches alike branches).bind
      intro taken
      cases taken with
      | true => exact scripts_pure ()
      | false => exact scripts_inScope [] (scripts_nodes alike body)
  | .each first second entries body => by
      unfold Frame.nodeScript
      exact (scripts_expr alike entries).bind fun _ =>
        (scripts_placed alike entries.position _).bind fun rounds =>
          scripts_forEntries (fun key item => scripts_inScope _ (scripts_nodes alike body)) rounds
  | .embed position path environment => by
      unfold Frame.nodeScript
      exact scripts_embed alike position path environment

theorem scripts_nodes (alike : like.Frames frame frame') : (nodes : List Node) →
    like.Scripts (frame.nodesScript nodes) (frame'.nodesScript nodes)
  | [] => scripts_pure ()
  | node :: rest => by
      unfold Frame.nodesScript
      exact (scripts_node alike node).bind fun _ => scripts_nodes alike rest

theorem scripts_branches (alike : like.Frames frame frame') : (branches : List (Expr × List Node)) →
    like.Scripts (frame.branchesScript branches) (frame'.branchesScript branches)
  | [] => scripts_pure false
  | (condition, body) :: rest => by
      unfold Frame.branchesScript
      apply (scripts_expr alike condition).bind
      intro value
      split
      · exact (scripts_inScope [] (scripts_nodes alike body)).bind fun _ => scripts_pure true
      · exact scripts_branches alike rest

end

/-- Templates that are alike ask for the same things, whatever the caches and files are. -/
theorem Frames.script (alike : like.Frames frame frame') :
    List.Forall₂ like.Requests frame.script.requests frame'.script.requests ∧
      like.Ends frame.script.result frame'.script.result := by
  obtain ⟨requests, ends⟩ := scripts_nodes alike frame.template.nodes [[]]
  unfold Frame.script
  rw [← like.nodes alike.template]
  generalize frame.nodesScript frame.template.nodes [[]] = script at requests ends ⊢
  generalize frame'.nodesScript frame.template.nodes [[]] = script' at requests ends ⊢
  obtain ⟨asked, result⟩ := script
  obtain ⟨asked', result'⟩ := script'
  cases ends with
  | error alike => exact ⟨requests, .error alike⟩
  | ok outcome => exact ⟨List.rel_append requests .nil, .ok ()⟩

end Frames

/-! ## Courses -/

inductive Loads (like : Likeness shared shared') :
    Except Error (Compiled × Cache) → Except Error (Compiled × Cache) → Prop
  | ok {template template' : Compiled} {cache cache' : Cache}
    (templates : like.Templates template template') (caches : like.Caches cache cache') :
    like.Loads (.ok (template, cache)) (.ok (template', cache'))
  | error {error error' : Error} (alike : like.Errors error error') :
    like.Loads (.error error) (.error error')

inductive Events (like : Likeness shared shared') : Event → Event → Prop
  | write {template template' : Compiled} (templates : like.Templates template template')
    (chunk : Chunk) : like.Events (.write template chunk) (.write template' chunk)
  | load (cache cache' : Cache) {path path' : Path} (paths : like.Paths path path')
    {properties properties' : Template.Properties} (said : like.Properties properties properties')
    {outcome outcome'} (loads : like.Loads outcome outcome') :
    like.Events (.load cache path properties outcome) (.load cache' path' properties' outcome')

structure Courses (like : Likeness shared shared') (course course' : Course) : Prop where
  events : List.Forall₂ like.Events course.events course'.events
  result : like.Ends course.result course'.result

theorem Courses.after {course course' : Course} {events events' : List Event}
    (first : List.Forall₂ like.Events events events') (alike : like.Courses course course') :
    like.Courses (course.after events) (course'.after events') :=
  ⟨List.rel_append first alike.events, alike.result⟩

theorem caches_after {events events' : List Event} {cache cache' : Cache}
    (alike : List.Forall₂ like.Events events events') (caches : like.Caches cache cache') :
    like.Caches (cacheAfter events cache) (cacheAfter events' cache') := by
  induction alike generalizing cache cache' with
  | nil => exact caches
  | cons same _ ih =>
      refine ih ?_
      cases same with
      | write templates chunk => exact caches
      | load asked asked' paths said loads =>
          cases loads with
          | ok templates caches => exact caches
          | error errors => exact caches

/-- Files that are asked for alike are loaded alike. -/
def Reads (like : Likeness shared shared') (allowed : Path → Prop) (fs fs' : FileSystem) : Prop :=
  ∀ {path path' : Path} {cache cache' : Cache} {properties properties' : Template.Properties},
    allowed path → like.Paths path path' → like.Caches cache cache' →
    like.Properties properties properties' →
    like.Loads (load fs cache path properties) (load fs' cache' path' properties')

end Likeness

/-- What an event asks for. -/
def Event.asked? : Event → Option Path
  | .load _ path _ _ => some path
  | .write _ _ => none

/-- Events that ask for allowed paths only. -/
def AsksFor (allowed : Path → Prop) (events : List Event) : Prop :=
  ∀ cache path properties outcome, .load cache path properties outcome ∈ events → allowed path

theorem asksFor_append {allowed : Path → Prop} {first rest : List Event} :
    AsksFor allowed (first ++ rest) ↔ AsksFor allowed first ∧ AsksFor allowed rest := by
  simp only [AsksFor, List.mem_append, or_imp, forall_and]

theorem asksFor_of_asked? {allowed : Path → Prop} {events : List Event}
    (each : ∀ path ∈ events.filterMap Event.asked?, allowed path) : AsksFor allowed events :=
  fun _ _ _ _ member => each _ (List.mem_filterMap.mpr ⟨_, member, rfl⟩)

namespace Likeness

variable {shared shared' : Shared} {like : Likeness shared shared'} {allowed : Path → Prop}

theorem courses_ofRequests {frame frame' : Frame} {courses courses' : Path → Template.Properties → Cache → Course}
    (included : ∀ path path' properties properties' cache cache', like.Paths path path' →
      like.Properties properties properties' → like.Caches cache cache' →
      AsksFor allowed (courses path properties cache).events →
      like.Courses (courses path properties cache) (courses' path' properties' cache'))
    (frames : like.Frames frame frame') {result result' : Except Error Unit}
    (ends : like.Ends result result') {requests requests' : List Request}
    (alike : List.Forall₂ like.Requests requests requests') {cache cache' : Cache}
    (caches : like.Caches cache cache')
    (asks : AsksFor allowed (Course.ofRequests frame courses result requests cache).events) :
    like.Courses (Course.ofRequests frame courses result requests cache)
      (Course.ofRequests frame' courses' result' requests' cache') := by
  induction alike generalizing cache cache' with
  | nil => exact ⟨.nil, ends⟩
  | cons same _ ih =>
      cases same with
      | write chunk =>
          rw [Course.ofRequests] at asks
          exact (ih caches (asksFor_append.mp asks).2).after (.cons (.write frames.template chunk) .nil)
      | embed position target fields =>
          rw [Course.ofRequests] at asks
          rw [Course.ofRequests, Course.ofRequests, ← frames.alive]
          cases alive : frame.contextAlive with
          | false => exact ⟨.nil, .error (like.failed frames.template position _)⟩
          | true =>
              simp only [alive, Bool.not_true, Bool.false_eq_true, if_false] at asks ⊢
              have paths := like.resolved frames.template ⟨target⟩
              have properties : like.Properties
                  { frame.properties with bindings := _, filename := none }
                  { frame'.properties with bindings := _, filename := none } :=
                ⟨fields, rfl, frames.properties.reuse, frames.properties.reuse'⟩
              have whole := included _ _ _ _ _ _ paths properties caches
              generalize courses _ _ cache = course at asks whole ⊢
              generalize courses' _ _ cache' = course' at whole ⊢
              obtain ⟨events, result⟩ := course
              obtain ⟨events', result'⟩ := course'
              cases result with
              | error error =>
                  obtain ⟨same, ends⟩ := whole asks
                  cases ends with
                  | error errors => exact ⟨same, .error errors⟩
              | ok value =>
                  obtain ⟨asks, others⟩ := asksFor_append.mp asks
                  obtain ⟨same, ends⟩ := whole asks
                  cases ends with
                  | ok value => exact (ih (caches_after same caches) others).after same

theorem courses_ofFrame {frame frame' : Frame} {courses courses' : Path → Template.Properties → Cache → Course}
    (included : ∀ path path' properties properties' cache cache', like.Paths path path' →
      like.Properties properties properties' → like.Caches cache cache' →
      AsksFor allowed (courses path properties cache).events →
      like.Courses (courses path properties cache) (courses' path' properties' cache'))
    (frames : like.Frames frame frame') {cache cache' : Cache} (caches : like.Caches cache cache')
    (asks : AsksFor allowed (Course.ofFrame frame courses cache).events) :
    like.Courses (Course.ofFrame frame courses cache) (Course.ofFrame frame' courses' cache') := by
  obtain ⟨requests, ends⟩ := frames.script
  exact courses_ofRequests included frames ends requests caches asks

variable {fs fs' : FileSystem}

/-- A file is evaluated alike, if all files that the first evaluation asks for are loaded alike. -/
theorem courses_ofFile (reads : like.Reads allowed fs fs') (depth : Nat) (path path' : Path)
    (properties properties' : Template.Properties) (cache cache' : Cache) (paths : like.Paths path path')
    (said : like.Properties properties properties') (caches : like.Caches cache cache')
    (asks : AsksFor allowed (Course.ofFile fs shared depth path properties cache).events) :
    like.Courses (Course.ofFile fs shared depth path properties cache)
      (Course.ofFile fs' shared' depth path' properties' cache') := by
  induction depth generalizing path path' properties properties' cache cache' with
  | zero => exact ⟨.nil, .error like.tooDeep⟩
  | succ depth ih =>
      rw [Course.ofFile] at asks
      rw [Course.ofFile, Course.ofFile]
      have permitted : allowed path := by
        apply asks cache path properties (load fs cache path properties)
        cases load fs cache path properties with
        | error error => exact List.mem_singleton_self _
        | ok found => exact List.mem_cons_self
      have loads := reads permitted paths caches said
      generalize load fs cache path properties = outcome at asks loads ⊢
      generalize load fs' cache' path' properties' = outcome' at loads ⊢
      have same := Events.load cache cache' paths said loads
      cases loads with
      | error errors => exact ⟨.cons same .nil, .error errors⟩
      | ok templates caches =>
          have frames : like.Frames ⟨_, properties, shared, true⟩ ⟨_, properties', shared', true⟩ :=
            ⟨templates, said, rfl, rfl, rfl⟩
          exact (courses_ofFrame ih frames caches (asksFor_append.mp asks).2).after (.cons same .nil)

theorem courses_ofCompiled (reads : like.Reads allowed fs fs') (depth : Nat) (contextAlive : Bool)
    {template template' : Compiled} {properties properties' : Template.Properties} {cache cache' : Cache}
    (templates : like.Templates template template') (said : like.Properties properties properties')
    (caches : like.Caches cache cache')
    (asks : AsksFor allowed
      (Course.ofCompiled fs shared depth contextAlive template properties cache).events) :
    like.Courses (Course.ofCompiled fs shared depth contextAlive template properties cache)
      (Course.ofCompiled fs' shared' depth contextAlive template' properties' cache') := by
  have frames : like.Frames ⟨template, properties, shared, contextAlive⟩
      ⟨template', properties', shared', contextAlive⟩ := ⟨templates, said, rfl, rfl, rfl⟩
  exact courses_ofFrame (courses_ofFile reads depth) frames caches asks

end Likeness
end StaticSite.Template
