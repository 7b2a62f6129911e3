import StaticSite.Proofs.Template.Script

/-!
The course of an evaluation, with the files that it includes: which strings are written by which
template, and which files are asked for from the cache, in order. `evalFile_eq` and `evalCompiled_eq` say
that evaluating into a sink lets the events of the course happen until the sink refuses a string.
-/

namespace StaticSite.Template

open Json (Fields)

inductive Event
  | write (template : Compiled) (chunk : Chunk)
  /-- A file is asked for, with the cache as it is by then, and the template is given or not. -/
  | load (cache : Cache) (path : Path) (properties : Properties)
    (outcome : Except Error (Compiled × Cache))

structure Course where
  events : List Event
  /-- How the evaluation ends if the sink takes all strings. -/
  result : Except Error Unit

/-- The cache after an event. -/
def Event.cacheAfter (cache : Cache) : Event → Cache
  | .load _ _ _ (.ok (_, after)) => after
  | _ => cache

def cacheAfter (events : List Event) (cache : Cache) : Cache := events.foldl Event.cacheAfter cache

theorem cacheAfter_cons (event : Event) (rest : List Event) (cache : Cache) :
    cacheAfter (event :: rest) cache = cacheAfter rest (event.cacheAfter cache) := rfl

namespace Course

def after (events : List Event) (course : Course) : Course :=
  { course with events := events ++ course.events }

/-- The requests of a script, given the courses of the files that it includes. -/
def ofRequests (frame : Frame) (includeFile : Path → Properties → Cache → Course)
    (result : Except Error Unit) : List Request → Cache → Course
  | [], _ => ⟨[], result⟩
  | .write chunk :: rest, cache =>
    (ofRequests frame includeFile result rest cache).after [.write frame.template chunk]
  | .embed position target bindings :: rest, cache =>
    if !frame.contextAlive then ⟨[], .error (frame.template.error position .contextGone)⟩
    else
      let included :=
        includeFile (frame.template.directory.resolve ⟨target⟩)
          { frame.properties with bindings, filename := none } cache
      match included.result with
      | .ok _ =>
        (ofRequests frame includeFile result rest (cacheAfter included.events cache)).after
          included.events
      | .error _ => included

def ofFrame (frame : Frame) (includeFile : Path → Properties → Cache → Course) (cache : Cache) :
    Course :=
  ofRequests frame includeFile frame.script.result frame.script.requests cache

/-- The course of evaluating a file. -/
def ofFile (fs : FileSystem) (shared : Shared) : Nat → Path → Properties → Cache → Course
  | 0, _, _, _ => ⟨[], .error .tooDeep⟩
  | depth + 1, path, properties, cache =>
    let asked := Event.load cache path properties (load fs cache path properties)
    match load fs cache path properties with
    | .error error => ⟨[asked], .error error⟩
    | .ok (template, cache) =>
      (ofFrame { template, properties, shared, contextAlive := true } (ofFile fs shared depth)
        cache).after [asked]

/-- The course of evaluating a template that is compiled already. -/
def ofCompiled (fs : FileSystem) (shared : Shared) (depth : Nat) (contextAlive : Bool)
    (template : Compiled) (properties : Properties) (cache : Cache) : Course :=
  ofFrame { template, properties, shared, contextAlive } (ofFile fs shared depth) cache

end Course

/-- Lets events happen one after the other. A string that the sink refuses is the end. -/
def happen (result : Except Error Unit) : List Event → Run → Except Error Unit × Run
  | [], run => (result, run)
  | .write template chunk :: rest, run =>
    match run.output.write? chunk.text with
    | some output => happen result rest { run with output }
    | none => (.error (.io template.filename (.other "sink is full")), run)
  | .load cache path properties outcome :: rest, run =>
    happen result rest
      { run with cache := (Event.load cache path properties outcome).cacheAfter run.cache }

/-- The course of an evaluation, as it takes place in a run. -/
def Course.run (course : Course) (run : Run) : Except Error Unit × Run :=
  happen course.result course.events run

theorem happen_append (result : Except Error Unit) (first rest : List Event) (run : Run) :
    happen result (first ++ rest) run =
      match happen (.ok ()) first run with
      | (.ok _, after) => happen result rest after
      | (.error error, after) => (.error error, after) := by
  induction first generalizing run with
  | nil => rfl
  | cons event first ih =>
      cases event with
      | write template chunk =>
          simp only [List.cons_append, happen]
          cases run.output.write? chunk.text with
          | none => rfl
          | some output => exact ih _
      | load cache path properties outcome => exact ih _

/-- The events that take place before a sink refuses a string. -/
def happened : Output → List Event → List Event
  | _, [] => []
  | output, .write template chunk :: rest =>
    match output.write? chunk.text with
    | some output => .write template chunk :: happened output rest
    | none => []
  | output, .load cache path properties outcome :: rest =>
    .load cache path properties outcome :: happened output rest

theorem happened_isPrefix (output : Output) (events : List Event) : happened output events <+: events := by
  induction events generalizing output with
  | nil => exact List.prefix_rfl
  | cons event events ih =>
      cases event with
      | write template chunk =>
          simp only [happened]
          cases output.write? chunk.text with
          | none => exact List.nil_prefix
          | some output => exact (List.prefix_cons_inj _).mpr (ih output)
      | load cache path properties outcome => exact (List.prefix_cons_inj _).mpr (ih output)

theorem cache_happen (result : Except Error Unit) (events : List Event) (run : Run) :
    (happen result events run).2.cache = cacheAfter (happened run.output events) run.cache := by
  induction events generalizing run with
  | nil => rfl
  | cons event events ih =>
      cases event with
      | write template chunk =>
          simp only [happen, happened]
          cases run.output.write? chunk.text with
          | none => rfl
          | some output => exact ih { run with output }
      | load cache path properties outcome => exact ih { run with cache := _ }

/-- The string that an event writes, with the template that writes it. -/
def Event.write? : Event → Option (Compiled × Chunk)
  | .write template chunk => some (template, chunk)
  | .load _ _ _ _ => none

theorem chunks_happen (result : Except Error Unit) (events : List Event) (run : Run) :
    (happen result events run).2.output.chunks.toList =
      run.output.chunks.toList ++ ((happened run.output events).filterMap Event.write?).map (·.2.text) := by
  induction events generalizing run with
  | nil => simp [happen, happened]
  | cons event events ih =>
      cases event with
      | load cache path properties outcome => exact ih { run with cache := _ }
      | write template chunk =>
          simp only [happen, happened]
          cases taken : run.output.write? chunk.text with
          | none => simp
          | some output =>
              have pushed : output.chunks = run.output.chunks.push chunk.text := by
                unfold Output.write? at taken
                split at taken <;> cases taken
                rfl
              simp [ih { run with output }, pushed, Event.write?]

theorem happened_of_ok {events : List Event} (run : Run) {after : Run}
    (completed : happen (.ok ()) events run = (.ok (), after)) : happened run.output events = events := by
  induction events generalizing run with
  | nil => rfl
  | cons event events ih =>
      cases event with
      | write template chunk =>
          simp only [happen] at completed
          simp only [happened]
          cases taken : run.output.write? chunk.text with
          | none => simp [taken] at completed
          | some output =>
              simp only [taken] at completed
              exact congrArg _ (ih { run with output } completed)
      | load cache path properties outcome =>
          rw [happen] at completed
          let asked := Event.load cache path properties outcome
          exact congrArg (asked :: ·) (ih { run with cache := asked.cacheAfter run.cache } completed)

/-- Events that all happen leave the cache that they lead to. -/
theorem cache_of_happen {events : List Event} (run : Run) {after : Run}
    (completed : happen (.ok ()) events run = (.ok (), after)) :
    after.cache = cacheAfter events run.cache := by
  have left := cache_happen (.ok ()) events run
  rwa [completed, happened_of_ok run completed] at left

theorem happen_error (error : Error) (events : List Event) (run : Run) :
    happen (.error error) events run =
      match happen (.ok ()) events run with
      | (.ok _, after) => (.error error, after)
      | (.error error, after) => (.error error, after) := by
  have whole := happen_append (.error error) events [] run
  rwa [List.append_nil] at whole

theorem loadFile_apply (fs : FileSystem) (path : Path) (properties : Properties) (run : Run) :
    loadFile fs path properties run =
      match load fs run.cache path properties with
      | .ok (template, cache) => (.ok template, { run with cache })
      | .error error => (.error error, run) := by
  rw [loadFile, bind_apply]
  change (match load fs run.cache path properties with
    | .ok (template, cache) => do
      set { run with cache }
      return template
    | .error error => throw error : EvalM Compiled) run = _
  cases load fs run.cache path properties <;> rfl

theorem happen_scopes (result : Except Error Unit) (events : List Event) (run : Run)
    (scopes : List Fields) :
    happen result events { run with scopes } =
      ((happen result events run).1, { (happen result events run).2 with scopes }) := by
  induction events generalizing run with
  | nil => rfl
  | cons event events ih =>
      cases event with
      | write template chunk =>
          simp only [happen]
          cases run.output.write? chunk.text with
          | none => rfl
          | some output => exact ih { run with output }
      | load cache path properties outcome => exact ih { run with cache := _ }

section Files

variable {frame : Frame} {includeFile : Include} {courses : Path → Properties → Cache → Course}
variable
  (included : ∀ path properties run,
    includeFile path properties run = (courses path properties run.cache).run run)
include included

theorem unscoped_of_courses (path : Path) (properties : Properties) :
    Unscoped (includeFile path properties) := by
  intro run scopes
  rw [included, included]
  exact happen_scopes _ _ run scopes

theorem play_eq (result : Except Error Unit) (requests : List Request) (run : Run) :
    frame.play includeFile ⟨requests, result⟩ run =
      (Course.ofRequests frame courses result requests run.cache).run run := by
  induction requests generalizing run with
  | nil => cases result <;> rfl
  | cons request rest ih =>
      rw [Frame.play, Frame.answerAll, bind_assoc, bind_apply, Course.run]
      cases request with
      | write chunk =>
          rw [Frame.answer, frame.write_apply]
          change _ = happen _ (.write frame.template chunk :: _) run
          rw [happen]
          cases run.output.write? chunk.text with
          | none => rfl
          | some output => exact ih { run with output }
      | embed position target bindings =>
          rw [Course.ofRequests, Frame.answer]
          cases frame.contextAlive with
          | false => rfl
          | true =>
              simp only [Bool.not_true, Bool.false_eq_true, if_false, included, Course.run]
              generalize courses _ _ run.cache = course
              obtain ⟨events, _ | value⟩ := course
              · dsimp only
                rw [happen_error]
                generalize happen (.ok ()) events run = outcome
                obtain ⟨_ | _, after⟩ := outcome <;> rfl
              · dsimp only [Course.after]
                rw [happen_append]
                cases happened : happen (.ok ()) events run with
                | mk outcome after =>
                    cases outcome with
                    | error error => rfl
                    | ok value =>
                        dsimp only
                        rw [← cache_of_happen run happened]
                        exact ih after

/-- A template runs as its course says, if the files that it includes do. -/
theorem run_eq (run : Run) :
    frame.run includeFile run = (Course.ofFrame frame courses run.cache).run run := by
  rw [Frame.run_eq_play (unscoped_of_courses included)]
  exact play_eq included frame.script.result frame.script.requests run

end Files

theorem evalFile_eq (fs : FileSystem) (shared : Shared) (depth : Nat) (path : Path)
    (properties : Properties) (run : Run) :
    evalFile fs shared depth path properties run =
      (Course.ofFile fs shared depth path properties run.cache).run run := by
  induction depth generalizing path properties run with
  | zero => rfl
  | succ depth ih =>
      rw [evalFile, bind_apply, loadFile_apply, Course.ofFile]
      cases loaded : load fs run.cache path properties with
      | error error => rfl
      | ok found =>
          dsimp only
          rw [run_eq ih]
          rfl

theorem evalCompiled_eq (fs : FileSystem) (shared : Shared) (depth : Nat) (contextAlive : Bool)
    (template : Compiled) (properties : Properties) (run : Run) :
    evalCompiled fs shared depth contextAlive template properties run =
      (Course.ofCompiled fs shared depth contextAlive template properties run.cache).run run :=
  run_eq (evalFile_eq fs shared depth) run

end StaticSite.Template
