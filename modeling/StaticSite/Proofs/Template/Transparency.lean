import StaticSite.Proofs.Template.Answers
import StaticSite.Proofs.Template.Recognition

/-!
What a cache shows. While files stay as they are, an evaluation with a cache writes what it writes with an
empty one, and ends in the same way. Only the names that its errors give to files can come from callers
before: a template keeps the name that it was compiled under.
-/

namespace StaticSite.Template

open Json (Fields Value)

variable {files : FileSystem} {shared : Shared} {called : Path → String → Prop}

/-! ## Names of files -/

/-- What a caller calls the file at a path. -/
def Properties.calls (properties : Properties) (key : Path) : String := properties.filename.getD key.text

/-- Whether every file that is asked for is called something that is allowed for it. -/
def Calls (files : FileSystem) (called : Path → String → Prop) (events : List Event) : Prop :=
  ∀ asked path properties outcome, .load asked path properties outcome ∈ events →
    called (path.absolute files.here) (properties.calls (path.absolute files.here))

/-- The caches that come from an empty one while the files stay as they are, by callers that call files
what is allowed. -/
inductive History (files : FileSystem) (shared : Shared) (called : Path → String → Prop) : Cache → Prop
  | start : History files shared called {}
  | load {run : Run} (path : Path) (properties : Properties) : History files shared called run.cache →
      called (path.absolute files.here) (properties.calls (path.absolute files.here)) →
      History files shared called (loadFile files path properties run).2.cache
  | evaluateFile {run : Run} (depth : Nat) (path : Path) (properties : Properties) :
      History files shared called run.cache →
      Calls files called
        (happened run.output (Course.ofFile files shared depth path properties run.cache).events) →
      History files shared called (evalFile files shared depth path properties run).2.cache
  | evaluate {run : Run} (depth : Nat) (contextAlive : Bool) (template : Compiled) (properties : Properties) :
      History files shared called run.cache →
      Calls files called
        (happened run.output
          (Course.ofCompiled files shared depth contextAlive template properties run.cache).events) →
      History files shared called
        (evalCompiled files shared depth contextAlive template properties run).2.cache

/-- Errors that differ at most in what they call a file, and both names are allowed for it. -/
inductive Error.Renamed (called : Path → String → Prop) : Error → Error → Prop
  | same (error : Error) : Renamed called error error
  | runtime {key key' : Path} {file file' : String} (same : key.same key') (name : called key file)
    (name' : called key' file') (location : Text.Location) (problem : RuntimeProblem) :
    Renamed called (.runtime file location problem) (.runtime file' location problem)
  | refused {key key' : Path} {file file' : String} (same : key.same key') (name : called key file)
    (name' : called key' file') :
    Renamed called (.io file (.other "sink is full")) (.io file' (.other "sink is full"))

/-- Evaluations that end alike, but for names in their errors. -/
inductive Ended (called : Path → String → Prop) : Except Error Unit → Except Error Unit → Prop
  | ok : Ended called (.ok ()) (.ok ())
  | error {error error' : Error} (renamed : error.Renamed called error') :
    Ended called (.error error) (.error error')

theorem Ended.eq {result result' : Except Error Unit} (ended : Ended called result result')
    (one : ∀ key key' name name', key.same key' → called key name → called key' name' → name = name') :
    result = result' := by
  cases ended with
  | ok => rfl
  | error renamed =>
      cases renamed with
      | same => rfl
      | runtime same name name' => rw [one _ _ _ _ same name name']
      | refused same name name' => rw [one _ _ _ _ same name name']

/-! ## What is cached -/

/-- A template that is what the file at a path compiles to. -/
structure Cached (files : FileSystem) (called : Path → String → Prop) (key : Path) (template : Compiled) :
    Prop where
  absolute : key.isAbsolute
  path : template.path = key
  made : ∃ source, files.readText key = .ok source ∧ template.From source
  recent : template.stamp < unreadableStamp
  named : called key template.filename

/-- Every template is what its file compiles to. -/
def Cache.Sound (files : FileSystem) (called : Path → String → Prop) (cache : Cache) : Prop :=
  ∀ entry ∈ cache.entries, Cached files called entry.1 entry.2

theorem Cache.sound_empty : Cache.Sound files called {} :=
  fun _ member => absurd member List.not_mem_nil

theorem Cached.grounded {key : Path} {template : Compiled} (cached : Cached files called key template) :
    template.Grounded := by
  obtain ⟨source, reads, -⟩ := cached.made
  obtain ⟨location, content, time, finds, -⟩ := FileSystem.exists_find_of_readText reads
  rw [Compiled.Grounded, cached.path]
  exact ⟨cached.absolute, FileSystem.names_ne_nil cached.absolute finds⟩

theorem named_of_compileFile {path : Path} {filename : Option String} {stamp : Stamp} {serial : Nat}
    {template : Compiled} (compiled : compileFile files path filename stamp serial = .ok template) :
    template.filename = filename.getD path.text ∧ template.path = path := by
  unfold compileFile at compiled
  split at compiled
  · cases compiled
  · rename_i source reads
    obtain ⟨bare, found, same⟩ := bind_eq_ok.mp compiled
    cases same
    exact ⟨(compile_ok found).2, rfl⟩

/-- A path leads where its plain spelling leads. For a file, a slash behind its name prevents that. -/
def Direct (files : FileSystem) (path : Path) : Prop :=
  files.find true (path.absolute files.here) = files.find true (path.absolute files.here).plain

theorem direct_of_tidy {path : Path} (tidy : path.Tidy) : Direct files path := by
  rw [Direct, Path.plain_eq_of_same (Path.same_absolute tidy files.here)]
  exact FileSystem.find_absolute tidy files.here

/-- What a file compiles to: its nodes and lines, or why it cannot be compiled. -/
def outcomeOf (files : FileSystem) (path : Path) (properties : Properties) :
    Except Error (List Node × Text.LineIndex) :=
  if path.text.isEmpty then .error (.io path.text .emptyPath)
  else
    let key := path.absolute files.here
    match files.readText key with
    | .error error => .error (.io key.text error)
    | .ok source =>
      let lines := Text.LineIndex.ofText source.toList
      match parse source.toList with
      | .ok nodes => .ok (nodes, lines)
      | .error error => .error (.compile (properties.calls key) (lines.locate error.position) error.problem)

section Load

variable {cache after : Cache} {path : Path} {properties : Properties} {template : Compiled}

theorem Cache.Sound.ofHit (sound : cache.Sound files called) {stamp : Stamp}
    (hit : cache.fresh? path stamp = some template) :
    ∃ key, key.same path ∧ Cached files called key template ∧ stamp ≤ template.stamp := by
  obtain ⟨known, recent⟩ := Option.filter_eq_some_iff.mp hit
  obtain ⟨⟨key, found⟩, picked, rfl⟩ := Option.map_eq_some_iff.mp known
  have same := List.find?_some picked
  exact ⟨key, same, sound _ (List.mem_of_find?_eq_some picked), by simpa using recent⟩

theorem stampOf_lt (representable : files.Representable) {source : String}
    (reads : files.readText path = .ok source) (reuse : Bool) : stampOf files path reuse < unreadableStamp := by
  cases reuse with
  | true =>
      rw [stampOf, if_pos rfl]
      decide
  | false =>
      obtain ⟨location, content, time, finds, -⟩ := FileSystem.exists_find_of_readText reads
      have timed := FileSystem.modified_of_find finds
      rw [stampOf, if_neg Bool.false_ne_true, timed]
      exact stampOfTime_lt representable timed

/-- What is compiled is cached soundly, and what is given comes from the file. -/
theorem Cache.Sound.load (sound : cache.Sound files called) (representable : files.Representable)
    (name : called (path.absolute files.here) (properties.calls (path.absolute files.here)))
    (loaded : Template.load files cache path properties = .ok (template, after)) :
    after.Sound files called ∧ ∃ key, key.same (path.absolute files.here) ∧ Cached files called key template := by
  unfold Template.load loadAcross at loaded
  split at loaded
  · cases loaded
  dsimp only at loaded
  split at loaded
  · rename_i hit
    cases loaded
    obtain ⟨key, same, cached, -⟩ := sound.ofHit hit
    exact ⟨sound, key, same, cached⟩
  split at loaded <;> cases loaded
  rename_i compiled
  obtain ⟨source, reads, made, stamped⟩ := compileFile_ok compiled
  obtain ⟨filename, located⟩ := named_of_compileFile compiled
  have cached : Cached files called (path.absolute files.here) template :=
    ⟨Path.isAbsolute_absolute path (Path.isAbsolute_location files.workingDirectory), located,
      ⟨source, reads, made⟩, stamped ▸ stampOf_lt representable reads _, filename ▸ name⟩
  refine ⟨List.forall_mem_cons.mpr ⟨cached, fun entry member => ?_⟩, _, Path.same_iff.mpr rfl, cached⟩
  exact sound entry ((List.mem_filter.mp member).1)

/-- A file that a cached template comes from reads as it did. -/
theorem Cached.reads {key : Path} (cached : Cached files called key template)
    (same : key.same (path.absolute files.here)) (direct : properties.reuse = true → Direct files path)
    (recent : stampOf files (path.absolute files.here) properties.reuse ≤ template.stamp) :
    ∃ source, files.readText (path.absolute files.here) = .ok source ∧ template.From source := by
  have absolute : (path.absolute files.here).isAbsolute :=
    Path.isAbsolute_absolute path (Path.isAbsolute_location files.workingDirectory)
  obtain ⟨source, reads, made⟩ := cached.made
  refine ⟨source, ?_, made⟩
  -- the key of the entry may be spelled otherwise; both spellings are compared with the plain one
  cases reuse : properties.reuse with
  | true =>
      obtain ⟨location, content, time, finds, decoded⟩ := FileSystem.exists_find_of_readText reads
      have plainly := FileSystem.find_plain cached.absolute (FileSystem.names_ne_nil cached.absolute finds) finds
      rw [Path.plain_eq_of_same same, ← direct reuse] at plainly
      exact FileSystem.readText_of_read (FileSystem.read_of_find plainly) decoded
  | false =>
      rw [stampOf, reuse, if_neg Bool.false_ne_true] at recent
      cases timed : files.modified (path.absolute files.here) with
      | error error =>
          rw [timed] at recent
          exact absurd cached.recent (Nat.not_lt.mpr recent)
      | ok time =>
          obtain ⟨content, before, decoded, readPlainly, -, -, -, readNow⟩ :=
            FileSystem.plain_of_same cached.absolute absolute same reads timed
          exact FileSystem.readText_of_read (readNow ▸ readPlainly) decoded

variable (files) in
theorem map_compileFile (key : Path) (filename : Option String) (stamp : Stamp) (serial : Nat) :
    (compileFile files key filename stamp serial).map (fun template => (template.nodes, template.lines)) =
      match files.readText key with
      | .error error => .error (.io key.text error)
      | .ok source =>
        match parse source.toList with
        | .ok nodes => .ok (nodes, .ofText source.toList)
        | .error error =>
          .error (.compile (filename.getD key.text) ((Text.LineIndex.ofText source.toList).locate error.position)
            error.problem) := by
  unfold compileFile
  cases files.readText key with
  | error error => rfl
  | ok source =>
      dsimp only
      unfold compile
      dsimp only
      cases parse source.toList <;> rfl

/-- A file is loaded from a sound cache as if nothing were cached. -/
theorem Cache.Sound.map_load (sound : cache.Sound files called)
    (direct : properties.reuse = true → Direct files path) :
    (Template.load files cache path properties).map (fun found => (found.1.nodes, found.1.lines)) =
      outcomeOf files path properties := by
  unfold Template.load loadAcross outcomeOf
  split
  · rfl
  dsimp only
  split
  · rename_i hit
    obtain ⟨key, same, cached, recent⟩ := sound.ofHit hit
    obtain ⟨source, reads, made⟩ := cached.reads same direct recent
    simp only [reads, made.parsed, made.lines, Except.map]
  · have compiled := map_compileFile files (path.absolute files.here) properties.filename
      (stampOf files (path.absolute files.here) properties.reuse) (cache.compiledFiles + 1)
    rw [← Properties.calls] at compiled
    rw [← compiled]
    split <;> rename_i outcome <;> rw [outcome] <;> rfl

end Load

/-! ## Histories -/

theorem Cache.Sound.traced {known : List Frame} {events : List Event} {cache : Cache}
    (sound : cache.Sound files called) (representable : files.Representable)
    (traced : Traced files shared known cache events) (calls : Calls files called events) :
    (cacheAfter events cache).Sound files called := by
  induction events generalizing known cache with
  | nil => exact sound
  | cons event rest ih =>
      have others : Calls files called rest := fun asked path properties outcome member =>
        calls asked path properties outcome (List.mem_cons_of_mem event member)
      cases event with
      | write template chunk => exact ih sound traced.2 others
      | load asked path properties outcome =>
          obtain ⟨⟨-, loaded⟩, traced⟩ := traced
          refine ih ?_ traced others
          cases outcome with
          | error error => exact sound
          | ok found => exact (sound.load representable (calls _ _ _ _ List.mem_cons_self) loaded.symm).1

theorem History.sound {cache : Cache} (history : History files shared called cache)
    (representable : files.Representable) : cache.Sound files called := by
  induction history with
  | start => exact Cache.sound_empty
  | @load run path properties _ name sound =>
      rw [loadFile_apply]
      cases loaded : Template.load files run.cache path properties with
      | error error => exact sound
      | ok found => exact (sound.load representable name loaded).1
  | @evaluateFile run depth path properties _ calls sound =>
      rw [evalFile_eq, Course.run, cache_happen]
      exact sound.traced representable
        ((traced_ofFile files shared depth path properties run.cache []).ofPrefix
          (happened_isPrefix run.output _)) calls
  | @evaluate run depth contextAlive template properties _ calls sound =>
      rw [evalCompiled_eq, Course.run, cache_happen]
      exact sound.traced representable
        ((traced_ofCompiled files shared depth contextAlive template properties run.cache).ofPrefix
          (happened_isPrefix run.output _)) calls

/-! ## Evaluations that differ in their caches -/

/-- Templates of one file that differ at most in what errors call it. -/
structure Compiled.Namesakes (called : Path → String → Prop) (template other : Compiled) : Prop where
  nodes : template.nodes = other.nodes
  lines : template.lines = other.lines
  same : template.path.same other.path
  grounded : template.Grounded
  grounded' : other.Grounded
  named : called template.path template.filename
  named' : called other.path other.filename

theorem Compiled.Namesakes.renamed {template other : Compiled} (namesakes : template.Namesakes called other)
    (position : Nat) (problem : RuntimeProblem) :
    (template.error position problem).Renamed called (other.error position problem) := by
  rw [Compiled.error, Compiled.error, namesakes.lines]
  exact .runtime namesakes.same namesakes.named namesakes.named' _ problem

/-- Evaluations that begin with different caches, both of them sound. Their bindings are those of twins. -/
def transparency (files : FileSystem) (shared : Shared) (called : Path → String → Prop) (reuse : Bool) :
    Likeness shared shared :=
  { twinLikeness files {} shared with
    Templates := Compiled.Namesakes called
    Errors := Error.Renamed called
    Paths path path' := path = path' ∧ (reuse = true → Direct files path)
    Caches cache cache' := cache.Sound files called ∧ cache'.Sound files called
    reuse
    nodes namesakes := namesakes.nodes
    resolved namesakes target :=
      ⟨namesakes.grounded.resolve_eq namesakes.grounded' namesakes.same target,
        fun _ => direct_of_tidy (namesakes.grounded.tidy target)⟩
    failed namesakes := namesakes.renamed
    tooDeep := .same .tooDeep }

variable {reuse : Bool}

/-- Sound caches give namesakes for a file, or fail alike. -/
theorem loads_transparently (representable : files.Representable) {path path' : Path} {cache cache' : Cache}
    {properties properties' : Properties} (paths : (transparency files shared called reuse).Paths path path')
    (caches : (transparency files shared called reuse).Caches cache cache')
    (said : (transparency files shared called reuse).Properties properties properties')
    (name : called (path.absolute files.here) (properties.calls (path.absolute files.here))) :
    (transparency files shared called reuse).Loads (load files cache path properties)
      (load files cache' path' properties') := by
  obtain ⟨rfl, direct⟩ := paths
  obtain ⟨sound, sound'⟩ := caches
  have name' : called (path.absolute files.here) (properties'.calls (path.absolute files.here)) := by
    rwa [Properties.calls, ← said.filename]
  have same : outcomeOf files path properties = outcomeOf files path properties' := by
    simp only [outcomeOf, Properties.calls, said.filename]
  have first : (load files cache path properties).map (fun found => (found.1.nodes, found.1.lines)) =
      outcomeOf files path properties :=
    sound.map_load fun reused => direct (said.reuse.symm.trans reused)
  have second : (load files cache' path properties').map (fun found => (found.1.nodes, found.1.lines)) =
      outcomeOf files path properties' :=
    sound'.map_load fun reused => direct (said.reuse'.symm.trans reused)
  rw [← same, ← first] at second
  cases loaded : load files cache path properties with
  | error error =>
      rw [loaded] at second
      cases loaded' : load files cache' path properties' with
      | ok found' => rw [loaded'] at second; cases second
      | error error' =>
          rw [loaded'] at second
          cases second
          exact .error (.same error)
  | ok found =>
      obtain ⟨template, after⟩ := found
      rw [loaded] at second
      cases loaded' : load files cache' path properties' with
      | error error' => rw [loaded'] at second; cases second
      | ok found' =>
          obtain ⟨template', after'⟩ := found'
          rw [loaded'] at second
          simp only [Except.map, Except.ok.injEq, Prod.mk.injEq] at second
          obtain ⟨sound, key, spelled, cached⟩ := sound.load representable name loaded
          obtain ⟨sound', key', spelled', cached'⟩ := sound'.load representable name' loaded'
          refine .ok ⟨second.1.symm, second.2.symm, ?_, cached.grounded, cached'.grounded, ?_, ?_⟩
            ⟨sound, sound'⟩
          · rw [cached.path, cached'.path, Path.same_iff, Path.same_iff.mp spelled, Path.same_iff.mp spelled']
          · rw [cached.path]
            exact cached.named
          · rw [cached'.path]
            exact cached'.named

/-! ## Included files -/

/-- The courses of files that nobody gives a name. -/
def unnamed (courses : Path → Properties → Cache → Course) (path : Path) (properties : Properties)
    (cache : Cache) : Course :=
  courses path { properties with filename := none } cache

/-- Included files are given no name. -/
theorem ofFrame_unnamed (frame : Frame) (courses : Path → Properties → Cache → Course) (cache : Cache) :
    Course.ofFrame frame (unnamed courses) cache = Course.ofFrame frame courses cache := by
  unfold Course.ofFrame
  induction frame.script.requests generalizing cache with
  | nil => rfl
  | cons request rest ih =>
      cases request with
      | write chunk => rw [Course.ofRequests, Course.ofRequests, ih]
      | embed position target bindings =>
          rw [Course.ofRequests, Course.ofRequests]
          simp only [ih]
          rfl

/-- Whether the events ask for files that are given no name. -/
def Unnamed (events : List Event) : Prop :=
  ∀ asked path properties outcome, .load asked path properties outcome ∈ events → properties.filename = none

theorem unnamed_append {first rest : List Event} (unnamed : Unnamed first) (unnamed' : Unnamed rest) :
    Unnamed (first ++ rest) := fun asked path properties outcome member =>
  (List.mem_append.mp member).elim (unnamed asked path properties outcome) (unnamed' asked path properties outcome)

theorem unnamed_ofFrame {frame : Frame} {courses : Path → Properties → Cache → Course}
    (included : ∀ path properties cache, properties.filename = none →
      Unnamed (courses path properties cache).events) (cache : Cache) :
    Unnamed (Course.ofFrame frame courses cache).events := by
  unfold Course.ofFrame
  induction frame.script.requests generalizing cache with
  | nil => simp [Unnamed, Course.ofRequests]
  | cons request rest ih =>
      cases request with
      | write chunk =>
          rw [Course.ofRequests]
          have written : Unnamed [.write frame.template chunk] := by simp [Unnamed]
          exact unnamed_append written (ih cache)
      | embed position target bindings =>
          rw [Course.ofRequests]
          split
          · simp [Unnamed]
          dsimp only
          split
          · exact unnamed_append (included _ _ _ rfl) (ih _)
          · exact included _ _ _ rfl

theorem unnamed_ofFile (depth : Nat) (path : Path) (properties : Properties) (cache : Cache)
    (nameless : properties.filename = none) :
    Unnamed (Course.ofFile files shared depth path properties cache).events := by
  induction depth generalizing path properties cache with
  | zero => simp [Unnamed, Course.ofFile]
  | succ depth ih =>
      have asked (outcome : Except Error (Compiled × Cache)) :
          Unnamed [.load cache path properties outcome] := by
        rintro _ _ _ _ (_ | ⟨-, member⟩)
        · exact nameless
        · cases member
      rw [Course.ofFile]
      cases load files cache path properties with
      | error error => exact asked _
      | ok found =>
          exact unnamed_append (asked _)
            (unnamed_ofFrame (fun path properties cache => ih path properties cache) found.2)

theorem calls_iff_asksFor {events : List Event} (nameless : Unnamed events) :
    Calls files called events ↔
      AsksFor (fun path => called (path.absolute files.here) (path.absolute files.here).text) events := by
  have plainly asked path properties outcome (member : Event.load asked path properties outcome ∈ events) :
      properties.calls (path.absolute files.here) = (path.absolute files.here).text := by
    rw [Properties.calls, nameless asked path properties outcome member]
    rfl
  constructor
  · intro calls asked path properties outcome member
    rw [← plainly asked path properties outcome member]
    exact calls asked path properties outcome member
  · intro asks asked path properties outcome member
    rw [plainly asked path properties outcome member]
    exact asks asked path properties outcome member

/-- A file is evaluated alike with any sound caches. -/
theorem courses_transparently (representable : files.Representable) (depth : Nat) (path path' : Path)
    (properties properties' : Properties) (cache cache' : Cache)
    (paths : (transparency files shared called reuse).Paths path path')
    (said : (transparency files shared called reuse).Properties properties properties')
    (caches : (transparency files shared called reuse).Caches cache cache')
    (calls : Calls files called (Course.ofFile files shared depth path properties cache).events) :
    (transparency files shared called reuse).Courses (Course.ofFile files shared depth path properties cache)
      (Course.ofFile files shared depth path' properties' cache') := by
  induction depth generalizing path path' properties properties' cache cache' with
  | zero => exact ⟨.nil, .error (.same .tooDeep)⟩
  | succ depth ih =>
      rw [Course.ofFile] at calls
      rw [Course.ofFile, Course.ofFile]
      have name : called (path.absolute files.here) (properties.calls (path.absolute files.here)) := by
        apply calls cache path properties (load files cache path properties)
        cases load files cache path properties with
        | error error => exact List.mem_singleton_self _
        | ok found => exact List.mem_cons_self
      have loads := loads_transparently representable paths caches said name
      generalize load files cache path properties = outcome at calls loads ⊢
      generalize load files cache' path' properties' = outcome' at loads ⊢
      have same := Likeness.Events.load cache cache' paths said loads
      cases loads with
      | error errors => exact ⟨.cons same .nil, .error errors⟩
      | @ok template template' after after' templates caches =>
          have frames : (transparency files shared called reuse).Frames ⟨template, properties, shared, true⟩
              ⟨template', properties', shared, true⟩ := ⟨templates, said, rfl, rfl, rfl⟩
          dsimp only at calls ⊢
          rw [← ofFrame_unnamed, ← ofFrame_unnamed _ _ after']
          have nameless : Unnamed (Course.ofFrame ⟨template, properties, shared, true⟩
              (unnamed (Course.ofFile files shared depth)) after).events :=
            unnamed_ofFrame (fun path properties cache nameless => unnamed_ofFile _ _ _ _ rfl) after
          have nested : Calls files called (Course.ofFrame ⟨template, properties, shared, true⟩
              (unnamed (Course.ofFile files shared depth)) after).events := by
            intro asked path properties outcome member
            rw [ofFrame_unnamed] at member
            exact calls asked path properties outcome (List.mem_cons_of_mem _ member)
          refine (Likeness.courses_ofFrame ?_ frames caches ((calls_iff_asksFor nameless).mp nested)).after
            (.cons same .nil)
          intro path path' properties properties' cache cache' paths said caches asks
          exact ih path path' _ _ cache cache' paths ⟨said.bindings, rfl, said.reuse, said.reuse'⟩ caches
            ((calls_iff_asksFor (unnamed_ofFile depth path _ cache rfl)).mpr asks)

/-- Courses that are alike take place alike, whatever the sink takes. -/
theorem run_transparently {course course' : Course}
    (alike : (transparency files shared called reuse).Courses course course') {run run' : Run}
    (same : run.output = run'.output) :
    (course.run run).2.output = (course'.run run').2.output ∧
      Ended called (course.run run).1 (course'.run run').1 := by
  obtain ⟨events, result⟩ := course
  obtain ⟨events', result'⟩ := course'
  obtain ⟨alike, ends⟩ := alike
  dsimp only at alike ends
  change (happen result events run).2.output = (happen result' events' run').2.output ∧
    Ended called (happen result events run).1 (happen result' events' run').1
  induction alike generalizing run run' with
  | nil =>
      refine ⟨same, ?_⟩
      cases ends with
      | ok value => exact .ok
      | error renamed => exact .error renamed
  | cons event _ ih =>
      cases event with
      | write templates chunk =>
          simp only [happen, ← same]
          cases run.output.write? chunk.text with
          | none => exact ⟨same, .error (.refused templates.same templates.named templates.named')⟩
          | some output => exact ih rfl
      | load asked asked' paths said loads => exact ih same

/-- A cache shows in nothing but names of files in errors. Where everybody calls a file the same, it does
not show at all. -/
theorem cache_shows_in_names_only {cache : Cache} (representable : files.Representable)
    (history : History files shared called cache) (depth : Nat) (path : Path) (properties : Properties)
    (direct : properties.reuse = true → Direct files path) (run : Run)
    (calls : Calls files called (Course.ofFile files shared depth path properties {}).events) :
    let evaluation := evalFile files shared depth path properties
    let fresh := evaluation.run.run { run with cache := {} }
    let later := evaluation.run.run { run with cache }
    fresh.2.output = later.2.output ∧ Ended called fresh.1 later.1 ∧
      ((∀ key key' name name', key.same key' → called key name → called key' name' → name = name') →
        fresh.1 = later.1) := by
  intro evaluation fresh later
  have courses : (transparency files shared called properties.reuse).Courses
      (Course.ofFile files shared depth path properties {}) (Course.ofFile files shared depth path properties cache) :=
    courses_transparently representable depth path path properties properties {} cache ⟨rfl, direct⟩
      ⟨rfl, rfl, rfl, rfl⟩ ⟨Cache.sound_empty, history.sound representable⟩ calls
  have ran (run : Run) : evaluation.run.run run =
      (Course.ofFile files shared depth path properties run.cache).run run :=
    evalFile_eq files shared depth path properties run
  have fresh_eq : fresh = _ := ran { run with cache := {} }
  have later_eq : later = _ := ran { run with cache }
  have same : ({ run with cache := {} } : Run).output = { run with cache }.output := rfl
  obtain ⟨writes, ended⟩ := run_transparently courses same
  rw [fresh_eq, later_eq]
  exact ⟨writes, ended, ended.eq⟩

/-! ## A file that fails -/

section Sample

/-- Nothing but one file `/t`, which reads a variable that nobody sets. -/
def missingFiles : FileSystem := sampleFiles "A<?= missing ?>" 5

/-- The cache after `/t` was evaluated once under the name of its path, and the one after it was evaluated
under another name. -/
def plainCache : Cache := ((evalFile missingFiles .standard 1 ⟨"/t"⟩ {}).run.run {}).2.cache

def namedCache : Cache :=
  ((evalFile missingFiles .standard 1 ⟨"/t"⟩ { filename := some "x" }).run.run {}).2.cache

theorem missingFiles_representable : missingFiles.Representable :=
  sampleFiles_representable _ (by decide)

theorem history_namedCache : History missingFiles .standard (fun _ _ => True) namedCache :=
  @History.evaluateFile _ _ _ {} 1 ⟨"/t"⟩ { filename := some "x" } .start fun _ _ _ _ _ => trivial

/-- Nobody calls the file anything but its path. -/
theorem calls_missingFiles :
    Calls missingFiles (fun key name => name = key.plain.text)
      (Course.ofFile missingFiles .standard 1 ⟨"/t"⟩ {} {}).events := by
  have asked : ((Course.ofFile missingFiles .standard 1 ⟨"/t"⟩ {} {}).events.filterMap Event.asked?) =
      [⟨"/t"⟩] := by
    decide +kernel
  refine (calls_iff_asksFor (unnamed_ofFile 1 _ _ _ rfl)).mpr (asksFor_of_asked? ?_)
  rw [asked]
  decide

theorem history_plainCache :
    History missingFiles .standard (fun key name => name = key.plain.text) plainCache := by
  refine @History.evaluateFile _ _ _ {} 1 ⟨"/t"⟩ {} .start fun asked path properties outcome member => ?_
  exact calls_missingFiles _ _ _ _ ((happened_isPrefix _ _).subset member)

theorem cache_shows_in_names_only_missing :
    let evaluation := evalFile missingFiles .standard 1 ⟨"/t"⟩ {}
    let fresh := evaluation.run.run {}
    let named := evaluation.run.run { cache := namedCache }
    let plain := evaluation.run.run { cache := plainCache }
    missingFiles.Representable ∧ History missingFiles .standard (fun _ _ => True) namedCache ∧
      History missingFiles .standard (fun key name => name = key.plain.text) plainCache ∧
      fresh.2.output = named.2.output ∧ Ended (fun _ _ => True) fresh.1 named.1 ∧
      fresh.2.output = plain.2.output ∧ fresh.1 = plain.1 := by
  obtain ⟨writes, ended, -⟩ := cache_shows_in_names_only missingFiles_representable history_namedCache 1
    ⟨"/t"⟩ {} nofun {} fun _ _ _ _ _ => trivial
  obtain ⟨writes', -, same⟩ := cache_shows_in_names_only missingFiles_representable history_plainCache 1
    ⟨"/t"⟩ {} nofun {} calls_missingFiles
  have one (key key' : Path) (name name' : String) (paths : key.same key') (called : name = key.plain.text)
      (called' : name' = key'.plain.text) : name = name' := by
    rw [called, called', Path.plain_eq_of_same paths]
  exact ⟨missingFiles_representable, history_namedCache, history_plainCache, writes, ended, writes', same one⟩

/-- The name of the first caller stays: without a cache the error names the path, with the cache that another
caller left behind it has the name which that caller gave the file. -/
theorem name_of_first_caller_stays :
    let message cache := (textOf (evalFile missingFiles .standard 1 ⟨"/t"⟩ {}) cache).1.mapError Error.message
    History missingFiles .standard (fun _ _ => True) namedCache ∧
      message {} = .error "/t:1:6: \x60missing\x60 is not defined" ∧
      message namedCache = .error "x:1:6: \x60missing\x60 is not defined" :=
  ⟨history_namedCache, by decide +kernel, by decide +kernel⟩

end Sample

end StaticSite.Template
