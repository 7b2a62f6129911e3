import StaticSite.Proofs.Path.Resolving
import StaticSite.Proofs.Template.Freshness
import StaticSite.Proofs.Template.Likeness
import StaticSite.Proofs.Template.Sink

/-!
What a cache answers. While the files that are asked for stay as they are, a cache gives for each of them
the template that it gave at the beginning, whatever was asked for meanwhile and by whom. The text of an
evaluation is then the same at any time, and so is what it leaves in the cache.
-/

namespace StaticSite

namespace Path

variable {p q : Path}

theorem same_iff : p.same q ↔ p.components = q.components := beq_iff_eq

theorem same_absolute (tidy : p.Tidy) (here : Path) : (p.absolute here).same p :=
  same_iff.mpr (components_of_tidy tidy here)

end Path

namespace Template

open Json (Fields)

variable {fs files : FileSystem} {cache start after : Cache} {path other : Path} {properties : Properties}
  {template found : Compiled} {keys : List Path}

namespace Cache

theorem get?_of_same (same : path.same other) (cache : Cache) : cache.get? path = cache.get? other := by
  have alike (key : Path) : key.same path = key.same other := by
    rw [Path.same, Path.same, Path.same_iff.mp same]
  simp only [get?, alike]

theorem get?_put (cache : Cache) (path : Path) (template : Compiled) (other : Path) :
    (cache.put path template).get? other =
      if path.same other then some template else cache.get? other := by
  rw [put, get?, List.find?_cons]
  cases same : path.same other with
  | true => rfl
  | false =>
      have kept (entry : Path × Compiled) (hit : entry.1.same other) : entry.1.same path = false := by
        rw [← Bool.not_eq_true, Path.same_iff, Path.same_iff.mp hit]
        exact fun equal => Bool.false_ne_true (same.symm.trans (Path.same_iff.mpr equal.symm))
      rw [if_neg Bool.false_ne_true, List.find?_filter]
      refine congrArg (Option.map _) (congrArg (List.find? · cache.entries) ?_)
      funext entry
      cases hit : entry.1.same other with
      | false => simp
      | true => simp [kept entry hit]

end Cache

/-! ## Templates of one file -/

/-- Templates of one file differ at most in how its path is spelled, and so in what errors call it. -/
structure Compiled.Twins (template other : Compiled) : Prop where
  nodes : template.nodes = other.nodes
  lines : template.lines = other.lines
  stamp : template.stamp = other.stamp
  same : template.path.same other.path

/-- Relative includes of a template can start from the directory of its file. -/
def Compiled.Grounded (template : Compiled) : Prop := template.path.isAbsolute ∧ template.path.names ≠ []

namespace Compiled

theorem Twins.refl (template : Compiled) : template.Twins template := ⟨rfl, rfl, rfl, beq_self_eq_true _⟩

theorem Twins.symm {other : Compiled} (twins : template.Twins other) : other.Twins template :=
  ⟨twins.nodes.symm, twins.lines.symm, twins.stamp.symm, Path.same_iff.mpr (Path.same_iff.mp twins.same).symm⟩

theorem Twins.trans {second third : Compiled} (twins : template.Twins second) (others : second.Twins third) :
    template.Twins third :=
  ⟨twins.nodes.trans others.nodes, twins.lines.trans others.lines, twins.stamp.trans others.stamp,
    Path.same_iff.mpr ((Path.same_iff.mp twins.same).trans (Path.same_iff.mp others.same))⟩

theorem Grounded.directory (grounded : template.Grounded) :
    template.directory.isAbsolute ∧ template.directory.components = template.path.components.dropLast := by
  obtain ⟨above, parent, absolute, components⟩ := Path.exists_parent? grounded.1 grounded.2
  rw [Compiled.directory, parent]
  exact ⟨absolute, components⟩

theorem Grounded.tidy (grounded : template.Grounded) (target : Path) :
    (template.directory.resolve target).Tidy := by
  obtain ⟨names, plain, same⟩ := Path.exists_resolve grounded.directory.1 target
  rw [same]
  exact Path.tidy_path plain

/-- Templates of one file include the same files. -/
theorem Grounded.resolve_eq {other : Compiled} (grounded : template.Grounded) (grounded' : other.Grounded)
    (same : template.path.same other.path) (target : Path) :
    template.directory.resolve target = other.directory.resolve target := by
  refine Path.resolve_eq_of_same (Path.same_iff.mpr ?_) target
  rw [grounded.directory.2, grounded'.directory.2, Path.same_iff.mp same]

/-- Twins that include files from their directories. -/
structure Alike (template other : Compiled) : Prop extends Twins template other where
  grounded : template.Grounded
  grounded' : other.Grounded

theorem Alike.symm {other : Compiled} (alike : template.Alike other) : other.Alike template :=
  ⟨alike.toTwins.symm, alike.grounded', alike.grounded⟩

theorem Alike.trans {second third : Compiled} (alike : template.Alike second) (others : second.Alike third) :
    template.Alike third :=
  ⟨alike.toTwins.trans others.toTwins, alike.grounded, others.grounded'⟩

end Compiled

/-! ## Answers -/

/-- What a cache answers when it is asked for a file. -/
def answer (fs : FileSystem) (cache : Cache) (path : Path) : Except Error Compiled :=
  (load fs cache path {}).map (·.1)

/-- Answers that differ in their errors, or in how the path of a file is spelled. -/
inductive Agree : Except Error Compiled → Except Error Compiled → Prop
  | error (error error' : Error) : Agree (.error error) (.error error')
  | ok {template other : Compiled} (alike : template.Alike other) : Agree (.ok template) (.ok other)

/-- The file that is opened for a path is where it was, whatever that is. -/
def Stays (files fs : FileSystem) (path : Path) : Prop :=
  fs.find true (path.absolute files.here) = files.find true (path.absolute files.here)

theorem Stays.find_plain (stays : Stays files fs path) (tidy : path.Tidy) :
    fs.find true path.plain = files.find true path.plain := by
  rwa [Stays, FileSystem.find_absolute tidy, FileSystem.find_absolute tidy] at stays

theorem stampOf_tidy (tidy : path.Tidy) (fs : FileSystem) (here : Path) :
    stampOf fs (path.absolute here) false = stampOf fs path.plain false := by
  simp only [stampOf, FileSystem.modified, FileSystem.find_absolute tidy here]

theorem readText_tidy (tidy : path.Tidy) (fs : FileSystem) (here : Path) :
    fs.readText (path.absolute here) = fs.readText path.plain := by
  simp only [FileSystem.readText, FileSystem.read, FileSystem.find_absolute tidy here]

/-- A cached template that is not older than the file is used, else the file is compiled. -/
theorem load_tidy (tidy : path.Tidy) (checks : properties.reuse = false) :
    load fs cache path properties =
      match (cache.get? path).filter fun template => stampOf fs path.plain false ≤ template.stamp with
      | some template => .ok (template, cache)
      | none =>
        match compileFile fs (path.absolute fs.here) properties.filename (stampOf fs path.plain false)
            (cache.compiledFiles + 1) with
        | .ok template =>
          .ok (template,
            { cache.put (path.absolute fs.here) template with compiledFiles := cache.compiledFiles + 1 })
        | .error error => .error error := by
  have some_text : path.text.isEmpty = false := by
    obtain ⟨rest, chars⟩ := Path.exists_of_isAbsolute tidy.1
    rw [← Bool.not_eq_true, String.isEmpty_iff, ← String.toList_inj, chars]
    simp
  unfold load loadAcross
  rw [some_text, checks, if_neg Bool.false_ne_true, ← Cache.get?_of_same (Path.same_absolute tidy fs.here),
    ← stampOf_tidy tidy]
  rfl

/-- A source is compiled as a file of the name that it is given. -/
theorem path_of_compile {source filename : String} (compiled : compile source filename = .ok template) :
    template.path = ⟨filename⟩ := by
  unfold compile at compiled
  dsimp only at compiled
  split at compiled <;> cases compiled
  rfl

/-- Whether a file compiles, and to what, is a matter of its text. -/
theorem agree_compileFile {here here' : Path} (tidy : path.Tidy) (tidy' : other.Tidy)
    (same : path.same other) (reads : fs.readText path.plain = files.readText other.plain)
    (absolute : here.isAbsolute) (absolute' : here'.isAbsolute) (filename filename' : Option String)
    (stamp : Stamp) (serial serial' : Nat) :
    Agree (compileFile fs (path.absolute here) filename stamp serial)
      (compileFile files (other.absolute here') filename' stamp serial') := by
  unfold compileFile
  rw [readText_tidy tidy, readText_tidy tidy', reads]
  cases text : files.readText other.plain with
  | error error => exact .error _ _
  | ok source =>
      have grounded {fs : FileSystem} {path here : Path} (tidy : path.Tidy) (absolute : here.isAbsolute)
          (text : fs.readText path.plain = .ok source) :
          (path.absolute here).isAbsolute ∧ (path.absolute here).names ≠ [] := by
        rw [← readText_tidy tidy fs here] at text
        obtain ⟨location, content, time, finds, -⟩ := FileSystem.exists_find_of_readText text
        exact ⟨Path.isAbsolute_absolute path absolute,
          FileSystem.names_ne_nil (Path.isAbsolute_absolute path absolute) finds⟩
      dsimp only
      unfold compile
      dsimp only
      cases parse source.toList with
      | error error => exact .error _ _
      | ok nodes =>
          refine .ok ⟨⟨rfl, rfl, rfl, Path.same_iff.mpr ?_⟩, grounded tidy absolute (reads.trans text),
            grounded tidy' absolute' text⟩
          rw [Path.components_of_tidy tidy, Path.components_of_tidy tidy', Path.same_iff.mp same]

/-- How a file is loaded is a matter of its text and time, and of what is cached for it. -/
theorem agree_load {properties' : Properties} (tidy : path.Tidy) (tidy' : other.Tidy) (same : path.same other)
    (finds : fs.find true path.plain = files.find true other.plain) (known : cache.get? path = start.get? other)
    (grounded : ∀ template, start.get? other = some template → template.Grounded)
    (checks : properties.reuse = false) (checks' : properties'.reuse = false) :
    Agree ((load fs cache path properties).map (·.1)) ((load files start other properties').map (·.1)) := by
  have stamps : stampOf fs path.plain false = stampOf files other.plain false := by
    simp only [stampOf, FileSystem.modified, finds]
  have reads : fs.readText path.plain = files.readText other.plain := by
    simp only [FileSystem.readText, FileSystem.read, finds]
  have absolute (fs : FileSystem) : fs.here.isAbsolute := Path.isAbsolute_location fs.workingDirectory
  have compiled := agree_compileFile tidy tidy' same reads (absolute fs) (absolute files) properties.filename
    properties'.filename (stampOf files other.plain false) (cache.compiledFiles + 1) (start.compiledFiles + 1)
  rw [load_tidy tidy checks, load_tidy tidy' checks', known, stamps]
  cases fresh : (start.get? other).filter fun template => stampOf files other.plain false ≤ template.stamp with
  | some template =>
      have grounded := grounded template (Option.filter_eq_some_iff.mp fresh).1
      exact .ok ⟨.refl template, grounded, grounded⟩
  | none =>
      dsimp only
      generalize compileFile fs (path.absolute fs.here) _ _ _ = outcome at compiled ⊢
      generalize compileFile files (other.absolute files.here) _ _ _ = outcome' at compiled ⊢
      cases compiled with
      | error error error' => exact .error error error'
      | ok alike => exact .ok alike

/-- What is loaded is cached, and nothing else changes in the cache. -/
theorem get?_of_load (tidy : path.Tidy) (checks : properties.reuse = false)
    (loaded : load fs cache path properties = .ok (template, after)) (other : Path) :
    after.get? other = if path.same other then some template else cache.get? other := by
  rw [load_tidy tidy checks] at loaded
  cases fresh : (cache.get? path).filter fun template => stampOf fs path.plain false ≤ template.stamp with
  | some found =>
      rw [fresh] at loaded
      cases loaded
      split
      · next same => rw [← Cache.get?_of_same same, (Option.filter_eq_some_iff.mp fresh).1]
      · rfl
  | none =>
      rw [fresh] at loaded
      dsimp only at loaded
      split at loaded <;> cases loaded
      change (cache.put (path.absolute fs.here) template).get? other = _
      rw [Cache.get?_put, Path.same, Path.components_of_tidy tidy, ← Path.same]

/-- What is loaded is not older than its file. -/
theorem stamp_of_load (tidy : path.Tidy) (checks : properties.reuse = false)
    (loaded : load fs cache path properties = .ok (template, after)) :
    stampOf fs path.plain false ≤ template.stamp := by
  have cases := load_cases loaded
  dsimp only at cases
  rw [checks, stampOf_tidy tidy] at cases
  obtain ⟨-, -, recent⟩ | ⟨-, stamped, -⟩ := cases
  · exact recent
  · exact stamped.ge

/-! ## What becomes of a cache -/

/-- A cache after files were asked for: for each of them it has the template that was to be expected, and
nothing else has changed. -/
structure Filled (files : FileSystem) (start : Cache) (keys : List Path) (cache : Cache) : Prop where
  asked : ∀ key ∈ keys, key.Tidy
  cached : ∀ key ∈ keys, ∃ template found, cache.get? key = some template ∧
    answer files start key = .ok found ∧ template.Alike found
  untouched : ∀ path, (∀ key ∈ keys, ¬key.same path) → cache.get? path = start.get? path

/-- The templates of a cache come from files. -/
def Cache.Grounded (cache : Cache) : Prop :=
  ∀ path template, cache.get? path = some template → template.Grounded

theorem grounded_of_compileFile {filename : Option String} {stamp : Stamp} {serial : Nat}
    (absolute : path.isAbsolute) (compiled : compileFile fs path filename stamp serial = .ok template) :
    template.Grounded := by
  obtain ⟨source, text, -, -⟩ := compileFile_ok compiled
  obtain ⟨location, content, time, finds, -⟩ := FileSystem.exists_find_of_readText text
  have same : template.path = path := by
    unfold compileFile at compiled
    simp only [text] at compiled
    cases bare : compile source (filename.getD path.text) with
    | error error => simp [bare, bind, Except.bind] at compiled
    | ok template =>
        rw [bare] at compiled
        cases compiled
        rfl
  rw [Compiled.Grounded, same]
  exact ⟨absolute, FileSystem.names_ne_nil absolute finds⟩

/-- So it is with whatever is loaded. -/
theorem Cache.Grounded.load (grounded : cache.Grounded)
    (loaded : Template.load fs cache path properties = .ok (template, after)) : after.Grounded := by
  have absolute : (path.absolute fs.here).isAbsolute :=
    Path.isAbsolute_absolute path (Path.isAbsolute_location fs.workingDirectory)
  unfold Template.load loadAcross at loaded
  split at loaded
  · cases loaded
  dsimp only at loaded
  split at loaded
  · cases loaded
    exact grounded
  split at loaded <;> cases loaded
  next compiled =>
    intro other found known
    change (cache.put (path.absolute fs.here) template).get? other = some found at known
    rw [Cache.get?_put] at known
    split at known
    · cases known
      exact grounded_of_compileFile absolute compiled
    · exact grounded other found known

variable (grounded : start.Grounded)

theorem Filled.nil : Filled files start [] start := ⟨by simp, by simp, fun _ _ => rfl⟩

include grounded

/-- Two spellings of a path have one answer. -/
theorem agree_answer (tidy : path.Tidy) (tidy' : other.Tidy) (same : path.same other) :
    Agree (answer files start path) (answer files start other) :=
  agree_load tidy tidy' same (by rw [Path.plain_eq_of_same same]) (Cache.get?_of_same same start)
    (grounded other) rfl rfl

/-- What a cache answers does not depend on what was asked for before. -/
theorem Filled.load (filled : Filled files start keys cache) (tidy : path.Tidy)
    (stays : Stays files fs path) (checks : properties.reuse = false) :
    Agree ((Template.load fs cache path properties).map (·.1)) (answer files start path) := by
  by_cases hit : ∃ key ∈ keys, key.same path
  · obtain ⟨key, member, same⟩ := hit
    obtain ⟨template, found, known, answered, alike⟩ := filled.cached key member
    have recent : stampOf fs path.plain false ≤ template.stamp := by
      have answered := answered
      unfold answer at answered
      cases loaded : Template.load files start key {} with
      | error error => simp [loaded, Except.map] at answered
      | ok outcome =>
          obtain ⟨found', after⟩ := outcome
          rw [loaded] at answered
          cases answered
          have recent := stamp_of_load (filled.asked key member) rfl loaded
          rw [Path.plain_eq_of_same same] at recent
          rw [alike.stamp]
          simpa only [stampOf, FileSystem.modified, stays.find_plain tidy] using recent
    rw [load_tidy tidy checks, ← Cache.get?_of_same same, known, Option.filter_some,
      if_pos (by simpa using recent)]
    have agree : Agree (answer files start key) (answer files start path) :=
      agree_answer grounded (filled.asked key member) tidy same
    rw [answered] at agree
    generalize answer files start path = outcome at agree ⊢
    cases agree with
    | ok others => exact .ok (alike.trans others)
  · simp only [not_exists, not_and] at hit
    exact agree_load tidy tidy (Path.same_iff.mpr rfl) (stays.find_plain tidy) (filled.untouched path hit)
      (grounded path) checks rfl

theorem Filled.cons (filled : Filled files start keys cache) (tidy : path.Tidy)
    (checks : properties.reuse = false)
    (loaded : Template.load fs cache path properties = .ok (template, after))
    (answered : answer files start path = .ok found) (alike : template.Alike found) :
    Filled files start (path :: keys) after where
  asked := List.forall_mem_cons.mpr ⟨tidy, filled.asked⟩
  cached := by
    have get? := get?_of_load tidy checks loaded
    refine List.forall_mem_cons.mpr ⟨⟨template, found, ?_, answered, alike⟩, fun key member => ?_⟩
    · rw [get?, if_pos (Path.same_iff.mpr rfl)]
    · rw [get?]
      by_cases same : path.same key
      · have agree : Agree (answer files start path) (answer files start key) :=
          agree_answer grounded tidy (filled.asked key member) same
        rw [answered] at agree
        rw [if_pos same]
        cases spelled : answer files start key with
        | error error => rw [spelled] at agree; cases agree
        | ok other =>
            rw [spelled] at agree
            cases agree with
            | ok others => exact ⟨template, other, rfl, rfl, alike.trans others⟩
      · rw [if_neg same]
        exact filled.cached key member
  untouched other unasked := by
    obtain ⟨different, others⟩ := List.forall_mem_cons.mp unasked
    rw [get?_of_load tidy checks loaded, if_neg different, filled.untouched other others]

omit grounded in
/-- What is cached depends on what was asked for, not on the order or on who asked. -/
theorem Filled.rel {keys' : List Path} {cache' : Cache} (filled : Filled files start keys cache)
    (filled' : Filled files start keys' cache') (same : ∀ key, key ∈ keys ↔ key ∈ keys') (path : Path) :
    Option.Rel Compiled.Twins (cache.get? path) (cache'.get? path) := by
  by_cases hit : ∃ key ∈ keys, key.same path
  · obtain ⟨key, member, spelled⟩ := hit
    obtain ⟨template, found, known, answered, alike⟩ := filled.cached key member
    obtain ⟨template', found', known', answered', alike'⟩ := filled'.cached key ((same key).mp member)
    rw [answered] at answered'
    cases answered'
    rw [← Cache.get?_of_same spelled, ← Cache.get?_of_same spelled, known, known']
    exact .some (alike.trans alike'.symm).toTwins
  · simp only [not_exists, not_and] at hit
    rw [filled.untouched path hit, filled'.untouched path fun key member => hit key ((same key).mpr member)]
    cases start.get? path with
    | none => exact .none
    | some template => exact .some (.refl template)

/-! ## Evaluations -/

/-- The path by which a file is loaded. -/
def Event.loaded? : Event → Option Path
  | .write _ _ => none
  | .load _ path _ (.ok _) => some path
  | .load _ _ _ (.error _) => none

/-- The paths by which files are loaded, the latest first. -/
def loadedPaths (events : List Event) : List Path := (events.filterMap Event.loaded?).reverse

omit grounded in
theorem loadedPaths_cons (event : Event) (rest : List Event) :
    loadedPaths (event :: rest) = loadedPaths rest ++ event.loaded?.toList := by
  rw [loadedPaths, loadedPaths, List.filterMap_cons]
  cases event.loaded? <;> simp

/-- What events leave in the cache. -/
theorem Filled.events {shared : Shared} {known : List Frame} {events : List Event}
    (filled : Filled files start keys cache) (traced : Traced fs shared known cache events)
    (each : ∀ asked path properties outcome, .load asked path properties outcome ∈ events →
      path.Tidy ∧ Stays files fs path ∧ properties.reuse = false) :
    Filled files start (loadedPaths events ++ keys) (cacheAfter events cache) := by
  induction events generalizing known cache keys with
  | nil => exact filled
  | cons event rest ih =>
      have others asked path properties outcome member :=
        each asked path properties outcome (List.mem_cons_of_mem event member)
      rw [loadedPaths_cons, cacheAfter_cons, List.append_assoc]
      cases event with
      | write template chunk => exact ih filled traced.2 others
      | load asked path properties outcome =>
          obtain ⟨⟨rfl, rfl⟩, traced⟩ := traced
          obtain ⟨tidy, stays, checks⟩ := each _ _ _ _ List.mem_cons_self
          have agree := filled.load grounded tidy stays checks
          cases loaded : Template.load fs asked path properties with
          | error error =>
              rw [loaded] at traced
              exact ih filled traced others
          | ok found =>
              obtain ⟨template, after⟩ := found
              rw [loaded] at traced agree
              generalize answered : answer files start path = answered' at agree
              cases agree with
              | ok alike => exact ih (filled.cons grounded tidy checks loaded answered alike) traced others

omit grounded in
/-- Evaluations of one template at two times. -/
def twinLikeness (files : FileSystem) (start : Cache) (shared : Shared) : Likeness shared shared where
  Fields := Eq
  Templates := Compiled.Alike
  Errors _ _ := True
  Paths path path' := path = path' ∧ path.Tidy
  Caches cache cache' := (∃ keys, Filled files start keys cache) ∧ ∃ keys, Filled files start keys cache'
  reuse := false
  functions := rfl
  visible := by rintro bindings _ rfl name; rfl
  overridden := by rintro bindings _ rfl extra; rfl
  nodes alike := alike.nodes
  resolved alike target :=
    ⟨alike.grounded.resolve_eq alike.grounded' alike.same target, alike.grounded.tidy target⟩
  failed _ _ _ := trivial
  tooDeep := trivial

/-- Files that stay are loaded alike at any time. -/
theorem reads_twins (shared : Shared) :
    (twinLikeness files start shared).Reads
      (Stays files fs) files fs := by
  intro path path' cache cache' properties properties' stays paths caches said
  obtain ⟨rfl, tidy⟩ := paths
  obtain ⟨⟨keys, filled⟩, keys', filled'⟩ := caches
  have first := @Filled.load files files _ _ _ _ _ grounded filled tidy rfl said.reuse
  have second := filled'.load grounded tidy stays said.reuse'
  cases loaded : load files cache path properties with
  | error error =>
      cases loaded' : load fs cache' path properties' with
      | error error' => exact .error trivial
      | ok found =>
          rw [loaded] at first
          rw [loaded'] at second
          generalize answer files start path = answered at first second
          cases first
          cases second
  | ok found =>
      obtain ⟨template, after⟩ := found
      rw [loaded] at first
      generalize answered : answer files start path = answered' at first second
      cases first with
      | ok alike =>
          cases loaded' : load fs cache' path properties' with
          | error error => rw [loaded'] at second; cases second
          | ok found' =>
              obtain ⟨template', after'⟩ := found'
              rw [loaded'] at second
              cases second with
              | ok alike' =>
                  exact .ok (alike.trans alike'.symm)
                    ⟨⟨_, filled.cons grounded tidy said.reuse loaded answered alike⟩,
                      _, filled'.cons grounded tidy said.reuse' loaded' answered alike'⟩

section Texts

variable {shared : Shared} {cache' : Cache} {keys' : List Path} {events events' : List Event}
  {course course' : Course}

omit grounded in
/-- Events that go alike ask for the same files. -/
theorem twins_ask (alike : List.Forall₂ (twinLikeness files start shared).Events events events')
    {allowed : Path → Prop} (asks : AsksFor allowed events) :
    loadedPaths events' = loadedPaths events ∧
      (∀ asked path properties outcome, .load asked path properties outcome ∈ events →
        path.Tidy ∧ allowed path ∧ properties.reuse = false) ∧
      ∀ asked path properties outcome, .load asked path properties outcome ∈ events' →
        path.Tidy ∧ allowed path ∧ properties.reuse = false := by
  induction alike with
  | nil => exact ⟨rfl, by simp, by simp⟩
  | cons same _ ih =>
      obtain ⟨paths, first, second⟩ := ih fun asked path properties outcome member =>
        asks asked path properties outcome (List.mem_cons_of_mem _ member)
      cases same with
      | write templates chunk =>
          refine ⟨by rw [loadedPaths_cons, loadedPaths_cons, paths]; rfl, ?_, ?_⟩
          · simpa using first
          · simpa using second
      | load asked asked' spelled said loads =>
          obtain ⟨rfl, tidy⟩ := spelled
          have permitted := asks _ _ _ _ List.mem_cons_self
          refine ⟨?_, ?_, ?_⟩
          · rw [loadedPaths_cons, loadedPaths_cons, paths]
            cases loads <;> rfl
          · rintro asked path properties outcome (_ | ⟨-, member⟩)
            · exact ⟨tidy, permitted, said.reuse⟩
            · exact first _ _ _ _ member
          · rintro asked path properties outcome (_ | ⟨-, member⟩)
            · exact ⟨tidy, permitted, said.reuse'⟩
            · exact second _ _ _ _ member

omit grounded in
theorem textOf_of_run {action : EvalM Unit} (runs : action.run.run { cache } = course.run { cache }) :
    textOf action cache =
      (course.result.map fun _ => String.join (course.writes.map fun written => written.2.text),
        cacheAfter course.events cache) := by
  obtain ⟨ended, whole⟩ := happen_unlimited course.result course.events { cache } rfl
  have chunks := chunks_happen course.result course.events { cache }
  have left := cache_happen course.result course.events { cache }
  rw [whole] at chunks left
  rw [textOf, runs, Course.run]
  dsimp only
  rw [ended, left, Output.text, chunks]
  rfl

/-- An evaluation gives the same text at any time, and it leaves the same in the cache. -/
theorem textOf_twins {action action' : EvalM Unit} {known known' : List Frame}
    (runs : action.run.run { cache } = course.run { cache })
    (runs' : action'.run.run { cache := cache' } = course'.run { cache := cache' })
    (traced : Traced files shared known cache course.events)
    (traced' : Traced fs shared known' cache' course'.events)
    (alike : (twinLikeness files start shared).Courses course course')
    (filled : Filled files start keys cache) (filled' : Filled files start keys' cache')
    (asks : AsksFor (Stays files fs) course.events) :
    (textOf action' cache').1.toOption = (textOf action cache).1.toOption ∧
      Filled files start (loadedPaths course.events ++ keys) (textOf action cache).2 ∧
      Filled files start (loadedPaths course.events ++ keys') (textOf action' cache').2 := by
  obtain ⟨paths, first, second⟩ := twins_ask alike.events asks
  have writes : course'.writes.map (·.2) = course.writes.map (·.2) := by
    have events := alike.events
    unfold Course.writes
    generalize course.events = events, course'.events = events' at events ⊢
    induction events with
    | nil => rfl
    | cons same _ ih =>
        cases same with
        | write templates chunk => exact congrArg (chunk :: ·) ih
        | load => exact ih
  rw [textOf_of_run runs, textOf_of_run runs']
  refine ⟨?_, ?_, ?_⟩
  · have ends := alike.result
    have texts := congrArg (List.map Chunk.text) writes
    rw [List.map_map, List.map_map] at texts
    dsimp only [Function.comp_def] at texts ⊢
    rw [texts]
    generalize course.result = result, course'.result = result' at ends ⊢
    cases ends <;> rfl
  · exact filled.events grounded traced fun asked path properties outcome member =>
      ⟨(first _ _ _ _ member).1, rfl, (first _ _ _ _ member).2.2⟩
  · rw [← paths]
    exact filled'.events grounded traced' second

variable (shared) (filled : Filled files start keys cache) (filled' : Filled files start keys' cache')
  (depth : Nat) (bindings : Fields)

include filled filled'

theorem textOf_evalFile (tidy : path.Tidy)
    (asks : AsksFor (Stays files fs)
      (Course.ofFile files shared depth path { bindings } cache).events) :
    let course := Course.ofFile files shared depth path { bindings } cache
    let before := textOf (evalFile files shared depth path { bindings }) cache
    let later := textOf (evalFile fs shared depth path { bindings }) cache'
    later.1.toOption = before.1.toOption ∧ Filled files start (loadedPaths course.events ++ keys) before.2 ∧
      Filled files start (loadedPaths course.events ++ keys') later.2 :=
  textOf_twins grounded (evalFile_eq files shared depth path { bindings } { cache })
    (evalFile_eq fs shared depth path { bindings } { cache := cache' })
    (traced_ofFile files shared depth path { bindings } cache [])
    (traced_ofFile fs shared depth path { bindings } cache' [])
    ((twinLikeness files start shared).courses_ofFile (reads_twins grounded shared) depth path path
      { bindings } { bindings } cache cache' ⟨rfl, tidy⟩ ⟨rfl, rfl, rfl, rfl⟩
      ⟨⟨keys, filled⟩, keys', filled'⟩ asks) filled filled' asks

theorem textOf_evalCompiled (contextAlive : Bool) (template_grounded : template.Grounded)
    (asks : AsksFor (Stays files fs)
      (Course.ofCompiled files shared depth contextAlive template { bindings } cache).events) :
    let course := Course.ofCompiled files shared depth contextAlive template { bindings } cache
    let before := textOf (evalCompiled files shared depth contextAlive template { bindings }) cache
    let later := textOf (evalCompiled fs shared depth contextAlive template { bindings }) cache'
    later.1.toOption = before.1.toOption ∧ Filled files start (loadedPaths course.events ++ keys) before.2 ∧
      Filled files start (loadedPaths course.events ++ keys') later.2 :=
  textOf_twins grounded (evalCompiled_eq files shared depth contextAlive template { bindings } { cache })
    (evalCompiled_eq fs shared depth contextAlive template { bindings } { cache := cache' })
    (traced_ofCompiled files shared depth contextAlive template { bindings } cache)
    (traced_ofCompiled fs shared depth contextAlive template { bindings } cache')
    ((twinLikeness files start shared).courses_ofCompiled (reads_twins grounded shared) depth contextAlive
      ⟨.refl template, template_grounded, template_grounded⟩ ⟨rfl, rfl, rfl, rfl⟩
      ⟨⟨keys, filled⟩, keys', filled'⟩ asks) filled filled' asks

end Texts

end Template

end StaticSite
