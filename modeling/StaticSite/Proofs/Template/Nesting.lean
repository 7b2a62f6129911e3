import Mathlib
import StaticSite.Proofs.Template.Diagnostics
import StaticSite.Proofs.Template.Sink

/-!
How deep includes nest. Where the files that a file includes have a lower rank than the file itself, an
evaluation ends, and there are no more files within each other than the rank of the first one.
-/

namespace StaticSite.Template

open Json (Fields)

/-! ## Bounds that are never met -/

theorem Frame.script_ne_tooDeep (frame : Frame) : frame.script.result ≠ .error .tooDeep := by
  let positions := Node.positionsOfAll frame.template.nodes
  have atTokens : AtTokens (positions.map (⟨.symbol .comma, ·⟩)) positions := fun position member =>
    ⟨_, List.mem_map_of_mem member, rfl⟩
  intro failed
  obtain ⟨placed, -, problem, same⟩ := (Frame.located_script atTokens).2 _ failed
  cases same

theorem load_ne_tooDeep {fs : FileSystem} {cache : Cache} {path : Path} {properties : Properties} :
    load fs cache path properties ≠ .error .tooDeep := by
  intro failed
  unfold load loadAcross at failed
  split at failed
  · cases failed
  dsimp only at failed
  split at failed
  · cases failed
  split at failed
  · cases failed
  · rename_i error compiled
    cases failed
    unfold compileFile at compiled
    split at compiled
    · cases compiled
    · rcases bind_eq_error.mp compiled with compiled | ⟨_, _, done⟩
      · unfold compile at compiled
        dsimp only at compiled
        split at compiled <;> cases compiled
      · cases done

theorem run_ne_tooDeep {course : Course} (shallow : course.result ≠ .error .tooDeep) (run : Run) :
    (course.run run).1 ≠ .error .tooDeep := by
  obtain ⟨events, result⟩ := course
  rw [Course.run]
  dsimp only at shallow ⊢
  induction events generalizing run with
  | nil => exact shallow
  | cons event events ih =>
      cases event with
      | load cache path properties outcome => exact ih _
      | write template chunk =>
          rw [happen]
          cases run.output.write? chunk.text with
          | none => exact fun failed => by cases failed
          | some output => exact ih _

/-- A file that is included and comes to its end. -/
theorem ofRequests_included {frame : Frame} (alive : frame.contextAlive = true)
    {courses : Path → Properties → Cache → Course} {position : Nat} {target : String} {bindings : Fields}
    {cache : Cache} {course : Course}
    (included : courses (frame.template.directory.resolve ⟨target⟩)
      { frame.properties with bindings, filename := none } cache = course)
    (completed : course.result = .ok ()) (result : Except Error Unit) (rest : List Request) :
    Course.ofRequests frame courses result (.embed position target bindings :: rest) cache =
      (Course.ofRequests frame courses result rest (cacheAfter course.events cache)).after course.events := by
  rw [Course.ofRequests, alive]
  simp only [Bool.not_true, Bool.false_eq_true, if_false, included, completed]

theorem ofRequests_failed {frame : Frame} (alive : frame.contextAlive = true)
    {courses : Path → Properties → Cache → Course} {position : Nat} {target : String} {bindings : Fields}
    {cache : Cache} {course : Course}
    (included : courses (frame.template.directory.resolve ⟨target⟩)
      { frame.properties with bindings, filename := none } cache = course)
    {error : Error} (failed : course.result = .error error) (result : Except Error Unit) (rest : List Request) :
    Course.ofRequests frame courses result (.embed position target bindings :: rest) cache = course := by
  rw [Course.ofRequests, alive]
  simp only [Bool.not_true, Bool.false_eq_true, if_false, included, failed]

theorem cacheAfter_append (first rest : List Event) (cache : Cache) :
    cacheAfter (first ++ rest) cache = cacheAfter rest (cacheAfter first cache) := List.foldl_append

/-- The courses of files that a template asks for matter only where it gets as far as asking for them. -/
theorem ofRequests_settled {frame : Frame} (alive : frame.contextAlive = true)
    {courses courses' : Path → Properties → Cache → Course} {result : Except Error Unit}
    (shallow : result ≠ .error .tooDeep) (requests : List Request) (cache : Cache)
    (settled : ∀ before position target bindings rest,
      requests = before ++ .embed position target bindings :: rest →
      (Course.ofRequests frame courses (.ok ()) before cache).result = .ok () →
      let path := frame.template.directory.resolve ⟨target⟩
      let including := { frame.properties with bindings, filename := none }
      let left := cacheAfter (Course.ofRequests frame courses (.ok ()) before cache).events cache
      courses' path including left = courses path including left ∧
        (courses path including left).result ≠ .error .tooDeep) :
    Course.ofRequests frame courses' result requests cache = Course.ofRequests frame courses result requests cache ∧
      (Course.ofRequests frame courses result requests cache).result ≠ .error .tooDeep := by
  induction requests generalizing cache with
  | nil => exact ⟨rfl, shallow⟩
  | cons request requests ih =>
      cases request with
      | write chunk =>
          obtain ⟨same, ends⟩ := ih cache fun before position target bindings rest split completed =>
            settled (.write chunk :: before) position target bindings rest (by rw [split]; rfl) completed
          rw [Course.ofRequests, Course.ofRequests, same]
          exact ⟨rfl, ends⟩
      | embed position target bindings =>
          let path := frame.template.directory.resolve ⟨target⟩
          let including := { frame.properties with bindings, filename := none }
          obtain ⟨same, ends⟩ : courses' path including cache = courses path including cache ∧
              (courses path including cache).result ≠ .error .tooDeep :=
            settled [] position target bindings requests rfl rfl
          cases completed : (courses path including cache).result with
          | error error =>
              rw [ofRequests_failed alive same completed, ofRequests_failed alive rfl completed]
              exact ⟨rfl, ends⟩
          | ok value =>
              have after (rest : List Request) : Course.ofRequests frame courses (.ok ())
                  (.embed position target bindings :: rest) cache = _ :=
                ofRequests_included alive rfl completed (.ok ()) rest
              obtain ⟨others, ends⟩ := ih (cacheAfter _ cache) fun before position' target' bindings' rest split done => by
                have found := settled (.embed position target bindings :: before) position' target' bindings' rest
                  (by rw [split]; rfl) (by rw [after]; exact done)
                rw [after] at found
                dsimp only [Course.after] at found
                rw [cacheAfter_append] at found
                exact found
              rw [ofRequests_included alive same completed, ofRequests_included alive rfl completed, others]
              exact ⟨rfl, ends⟩

/-! ## Files within each other -/

/-- A file that is evaluated, with the cache as it is by then. -/
structure Visit where
  path : Path
  properties : Properties
  cache : Cache

section Visits

variable (fs : FileSystem) (shared : Shared)

def Visit.load (visit : Visit) : Except Error (Compiled × Cache) :=
  Template.load fs visit.cache visit.path visit.properties

def Visit.course (visit : Visit) (depth : Nat) : Course :=
  Course.ofFile fs shared depth visit.path visit.properties visit.cache

/-- An `include` is executed while a file is evaluated: the template of the file asks for it, and all that the
template asks for before comes to its end. -/
def Visit.Includes (visit included : Visit) : Prop :=
  ∃ template cache before position target bindings rest depth,
    let frame : Frame := { template, properties := visit.properties, shared, contextAlive := true }
    let course := Course.ofRequests frame (Course.ofFile fs shared depth) (.ok ()) before cache
    visit.load fs = .ok (template, cache) ∧
      frame.script.requests = before ++ .embed position target bindings :: rest ∧ course.result = .ok () ∧
      included = {
        path := template.directory.resolve ⟨target⟩
        properties := { visit.properties with bindings, filename := none }
        cache := cacheAfter course.events cache }

/-- The files that are evaluated with a number of includes around them, from a first one on. -/
inductive Nested (first : Visit) : Nat → Visit → Prop
  | first : Nested first 0 first
  | within {depth : Nat} {visit included : Visit} (nested : Nested first depth visit)
      (includes : visit.Includes fs shared included) (loads : ∃ found, included.load fs = .ok found) :
      Nested first (depth + 1) included

/-- Whether all files that are included have a lower rank than the file that includes them, unless they cannot be
loaded. -/
def Ranked (rank : Path → Nat) (first : Visit) : Prop :=
  ∀ depth visit included, Nested fs shared first depth visit → visit.Includes fs shared included →
    (∃ error, included.load fs = .error error) ∨ rank included.path < rank visit.path

end Visits

section Ranks

variable {fs : FileSystem} {shared : Shared} {rank : Path → Nat} {first visit included : Visit}

theorem Nested.trans {depth more : Nat} (nested : Nested fs shared first depth visit)
    (others : Nested fs shared visit more included) : Nested fs shared first (depth + more) included := by
  induction others with
  | first => exact nested
  | within _ includes loads ih => exact .within ih includes loads

theorem Ranked.within {depth : Nat} (ranked : Ranked fs shared rank first)
    (nested : Nested fs shared first depth visit) : Ranked fs shared rank visit :=
  fun more _ _ others includes => ranked (depth + more) _ _ (nested.trans others) includes

/-- Each include around a file takes one off the rank. -/
theorem Ranked.add_le {depth : Nat} (ranked : Ranked fs shared rank first)
    (nested : Nested fs shared first depth visit) : depth + rank visit.path ≤ rank first.path := by
  induction nested with
  | first => simp
  | within nested includes loads ih =>
      obtain ⟨found, loaded⟩ := loads
      obtain ⟨error, failed⟩ | lower := ranked _ _ _ nested includes
      · rw [loaded] at failed
        cases failed
      · omega

/-- A file that is missing cannot be loaded, unless a template of it is kept and used. -/
theorem load_of_missing {error : IoError}
    (missing : fs.readText (visit.path.absolute fs.here) = .error error)
    (unused : visit.cache.fresh? (visit.path.absolute fs.here)
      (stampOf fs (visit.path.absolute fs.here) visit.properties.reuse) = none) :
    ∃ error, visit.load fs = .error error := by
  rw [Visit.load, Template.load, loadAcross]
  split
  · exact ⟨_, rfl⟩
  · simp only [unused, compileFile, missing]
    exact ⟨_, rfl⟩

/-- A file that cannot be loaded ends an evaluation within any bound. -/
theorem settled_of_error {error : Error} (failed : visit.load fs = .error error) (depth extra : Nat) :
    visit.course fs shared (depth + 1 + extra) = visit.course fs shared (depth + 1) ∧
      (visit.course fs shared (depth + 1)).result ≠ .error .tooDeep := by
  have failed : load fs visit.cache visit.path visit.properties = .error error := failed
  have ends (depth : Nat) : visit.course fs shared (depth + 1) =
      ⟨[.load visit.cache visit.path visit.properties (.error error)], .error error⟩ := by
    rw [Visit.course, Course.ofFile, failed]
  rw [Nat.add_right_comm, ends, ends]
  refine ⟨rfl, fun ended => ?_⟩
  cases ended
  exact load_ne_tooDeep failed

/-- A bound is enough for a file if one less is enough for all that it includes. -/
theorem course_settled {depth extra : Nat}
    (inner : ∀ included, first.Includes fs shared included →
      included.course fs shared (depth + extra) = included.course fs shared depth ∧
        (included.course fs shared depth).result ≠ .error .tooDeep) :
    first.course fs shared (depth + 1 + extra) = first.course fs shared (depth + 1) ∧
      (first.course fs shared (depth + 1)).result ≠ .error .tooDeep := by
  cases loaded : first.load fs with
  | error error => exact settled_of_error loaded depth extra
  | ok found =>
      obtain ⟨template, cache⟩ := found
      let frame : Frame := { template, properties := first.properties, shared, contextAlive := true }
      have course (depth : Nat) : first.course fs shared (depth + 1) =
          (Course.ofFrame frame (Course.ofFile fs shared depth) cache).after
            [.load first.cache first.path first.properties (.ok (template, cache))] := by
        have loaded : load fs first.cache first.path first.properties = .ok (template, cache) := loaded
        rw [Visit.course, Course.ofFile, loaded]
      have alive : frame.contextAlive = true := rfl
      obtain ⟨same, ends⟩ :
          Course.ofRequests frame (Course.ofFile fs shared (depth + extra)) frame.script.result frame.script.requests
              cache =
            Course.ofRequests frame (Course.ofFile fs shared depth) frame.script.result frame.script.requests cache ∧
          (Course.ofRequests frame (Course.ofFile fs shared depth) frame.script.result frame.script.requests
              cache).result ≠ .error .tooDeep :=
        ofRequests_settled alive frame.script_ne_tooDeep frame.script.requests cache
          fun before position target bindings rest requests completed =>
            inner _
              ⟨template, cache, before, position, target, bindings, rest, depth, loaded, requests, completed, rfl⟩
      rw [Nat.add_right_comm, course, course, Course.ofFrame, same]
      exact ⟨rfl, ends⟩

/-- A bound that is two above the rank is enough: one for the first file, and one for files that cannot be
loaded. -/
theorem Ranked.settled {bound : Nat} (below : rank first.path ≤ bound) (ranked : Ranked fs shared rank first)
    (extra : Nat) :
    first.course fs shared (bound + 2 + extra) = first.course fs shared (bound + 2) ∧
      (first.course fs shared (bound + 2)).result ≠ .error .tooDeep := by
  induction bound using Nat.strong_induction_on generalizing first with
  | h bound ih =>
      refine course_settled fun included includes => ?_
      cases loaded : included.load fs with
      | error error => exact settled_of_error loaded bound extra
      | ok found =>
          have nested : Nested fs shared first 1 included := .within .first includes ⟨found, loaded⟩
          have lower : 1 + rank included.path ≤ rank first.path := ranked.add_le nested
          obtain ⟨less, rfl⟩ : ∃ less, bound = less + 1 := ⟨bound - 1, by omega⟩
          exact ih less (by omega) (by omega) (ranked.within nested)

/-- An evaluation ends unless includes form a cycle. -/
theorem evaluation_ends (fs : FileSystem) (shared : Shared) (rank : Path → Nat) (path : Path)
    (properties : Properties) (run : Run)
    (ranked : Ranked fs shared rank ⟨path, properties, run.cache⟩) :
    let evaluation depth := evalFile fs shared depth path properties run
    (∀ extra, evaluation (rank path + 2 + extra) = evaluation (rank path + 2)) ∧
      (evaluation (rank path + 2)).1 ≠ .error .tooDeep ∧
      ∀ depth visit, Nested fs shared ⟨path, properties, run.cache⟩ depth visit → depth ≤ rank path := by
  intro evaluation
  have ran (depth : Nat) : evaluation depth =
      (Visit.course fs shared ⟨path, properties, run.cache⟩ depth).run run :=
    evalFile_eq fs shared depth path properties run
  have settled (extra : Nat) := ranked.settled (Nat.le_refl _) extra
  refine ⟨fun extra => ?_, ?_, fun depth visit nested => ?_⟩
  · rw [ran, ran, (settled extra).1]
  · rw [ran]
    exact run_ne_tooDeep (settled 0).2 run
  · exact Nat.le_of_add_right_le (ranked.add_le nested)

/-- A file fails as the only file does that it includes. -/
theorem course_of_included {template : Compiled} {cache : Cache} {position : Nat} {target : String}
    {bindings : Fields} (loaded : visit.load fs = .ok (template, cache))
    (asks : Frame.script { template, properties := visit.properties, shared, contextAlive := true } =
      ⟨[.embed position target bindings], .ok ()⟩) {depth : Nat} {course : Course}
    (within : Visit.course fs shared {
      path := template.directory.resolve ⟨target⟩
      properties := { visit.properties with bindings, filename := none }
      cache } depth = course) {error : Error} (failed : course.result = .error error) :
    (visit.course fs shared (depth + 1)).result = .error error := by
  have loaded : load fs visit.cache visit.path visit.properties = .ok (template, cache) := loaded
  rw [Visit.course, Course.ofFile, loaded]
  dsimp only [Course.ofFrame, Course.after]
  rw [asks, ofRequests_failed rfl within failed, failed]

/-- Files that include each other only. -/
theorem Nested.among {visits : List Visit} (begins : first ∈ visits)
    (closed : ∀ visit ∈ visits, ∀ included found, visit.Includes fs shared included →
      included.load fs = .ok found → included ∈ visits)
    {depth : Nat} (nested : Nested fs shared first depth visit) : visit ∈ visits := by
  induction nested with
  | first => exact begins
  | within _ includes loads ih =>
      obtain ⟨found, loaded⟩ := loads
      exact closed _ ih _ found includes loaded

/-- The only file that a template with one include asks for. -/
theorem included_once {template : Compiled} {cache : Cache} {position : Nat} {target : String} {bindings : Fields}
    (loaded : visit.load fs = .ok (template, cache))
    (asks : Frame.script { template, properties := visit.properties, shared, contextAlive := true } =
      ⟨[.embed position target bindings], .ok ()⟩)
    (includes : visit.Includes fs shared included) :
    included = {
      path := template.directory.resolve ⟨target⟩
      properties := { visit.properties with bindings, filename := none }
      cache } := by
  obtain ⟨_, _, before, _, _, _, rest, _, same, requests, -, rfl⟩ := includes
  rw [loaded] at same
  cases same
  rw [asks] at requests
  cases before with
  | nil =>
      cases requests
      rfl
  | cons request before => simp at requests

end Ranks

/-! ## Files that include another one -/

section Sample

/-- Nothing but some files, all of the same age. -/
def plainFiles (files : List (String × String)) : FileSystem where
  entries := files.map fun (name, text) => ([name], .file (Text.Utf8.encode text) 5)
  now := 0
  workingDirectory := []

/-- The template of a file that consists of one include. -/
def includer (path : Path) (target : String) (stamp : Stamp) (serial : Nat) : Compiled where
  nodes := [.embed 3 (.literal 11 (.string target)) none]
  filename := path.text
  path := path
  lines := .ofText []
  stamp := stamp
  serial := serial

/-- `/a` includes `/b`, which includes `/c`, which is missing. -/
def nestedFiles : FileSystem := plainFiles [("a", "<? include('b') ?>"), ("b", "<? include('c') ?>")]

theorem nestedFiles_ranked :
    Ranked nestedFiles .standard (fun path => if path.text = "/a" then 1 else 0) ⟨⟨"/a"⟩, {}, {}⟩ := by
  let once : Cache := { entries := [(⟨"/a"⟩, includer ⟨"/a"⟩ "b" 5 1)], compiledFiles := 1 }
  let twice : Cache := { once.put ⟨"/b"⟩ (includer ⟨"/b"⟩ "c" 5 2) with compiledFiles := 2 }
  let first : Visit := ⟨⟨"/a"⟩, {}, {}⟩
  let second : Visit := ⟨⟨"/b"⟩, {}, once⟩
  let missing : Visit := ⟨⟨"/c"⟩, {}, twice⟩
  have firstIncludes (included : Visit) (includes : first.Includes nestedFiles .standard included) :
      included = second := by
    have loaded : first.load nestedFiles = .ok (includer ⟨"/a"⟩ "b" 5 1, once) := by cbv
    rw [included_once loaded rfl includes]
    cbv
  have secondIncludes (included : Visit) (includes : second.Includes nestedFiles .standard included) :
      included = missing := by
    have loaded : second.load nestedFiles = .ok (includer ⟨"/b"⟩ "c" 5 2, twice) := by cbv
    rw [included_once loaded rfl includes]
    cbv
  have unloadable : ∃ error, missing.load nestedFiles = .error error := by
    have unread : nestedFiles.readText (missing.path.absolute nestedFiles.here) = .error .notFound := by cbv
    have unkept : missing.cache.get? (missing.path.absolute nestedFiles.here) = none := by cbv
    exact load_of_missing unread (by rw [Cache.fresh?, unkept]; rfl)
  intro depth visit included nested includes
  have among : visit ∈ [first, second] := by
    refine nested.among (by simp [first]) fun visit member included found includes loaded => ?_
    obtain rfl | rfl : visit = first ∨ visit = second := by simpa using member
    · simp [firstIncludes included includes]
    · obtain ⟨error, failed⟩ := unloadable
      rw [secondIncludes included includes, failed] at loaded
      cases loaded
  obtain rfl | rfl : visit = first ∨ visit = second := by simpa using among
  · rw [firstIncludes included includes]
    exact .inr (by decide)
  · rw [secondIncludes included includes]
    exact .inl unloadable

theorem evaluation_ends_sample :
    let evaluation depth := evalFile nestedFiles .standard depth ⟨"/a"⟩ {} {}
    (∀ extra, evaluation (3 + extra) = evaluation 3) ∧ (evaluation 3).1 ≠ .error .tooDeep ∧
      ∀ depth visit, Nested nestedFiles .standard ⟨⟨"/a"⟩, {}, {}⟩ depth visit → depth ≤ 1 :=
  evaluation_ends nestedFiles .standard _ ⟨"/a"⟩ {} {} nestedFiles_ranked

/-- What the cache holds after a file `/b` that includes itself was loaded. -/
def keptCache : Cache := { entries := [(⟨"/b"⟩, includer ⟨"/b"⟩ "b" 5 1)], compiledFiles := 1 }

/-- `/a`, when `/b` is there no more. -/
def remainingFiles : FileSystem := plainFiles [("a", "<? include('b') ?>")]

/-- Where cached templates are used without looking at their files, a file that is missing may include itself. -/
theorem kept_template_includes_itself :
    let first : Visit := ⟨⟨"/a"⟩, { reuse := true }, keptCache⟩
    load (plainFiles [("b", "<? include('b') ?>")]) {} ⟨"/b"⟩ {} = .ok (includer ⟨"/b"⟩ "b" 5 1, keptCache) ∧
      (∀ depth visit included, Nested remainingFiles .standard first depth visit →
        visit.Includes remainingFiles .standard included →
          remainingFiles.readText included.path = .error .notFound) ∧
      (∀ depth, ∃ visit, Nested remainingFiles .standard first depth visit) ∧
      ∀ depth, (evalFile remainingFiles .standard depth first.path first.properties
        { cache := first.cache }).1 = .error .tooDeep := by
  intro first
  let cached : Cache := { keptCache.put ⟨"/a"⟩ (includer ⟨"/a"⟩ "b" 0 2) with compiledFiles := 2 }
  let second : Visit := ⟨⟨"/b"⟩, { reuse := true }, cached⟩
  have firstLoads : first.load remainingFiles = .ok (includer ⟨"/a"⟩ "b" 0 2, cached) := by cbv
  have secondLoads : second.load remainingFiles = .ok (includer ⟨"/b"⟩ "b" 5 1, cached) := by cbv
  have fromFirst : (⟨(includer ⟨"/a"⟩ "b" 0 2).directory.resolve ⟨"b"⟩, { reuse := true }, cached⟩ : Visit) = second := by
    cbv
  have fromSecond : (⟨(includer ⟨"/b"⟩ "b" 5 1).directory.resolve ⟨"b"⟩, { reuse := true }, cached⟩ : Visit) = second := by
    cbv
  have firstIncludes (included : Visit) (includes : first.Includes remainingFiles .standard included) :
      included = second := (included_once firstLoads rfl includes).trans fromFirst
  have secondIncludes (included : Visit) (includes : second.Includes remainingFiles .standard included) :
      included = second := (included_once secondLoads rfl includes).trans fromSecond
  refine ⟨by cbv, ?missing, ?nested, ?deep⟩
  case missing =>
    intro depth visit included nested includes
    have same : included = second := by
      have among : visit ∈ [first, second] := by
        refine nested.among (by simp) fun visit member included _ includes _ => ?_
        obtain rfl | rfl : visit = first ∨ visit = second := by simpa using member
        · simp [firstIncludes included includes]
        · simp [secondIncludes included includes]
      obtain rfl | rfl : visit = first ∨ visit = second := by simpa using among
      · exact firstIncludes included includes
      · exact secondIncludes included includes
    rw [same]
    cbv
  case nested =>
    intro depth
    cases depth with
    | zero => exact ⟨first, .first⟩
    | succ depth =>
        refine ⟨second, ?_⟩
        induction depth with
        | zero =>
            refine .within .first ?_ ⟨_, secondLoads⟩
            exact ⟨_, _, [], _, _, _, [], 0, firstLoads, rfl, rfl, fromFirst.symm⟩
        | succ depth ih =>
            refine .within ih ?_ ⟨_, secondLoads⟩
            exact ⟨_, _, [], _, _, _, [], 0, secondLoads, rfl, rfl, fromSecond.symm⟩
  case deep =>
    have inner (depth : Nat) : (second.course remainingFiles .standard depth).result = .error .tooDeep := by
      induction depth with
      | zero => rfl
      | succ depth ih => exact course_of_included secondLoads rfl (congrArg (Visit.course _ _ · depth) fromSecond) ih
    intro depth
    rw [evalFile_eq]
    refine (happen_unlimited _ _ _ rfl).1.trans ?_
    cases depth with
    | zero => rfl
    | succ depth =>
        exact course_of_included firstLoads rfl (congrArg (Visit.course _ _ · depth) fromFirst) (inner depth)

end Sample

end StaticSite.Template
