import StaticSite.Proofs.FileSystem.Growth
import StaticSite.Proofs.Site.Building
import StaticSite.Proofs.Template.Answers

/-!
The effects of the steps of a build. How a step ends, what it puts where and which templates it loads can be
told from the beginning, if the steps before it put things elsewhere. So the steps of a build do together
what each of them does alone.
-/

namespace StaticSite.Site

open Json (Fields)
open FileSystem (Built Footing KeepsOff)
open Location (Plain Apart)
open Path (ofNames)
open Template (Filled)

variable {site : Site} {source path output place : Location} {files : FileSystem} {base work : Workspace}
  {puts : List (Location × Entry)} {keys : List Path} {names below : List String} {content : Bytes}
  {time : Time} {file : Path}

/-- What a step does. -/
structure Effect where
  outcome : Outcome
  puts : List (Location × Entry) := []
  /-- The paths by which templates are loaded. -/
  loaded : List Path := []

/-- A moment of a build that began with some files, after some things were put below the output directory and
some templates were loaded. What the cache held at first is told by a workspace of its own. -/
structure Moment (files : FileSystem) (base : Workspace) (path output : Location)
    (puts : List (Location × Entry)) (keys : List Path) (work : Workspace) : Prop where
  built : Built files path output puts work.fs
  filled : Filled base.fs base.cache keys work.cache

/-- A step has an effect, at its own places, whatever was put elsewhere before. -/
structure Does (files : FileSystem) (base : Workspace) (path output : Location) (places : List Location)
    (step : BuildM Outcome) (effect : Effect) : Prop where
  inside : ∀ put ∈ effect.puts, put.1 ∈ places
  happens : ∀ {work puts keys}, Moment files base path output puts keys work →
    (∀ place ∈ places, ∀ put ∈ puts, Apart place put.1) →
    (step work).1 = effect.outcome ∧
      Moment files base path output (effect.puts ++ puts) (effect.loaded ++ keys) (step work).2

/-- A step of a build as it is told from the beginning: where it may put something, and what it does. -/
structure Step where
  places : List Location
  effect : Effect

namespace Step

/-- Two steps have places of their own. -/
def Apart (step other : Step) : Prop :=
  ∀ place ∈ step.places, ∀ elsewhere ∈ other.places, Location.Apart place elsewhere

instance : Std.Symm Apart where
  symm _ _ apart place among elsewhere among' := (apart elsewhere among' place among).symm

/-- What steps have put, the last of them first. -/
def allPuts (steps : List Step) : List (Location × Entry) := steps.reverse.flatMap fun step => step.effect.puts

/-- The paths by which steps have loaded templates, the last of them first. -/
def allLoaded (steps : List Step) : List Path := steps.reverse.flatMap fun step => step.effect.loaded

def outcomes (steps : List Step) : List Outcome := steps.map fun step => step.effect.outcome

theorem allPuts_concat (steps : List Step) (step : Step) : allPuts (steps ++ [step]) = step.effect.puts ++ allPuts steps := by
  simp [allPuts]

theorem allLoaded_concat (steps : List Step) (step : Step) :
    allLoaded (steps ++ [step]) = step.effect.loaded ++ allLoaded steps := by
  simp [allLoaded]

theorem mem_allPuts {steps : List Step} {put : Location × Entry} :
    put ∈ allPuts steps ↔ ∃ step ∈ steps, put ∈ step.effect.puts := by
  simp [allPuts]

end Step

/-- A moment of a build after some steps. -/
structure After (files : FileSystem) (base : Workspace) (path output : Location) (keys : List Path)
    (done : List Step) (work : Workspace) : Prop where
  inside : ∀ step ∈ done, ∀ put ∈ step.effect.puts, put.1 ∈ step.places
  moment : Moment files base path output (Step.allPuts done) (Step.allLoaded done ++ keys) work

theorem After.of_eq {done : List Step} {other : Workspace} (after : After files base path output keys done work)
    (same : other.fs = work.fs) (cached : other.cache = work.cache) : After files base path output keys done other :=
  ⟨after.inside, same ▸ after.moment.built, cached ▸ after.moment.filled⟩

/-- Steps at places of their own have the effects that each of them has. -/
theorem After.forEach {α : Type} {step : α → BuildM Outcome} {told : α → Step} {items : List α}
    {done : List Step} (after : After files base path output keys done work)
    (does : ∀ item ∈ items, Does files base path output (told item).places (step item) (told item).effect)
    (apart : (done ++ items.map told).Pairwise Step.Apart) :
    (Site.forEach step items work).1 = Step.outcomes (items.map told) ∧
      After files base path output keys (done ++ items.map told) (Site.forEach step items work).2 := by
  induction items generalizing work done with
  | nil =>
      rw [List.map_nil, List.append_nil]
      exact ⟨rfl, after⟩
  | cons item rest ih =>
      obtain ⟨does_first, does_rest⟩ := List.forall_mem_cons.mp does
      obtain ⟨-, -, behind⟩ := List.pairwise_append.mp apart
      obtain ⟨ended, moment⟩ := does_first.happens after.moment fun place among put earlier => by
        obtain ⟨before, member, putting⟩ := Step.mem_allPuts.mp earlier
        exact (behind before member (told item) List.mem_cons_self _ (after.inside before member put putting)
          place among).symm
      rw [forEach_cons (rfl : step item work = ((step item work).1, (step item work).2))]
      have next : After files base path output keys (done ++ [told item]) (step item work).2 := by
        refine ⟨fun other member => ?_, ?_⟩
        · obtain earlier | last := List.mem_append.mp member
          · exact after.inside other earlier
          · rw [List.mem_singleton.mp last]
            exact does_first.inside
        · rw [Step.allPuts_concat, Step.allLoaded_concat, List.append_assoc]
          exact moment
      have whole : done ++ (item :: rest).map told = done ++ [told item] ++ rest.map told := by simp
      rw [whole] at apart ⊢
      obtain ⟨outcomes, after⟩ := ih next does_rest apart
      refine ⟨?_, after⟩
      rw [outcomes, ended]
      rfl

/-! ## Copying -/

/-- The effect of copying a file: whether the copy is stale, whether it can be put at its place, and what is
put there. -/
def Effect.ofCopy (stale : Except IoError Bool) (accepts : Bool) (put : Location × Entry) : Effect :=
  match stale with
  | .error _ => { outcome := .failed }
  | .ok false => { outcome := .unchanged }
  | .ok true => if accepts then { outcome := .copied, puts := [put] } else { outcome := .failed }

theorem Effect.puts_ofCopy (stale accepts : Bool) (put : Location × Entry) :
    (Effect.ofCopy (.ok stale) accepts put).puts = if stale && accepts then [put] else [] := by
  cases stale <;> cases accepts <;> rfl

theorem Effect.mem_ofCopy {stale : Except IoError Bool} {accepts : Bool} {put other : Location × Entry}
    (member : other ∈ (Effect.ofCopy stale accepts put).puts) : other = put := by
  cases stale with
  | error error => cases member
  | ok stale =>
      rw [puts_ofCopy] at member
      split at member
      · exact List.mem_singleton.mp member
      · cases member

/-- A page that is copied counts as one of these. -/
def Effect.instead (effect : Effect) : Effect :=
  { effect with outcome := if effect.outcome = .failed then .failed else .fallback }

theorem Effect.loaded_ofCopy (stale : Except IoError Bool) (accepts : Bool) (put : Location × Entry) :
    (Effect.ofCopy stale accepts put).instead.loaded = [] := by
  unfold Effect.ofCopy Effect.instead
  split
  · rfl
  · rfl
  · split <;> rfl

/-- A file that lies outside of the output directory, and its place below it. -/
structure Copying (site : Site) (base : FileSystem) (path output : Location) (file : Path)
    (below : List String) (content : Bytes) (time : Time) (origin : Location) : Prop where
  place : site.placeOf file = Location.path (path ++ below)
  some_name : below ≠ []
  plain : Plain below
  clear : base.Clear path (output ++ below)
  finds : base.find true file = .ok (origin, .file content time)
  outside : ¬output <+: origin

section Copying

variable {origin : Location} {accepts : Bool} (footing : files.Footing path output)
  (copying : Copying site files path output file below content time origin)
  (decides : accepts ↔ files.Accepts path (output ++ below))

include copying

theorem Copying.keepsOff : files.KeepsOff output file :=
  FileSystem.keepsOff_of_find copying.finds copying.outside

theorem Copying.find_eq (built : Built files path output puts work.fs) :
    work.fs.find true file = files.find true file :=
  built.toGrown.find_eq built.under copying.keepsOff

include footing

theorem Copying.isStale_eq (built : Built files path output puts work.fs)
    (free : ∀ put ∈ puts, Apart (output ++ below) put.1) :
    work.fs.isStale file (site.placeOf file) = files.isStale file (site.placeOf file) := by
  have same : work.fs.modified file = files.modified file := by
    rw [FileSystem.modified, FileSystem.modified, copying.find_eq built]
  rw [FileSystem.isStale_eq, FileSystem.isStale_eq, copying.place,
    built.modified footing copying.some_name copying.plain copying.clear free, same]

include decides

theorem Copying.does_copyVerbatim :
    Does files base path output [output ++ below] (site.copyVerbatim file)
      (.ofCopy (files.isStale file (site.placeOf file)) accepts
        (output ++ below, .file content files.now)) where
  inside put member := by
    rw [Effect.mem_ofCopy member]
    exact List.mem_singleton_self _
  happens {work puts keys} moment free := by
    have free := free _ (List.mem_singleton_self _)
    rw [copyVerbatim_apply, copying.isStale_eq footing moment.built free]
    cases files.isStale file (site.placeOf file) with
    | error error => exact ⟨rfl, moment.built, moment.filled⟩
    | ok stale =>
        cases stale with
        | false => exact ⟨rfl, moment⟩
        | true =>
            have finds := (copying.find_eq moment.built).trans copying.finds
            have copied :=
              moment.built.copyFile footing copying.some_name copying.plain copying.clear free finds copying.outside
            dsimp only [Effect.ofCopy]
            rw [copying.place]
            obtain ⟨writable, size, after, copied, built⟩ | ⟨refused, error, failed⟩ := copied
            · rw [copied, if_pos (decides.mpr writable)]
              exact ⟨rfl, built, moment.filled⟩
            · rw [failed, if_neg (decides.not.mpr refused)]
              exact ⟨rfl, moment.built, moment.filled⟩

theorem Copying.does_copyInstead :
    Does files base path output [output ++ below] (site.copyInstead file)
      (Effect.ofCopy (files.isStale file (site.placeOf file)) accepts
        (output ++ below, .file content files.now)).instead := by
  have does : Does files base path output [output ++ below] (site.copyVerbatim file) _ :=
    copying.does_copyVerbatim footing decides
  refine ⟨does.inside, fun moment free => ?_⟩
  obtain ⟨ended, moment⟩ := does.happens moment free
  rw [copyInstead_eq]
  exact ⟨by rw [ended]; rfl, moment⟩

end Copying

/-! ## Evaluating -/

/-- A step of evaluating a page from a workspace on: it gives the same at any later time, and it loads the
same templates. -/
def Repeats {α : Type} (base : Workspace) (later : FileSystem → Prop) (keys : List Path) (work : Workspace)
    (action : ExceptT BuildError BuildM α) : Prop :=
  ∃ loaded, Filled base.fs base.cache (loaded ++ keys) (action work).2.cache ∧
    ∀ {other keys'}, later other.fs → Filled base.fs base.cache keys' other.cache →
      (action other).1.toOption = (action work).1.toOption ∧
        Filled base.fs base.cache (loaded ++ keys') (action other).2.cache

section Repeats

variable {α β : Type} {later : FileSystem → Prop} (filled : Filled base.fs base.cache keys work.cache)

include filled

theorem repeats_pure (value : α) : Repeats base later keys work (pure value) :=
  ⟨[], filled, fun _ filled => ⟨rfl, filled⟩⟩

theorem repeats_throw (error : BuildError) :
    Repeats base later keys work (throw error : ExceptT BuildError BuildM α) :=
  ⟨[], filled, fun _ filled => ⟨rfl, filled⟩⟩

omit filled in
theorem Repeats.bind {first : ExceptT BuildError BuildM α} {next : α → ExceptT BuildError BuildM β}
    (reads : Reads first) (again : Repeats base later keys work first)
    (rest : ∀ value loaded, (first work).1 = .ok value →
      Filled base.fs base.cache (loaded ++ keys) (first work).2.cache →
      Repeats base later (loaded ++ keys) (first work).2 (next value)) :
    Repeats base later keys work (first >>= next) := by
  obtain ⟨loaded, filled, again⟩ := again
  cases ended : first work with
  | mk result after =>
      rw [ended] at filled rest
      simp only [ended] at again
      cases result with
      | error error =>
          refine ⟨loaded, by rw [build_bind_apply, ended]; exact filled, fun {other keys'} stays filled' => ?_⟩
          obtain ⟨same, filled'⟩ := again stays filled'
          rw [build_bind_apply, build_bind_apply, ended]
          generalize first other = outcome at same filled' ⊢
          obtain ⟨error' | value, after'⟩ := outcome
          · exact ⟨rfl, filled'⟩
          · cases same
      | ok value =>
          obtain ⟨more, filled_rest, again_rest⟩ := rest value loaded rfl filled
          rw [← List.append_assoc] at filled_rest
          refine ⟨more ++ loaded, by rw [build_bind_apply, ended]; exact filled_rest,
            fun {other keys'} stays filled' => ?_⟩
          obtain ⟨same, filled'⟩ := again stays filled'
          have unchanged := reads other
          rw [build_bind_apply, build_bind_apply, ended]
          generalize first other = outcome at same filled' unchanged ⊢
          obtain ⟨error' | value', after'⟩ := outcome
          · cases same
          · cases same
            dsimp only at unchanged filled' ⊢
            rw [List.append_assoc]
            exact again_rest (unchanged ▸ stays) filled'

end Repeats

/-- Evaluates a template in the files as they are by then. -/
def evaluated (action : FileSystem → Template.EvalM Unit) : ExceptT BuildError BuildM Bytes := do
  let fs := (← get).fs
  match ← withTemplates (action fs) with
  | .error error => throw (.template error)
  | .ok text => return Text.Utf8.encode text

theorem evaluated_apply (action : FileSystem → Template.EvalM Unit) (work : Workspace) :
    evaluated action work =
      ((match (Template.textOf (action work.fs) work.cache).1 with
        | .error error => .error (.template error)
        | .ok text => .ok (Text.Utf8.encode text)),
        { work with cache := (Template.textOf (action work.fs) work.cache).2 }) := by
  change (match (Template.textOf (action work.fs) work.cache).1 with
    | .error error => throw (.template error)
    | .ok text => pure (Text.Utf8.encode text) : ExceptT BuildError BuildM Bytes)
      { work with cache := (Template.textOf (action work.fs) work.cache).2 } = _
  cases (Template.textOf (action work.fs) work.cache).1 <;> rfl

/-- What a page is evaluated to, if texts are what they were. -/
theorem repeats_evaluated {later : FileSystem → Prop} {action : FileSystem → Template.EvalM Unit}
    {loaded : List Path}
    (filled : Filled base.fs base.cache (loaded ++ keys) (Template.textOf (action work.fs) work.cache).2)
    (again : ∀ {fs cache keys'}, later fs → Filled base.fs base.cache keys' cache →
      (Template.textOf (action fs) cache).1.toOption =
          (Template.textOf (action work.fs) work.cache).1.toOption ∧
        Filled base.fs base.cache (loaded ++ keys') (Template.textOf (action fs) cache).2) :
    Repeats base later keys work (evaluated action) := by
  refine ⟨loaded, by rw [evaluated_apply]; exact filled, fun {other keys'} stays filled' => ?_⟩
  obtain ⟨same, filled'⟩ := again stays filled'
  rw [evaluated_apply, evaluated_apply]
  refine ⟨?_, filled'⟩
  dsimp only
  generalize (Template.textOf (action other.fs) other.cache).1 = outcome at same ⊢
  generalize (Template.textOf (action work.fs) work.cache).1 = outcome' at same ⊢
  cases outcome <;> cases outcome' <;> cases same <;> rfl

/-! ## Building a page -/

/-- The paths by which files are asked for when a page is built from a workspace on. -/
inductive Asks (site : Site) (work : Workspace) (page : Page) (bindings : Fields) : Path → Prop
  | body {body : Bytes} {template : Template.Compiled} {cache : Template.Cache} {asked : Path}
    {properties : Template.Properties} {outcome : Except Template.Error (Template.Compiled × Template.Cache)}
    (reads : page.readBody work.fs = .ok body) (format : page.format = .markup) (code : mayHoldCode body)
    (compiles : Template.compile (Text.Utf8.decodeLossy body) page.sourceFile.text = .ok template)
    (member : .load cache asked properties outcome ∈
      (Template.Course.ofCompiled work.fs site.shared site.includeDepth true template { bindings }
        work.cache).events) : Asks site work page bindings asked
  | layout {body content : Bytes} {layout : String} {after : Workspace} {cache : Template.Cache} {asked : Path}
    {properties : Template.Properties} {outcome : Except Template.Error (Template.Compiled × Template.Cache)}
    (reads : page.readBody work.fs = .ok body)
    (evaluates : site.pageContent page bindings body work = (.ok content, after))
    (named : page.layout? site.config.defaultLayout = some layout)
    (member : .load cache asked properties outcome ∈
      (Template.Course.ofFile after.fs site.shared site.includeDepth (site.layoutFile layout)
        { bindings := bindings.insert "content" (.string (Text.Utf8.decodeLossy content)) }
        after.cache).events) : Asks site work page bindings asked

/-- The files that a page is built from are where they were. -/
structure StaysFor (site : Site) (base : Workspace) (page : Page) (bindings : Fields)
    (fs : FileSystem) : Prop where
  source : fs.read page.sourceFile = base.fs.read page.sourceFile
  asked : ∀ path, site.Asks base page bindings path → Template.Stays base.fs fs path

theorem StaysFor.later {fs : FileSystem} {page : Page} {bindings : Fields} (stays : site.StaysFor base page bindings fs)
    (now : Time) : site.StaysFor base page bindings (fs.later now) where
  source := by
    rw [← stays.source, FileSystem.read, FileSystem.read, FileSystem.find_later]
  asked asked asks := FileSystem.find_later now |>.trans (stays.asked asked asks)

section Page

variable {page : Page} {bindings : Fields}

theorem tidy_layoutFile (absolute : site.templateDirectory.isAbsolute) (layout : String) :
    (site.layoutFile layout).Tidy := by
  refine ⟨Path.isAbsolute_join absolute _, .inl ?_⟩
  have ends : (site.layoutFile layout).text.toList.getLast? = some 'l' := by
    unfold layoutFile Path.join
    split
    · simp
    · split <;> simp [List.getLast?_cons, List.getLast?_append]
  rw [FileSystem.endsInSlash, ends]
  rfl

/-- What a page is evaluated to, given how its body was read. -/
def outputOf (site : Site) (page : Page) (bindings : Fields) (read : Except Page.Error Bytes) :
    ExceptT BuildError BuildM Bytes := do
  match read with
  | .error error => throw (.page error)
  | .ok body =>
    let content ← site.pageContent page bindings body
    match page.layout? site.config.defaultLayout with
    | none => return content
    | some layout => site.wrap layout bindings content

theorem pageOutput_apply (site : Site) (page : Page) (bindings : Fields) (work : Workspace) :
    site.pageOutput page bindings work = site.outputOf page bindings (page.readBody work.fs) work := rfl

variable (grounded : base.cache.Grounded)

include grounded

theorem repeats_pageContent (absolute : page.sourceFile.isAbsolute) (named : page.sourceFile.names ≠ [])
    {body : Bytes} (reads : page.readBody base.fs = .ok body) :
    Repeats base (site.StaysFor base page bindings) [] base (site.pageContent page bindings body) := by
  unfold pageContent
  split
  · exact repeats_pure .nil _
  split
  · next format code =>
      unfold evalBody
      cases compiles : Template.compile (Text.Utf8.decodeLossy body) page.sourceFile.text with
      | error error => exact repeats_throw .nil _
      | ok template =>
          have template_grounded : template.Grounded := by
            rw [Template.Compiled.Grounded, Template.path_of_compile compiles]
            exact ⟨absolute, named⟩
          have twins {fs : FileSystem} {cache : Template.Cache} {keys' : List Path}
              (stays : site.StaysFor base page bindings fs) (filled : Filled base.fs base.cache keys' cache) :=
            Template.textOf_evalCompiled grounded site.shared .nil filled site.includeDepth bindings
              true template_grounded fun asked path properties outcome member =>
                stays.asked path (.body reads format code compiles member)
          change Repeats base _ [] base (evaluated fun fs =>
            Template.evalCompiled fs site.shared site.includeDepth true template { bindings })
          exact repeats_evaluated (twins ⟨rfl, fun _ _ => rfl⟩ .nil).2.1 fun stays filled =>
            ⟨(twins stays filled).1, (twins stays filled).2.2⟩
  · exact repeats_pure .nil _

theorem repeats_wrap (templates : site.templateDirectory.isAbsolute) {layout : String} {content : Bytes}
    (filled : Filled base.fs base.cache keys work.cache) (same : work.fs = base.fs)
    (asks : ∀ {cache asked properties outcome}, .load cache asked properties outcome ∈
      (Template.Course.ofFile work.fs site.shared site.includeDepth (site.layoutFile layout)
        { bindings := bindings.insert "content" (.string (Text.Utf8.decodeLossy content)) }
        work.cache).events → site.Asks base page bindings asked) :
    Repeats base (site.StaysFor base page bindings) keys work (site.wrap layout bindings content) := by
  obtain ⟨files, current, log⟩ := work
  obtain rfl : files = base.fs := same
  have twins {fs : FileSystem} {cache : Template.Cache} {keys' : List Path}
      (stays : site.StaysFor base page bindings fs) (filled' : Filled base.fs base.cache keys' cache) :=
    Template.textOf_evalFile grounded site.shared filled filled' site.includeDepth
      (bindings.insert "content" (.string (Text.Utf8.decodeLossy content))) (tidy_layoutFile templates layout)
      fun asked path properties outcome member => stays.asked path (asks member)
  change Repeats base _ keys _ (evaluated fun fs =>
    Template.evalFile fs site.shared site.includeDepth (site.layoutFile layout)
      { bindings := bindings.insert "content" (.string (Text.Utf8.decodeLossy content)) })
  exact repeats_evaluated (twins ⟨rfl, fun _ _ => rfl⟩ filled).2.1 fun stays filled =>
    ⟨(twins stays filled).1, (twins stays filled).2.2⟩

theorem repeats_outputOf (absolute : page.sourceFile.isAbsolute) (named : page.sourceFile.names ≠ [])
    (templates : site.templateDirectory.isAbsolute) :
    Repeats base (site.StaysFor base page bindings) [] base
      (site.outputOf page bindings (page.readBody base.fs)) := by
  cases reads : page.readBody base.fs with
  | error error => exact repeats_throw .nil _
  | ok body =>
      refine (repeats_pageContent grounded absolute named reads).bind
        (reads_pageContent site page bindings body) ?_
      intro content loaded evaluates filled
      cases layout : page.layout? site.config.defaultLayout with
      | none => exact repeats_pure filled _
      | some name =>
          refine repeats_wrap grounded templates filled (reads_pageContent site page bindings body base) ?_
          exact fun member => .layout reads (Prod.ext evaluates rfl) layout member

/-- What a page is evaluated to does not depend on the pages that were built before. -/
theorem repeats_pageOutput (absolute : page.sourceFile.isAbsolute) (named : page.sourceFile.names ≠ [])
    (templates : site.templateDirectory.isAbsolute) :
    Repeats base (site.StaysFor base page bindings) [] base (site.pageOutput page bindings) := by
  obtain ⟨loaded, filled, again⟩ := @repeats_outputOf _ _ _ bindings grounded absolute named templates
  refine ⟨loaded, filled, fun {other keys'} stays filled' => ?_⟩
  have same : page.readBody other.fs = page.readBody base.fs := by
    rw [Page.readBody, Page.readBody, stays.source]
  rw [pageOutput_apply, pageOutput_apply, same]
  exact again stays filled'

end Page

/-- The effect of building a page: what it is evaluated to, whether that can be put at its place, and what is
done instead. -/
def Effect.ofPage (output : Option Bytes) (accepts : Bool) (place : Location) (now : Time)
    (loaded : List Path) (instead : Effect) : Effect :=
  match output with
  | some bytes =>
    if accepts then { outcome := .written, puts := [(place, .file bytes now)], loaded }
    else { instead with loaded }
  | none => { instead with loaded }

theorem Effect.mem_ofPage {output : Option Bytes} {accepts : Bool} {now : Time} {loaded : List Path}
    {instead : Effect} {put : Location × Entry}
    (member : put ∈ (Effect.ofPage output accepts place now loaded instead).puts) :
    (put.1 = place ∧ ∃ content time, put.2 = .file content time) ∨ put ∈ instead.puts := by
  cases output with
  | none => exact .inr member
  | some bytes =>
      cases accepts with
      | false => exact .inr member
      | true =>
          obtain rfl := List.mem_singleton.mp member
          exact .inl ⟨rfl, bytes, now, rfl⟩

/-- A page that cannot be put at its place is copied. -/
theorem Effect.puts_ofPage {output : Option Bytes} {accepts : Bool} (now : Time) (loaded : List Path)
    (instead : Effect) (unwritten : ∀ bytes, output = some bytes → accepts = false) :
    (Effect.ofPage output accepts place now loaded instead).puts = instead.puts := by
  cases output with
  | none => rfl
  | some bytes =>
      rw [unwritten bytes rfl]
      rfl

/-- A page whose source lies outside of the output directory, as do the files that it is built from, and the
places of its output file and of its copy. All of these files are where they were at first. -/
structure Rendering (site : Site) (files : FileSystem) (base : Workspace) (path output : Location)
    (page : Page) (bindings : Fields) (below copy : List String) (content : Bytes) (time : Time)
    (origin : Location) : Prop where
  copying : Copying site files path output page.sourceFile copy content time origin
  place : site.outputDirectory.join page.outputFile = Location.path (path ++ below)
  some_name : below ≠ []
  plain : Plain below
  clear : files.Clear path (output ++ below)
  stays : site.StaysFor base page bindings files
  asked : ∀ asked, site.Asks base page bindings asked → files.KeepsOff output (asked.absolute base.fs.here)

section Rendering

variable {origin : Location} {page : Page} {bindings : Fields} {copy : List String}
  {accepts acceptsCopy : Bool} {loaded : List Path}
  (footing : files.Footing path output)
  (rendering : Rendering site files base path output page bindings below copy content time origin)
  (decides : accepts ↔ files.Accepts path (output ++ below))
  (decides' : acceptsCopy ↔ files.Accepts path (output ++ copy))
  (again : ∀ {other keys'}, site.StaysFor base page bindings other.fs →
    Filled base.fs base.cache keys' other.cache →
    (site.pageOutput page bindings other).1.toOption = (site.pageOutput page bindings base).1.toOption ∧
      Filled base.fs base.cache (loaded ++ keys') (site.pageOutput page bindings other).2.cache)

include rendering

theorem Rendering.staysFor (built : Built files path output puts work.fs) :
    site.StaysFor base page bindings work.fs where
  source := by
    rw [← rendering.stays.source, FileSystem.read, FileSystem.read, rendering.copying.find_eq built]
  asked asked among :=
    (built.toGrown.find_eq built.under (rendering.asked asked among)).trans (rendering.stays.asked asked among)

include footing decides decides' again

/-- A page is built in the same way whenever its turn comes. -/
theorem Rendering.does_renderPage :
    Does files base path output [output ++ below, output ++ copy] (site.renderPage page bindings)
      (.ofPage (site.pageOutput page bindings base).1.toOption accepts (output ++ below) files.now loaded
        (Effect.ofCopy (files.isStale page.sourceFile (site.placeOf page.sourceFile)) acceptsCopy
          (output ++ copy, .file content files.now)).instead) := by
  have copies : Does files base path output [output ++ copy] (site.copyInstead page.sourceFile) _ :=
    rendering.copying.does_copyInstead footing decides'
  have unloaded := Effect.loaded_ofCopy (files.isStale page.sourceFile (site.placeOf page.sourceFile))
    acceptsCopy (output ++ copy, .file content files.now)
  generalize Effect.instead _ = instead at copies unloaded ⊢
  refine ⟨fun put member => ?_, fun {work puts keys} moment free => ?_⟩
  · obtain ⟨written, -⟩ | copied := Effect.mem_ofPage member
    · exact written ▸ List.mem_cons_self
    · exact List.mem_cons_of_mem _ (copies.inside put copied)
  · obtain ⟨same, filled⟩ := again (rendering.staysFor moment.built) moment.filled
    have unchanged := reads_pageOutput site page bindings work
    -- whatever is noted down first
    have copied {after : Workspace} (same : after.fs = work.fs)
        (filled : Filled base.fs base.cache (loaded ++ keys) after.cache) :
        (site.copyInstead page.sourceFile after).1 = instead.outcome ∧
          Moment files base path output (instead.puts ++ puts) (loaded ++ keys)
            (site.copyInstead page.sourceFile after).2 := by
      have moment : Moment files base path output puts (loaded ++ keys) after := ⟨same ▸ moment.built, filled⟩
      have happens := copies.happens moment fun place among => free place (List.mem_cons_of_mem _ among)
      rwa [unloaded, List.nil_append] at happens
    rw [renderPage_apply, buildPage_apply]
    generalize site.pageOutput page bindings work = outcome at same filled unchanged ⊢
    rw [← same]
    obtain ⟨error | bytes, after⟩ := outcome
    · exact copied unchanged filled
    · dsimp only at unchanged filled ⊢
      rw [rendering.place, unchanged]
      have wrote := moment.built.writeFile footing rendering.some_name rendering.plain rendering.clear
        (free _ List.mem_cons_self) bytes
      obtain ⟨writable, fs, wrote, built⟩ | ⟨refused, error, failed⟩ := wrote
      · rw [wrote]
        dsimp only [Effect.ofPage, Except.toOption]
        rw [if_pos (decides.mpr writable)]
        exact ⟨rfl, built, filled⟩
      · rw [failed]
        dsimp only [Effect.ofPage, Except.toOption]
        rw [if_neg (decides.not.mpr refused)]
        exact copied rfl filled

end Rendering

end StaticSite.Site
