import StaticSite.Proofs.FileSystem.Linking
import StaticSite.Proofs.Site.Confinement

/-!
What a whole build does, told from its beginning: what it does with each file, page and link that a scan lists,
if all of these have places of their own.
-/

namespace StaticSite

open Location (Plain)

/-- Where a path leads to from a directory. -/
def Location.down (directory : Location) (p : Path) : Location := directory ++ p.components.map Path.Component.text

theorem Location.down_ofNames (directory : Location) {names : List String} (plain : Plain names) :
    directory.down (Path.ofNames names) = directory ++ names := by
  have texts : names.map (Path.Component.text ∘ Path.Component.name) = names := List.map_id _
  rw [down, Path.components_ofNames plain, List.map_map, texts]

namespace Site

open Json (Fields)
open FileSystem (Built Footing Tidy)
open Path (ofNames)
open Template (Filled)

variable {site : Site} {source path output origin : Location} {files : FileSystem} {base work : Workspace}
  {keys : List Path} {below : List String} {scan : Scan}

/-! ## Recreating links -/

/-- The effect of recreating a link: what stands at its place, whether it can be put there, and what is
put. -/
def Effect.ofLink (standing : Option Entry) (accepts : Bool) (put : Location × Entry) : Effect :=
  if standing = some put.2 then { outcome := .linked }
  else if accepts then { outcome := .linked, puts := [put] }
  else { outcome := .failed }

/-- A link that lies outside of the output directory, and its place below it, where there is nothing or the
link itself. -/
structure Linking (site : Site) (files : FileSystem) (path output : Location) (link : Path)
    (below : List String) (target : Path) (origin : Location) : Prop where
  place : site.placeOf link = Location.path (path ++ below)
  some_name : below ≠ []
  plain : Plain below
  path_eq : link = Location.path origin
  plain_origin : Plain origin
  some_origin : origin ≠ []
  stands : files.get? origin = some (.link target)
  outside : ¬output <+: origin
  some_target : target.text.isEmpty = false
  free : files.get? (output ++ below) = none ∧ files.Clear path (output ++ below) ∨
    files.get? (output ++ below) = some (.link target) ∧ ¬files.Shut path

theorem Linking.does_recreateLink {link target : Path} {accepts : Bool} (footing : files.Footing path output)
    (linking : Linking site files path output link below target origin)
    (decides : files.get? (output ++ below) = none → (accepts ↔ files.Accepts path (output ++ below))) :
    Does files base path output [output ++ below] (site.recreateLink link)
      (.ofLink (files.get? (output ++ below)) accepts (output ++ below, .link target)) where
  inside put member := by
    unfold Effect.ofLink at member
    split at member
    · cases member
    · split at member
      · obtain rfl := List.mem_singleton.mp member
        exact List.mem_singleton_self _
      · cases member
  happens {work puts keys} moment apart := by
    have apart := apart _ (List.mem_singleton_self _)
    rw [recreateLink_apply, linking.place, linking.path_eq]
    obtain ⟨absent, clear⟩ | ⟨there, unshut⟩ := linking.free
    · have decides := decides absent
      have unlike : files.get? (output ++ below) ≠ some (.link target) := by simp [absent]
      have copied := moment.built.copyLink footing linking.some_name linking.plain apart linking.plain_origin
        linking.some_origin linking.stands linking.outside linking.some_target clear absent
      unfold Effect.ofLink
      rw [if_neg unlike]
      obtain ⟨writable, after, copied, built⟩ | ⟨refused, error, failed⟩ := copied
      · rw [copied, if_pos (decides.mpr writable)]
        exact ⟨rfl, built, moment.filled⟩
      · rw [failed, if_neg (decides.not.mpr refused)]
        exact ⟨rfl, moment.built, moment.filled⟩
    · rw [moment.built.copyLink_again footing linking.some_name linking.plain apart linking.plain_origin
        linking.some_origin linking.stands linking.outside linking.some_target unshut there]
      unfold Effect.ofLink
      rw [if_pos there]
      exact ⟨rfl, moment⟩

/-! ## Plans -/

/-- The pages whose headers cannot be read. -/
abbrev unread (site : Site) (files : FileSystem) (scan : Scan) : List Path :=
  (site.readPages files scan.pages).2.map (·.1)

/-- The pages to build with their variables. -/
abbrev jobsOf (site : Site) (files : FileSystem) (scan : Scan) : List (Page × Fields) :=
  site.jobs (.ofPages (site.readPages files scan.pages).1)

/-- Where all that a scan lists may end up below the output directory. -/
def entryTargets (site : Site) (files : FileSystem) (scan : Scan) : List (List Path) :=
  scan.files.map (fun file => [site.within file]) ++ (site.unread files scan).map (fun file => [site.within file]) ++
    (site.jobsOf files scan).map (fun job => site.targets job.1) ++ scan.links.map fun link => [site.within link]

/-- What is known of a build at its beginning. -/
structure Forecast where
  site : Site
  files : FileSystem
  /-- The workspace from which it is told what pages are evaluated to. -/
  base : Workspace
  output : Location
  /-- Whether anything can be put where nothing stands below the output directory. -/
  accepts : Bool
  /-- The paths by which templates are loaded for a page. -/
  loaded : Page × Fields → List Path

namespace Forecast

variable (forecast : Forecast)

def copy (file : Path) : Step where
  places := [forecast.output.down (forecast.site.within file)]
  effect := .ofCopy (forecast.files.isStale file (forecast.site.placeOf file)) forecast.accepts
    (forecast.output.down (forecast.site.within file),
      .file ((forecast.files.read file).toOption.getD []) forecast.files.now)

def copyInstead (file : Path) : Step :=
  { forecast.copy file with effect := (forecast.copy file).effect.instead }

def page (job : Page × Fields) : Step where
  places := [forecast.output.down job.1.outputFile,
    forecast.output.down (forecast.site.within job.1.sourceFile)]
  effect := .ofPage (forecast.site.pageOutput job.1 job.2 forecast.base).1.toOption forecast.accepts
    (forecast.output.down job.1.outputFile) forecast.files.now (forecast.loaded job)
    (forecast.copyInstead job.1.sourceFile).effect

def link (link : Path) : Step where
  places := [forecast.output.down (forecast.site.within link)]
  effect := .ofLink (forecast.files.get? (forecast.output.down (forecast.site.within link))) forecast.accepts
    (forecast.output.down (forecast.site.within link),
      .link ((forecast.files.readLink link).toOption.getD Path.empty))

def steps (scan : Scan) : List Step :=
  scan.files.map forecast.copy ++ (forecast.site.unread forecast.files scan).map forecast.copyInstead ++
    (forecast.site.jobsOf forecast.files scan).map forecast.page ++ scan.links.map forecast.link

theorem places_steps (scan : Scan) :
    (forecast.steps scan).map (·.places) =
      (forecast.site.entryTargets forecast.files scan).map (List.map forecast.output.down) := by
  simp only [steps, entryTargets, List.map_append, List.map_map]
  rfl

/-! ## Plans that hold -/

/-- A file can be copied as it is told. -/
structure Copies (path : Location) (file : Path) (below : List String) (content : Bytes) (time : Time)
    (origin : Location) : Prop where
  copying : Copying forecast.site forecast.files path forecast.output file below content time origin
  within : forecast.site.within file = ofNames below
  decides : forecast.accepts ↔ forecast.files.Accepts path (forecast.output ++ below)

/-- A page can be built as it is told. Its output file lies in the same directory as its copy. -/
structure Renders (path : Location) (job : Page × Fields) (directories : List String) (name target : String)
    (content : Bytes) (time : Time) (origin : Location) : Prop where
  rendering : Rendering forecast.site forecast.files forecast.base path forecast.output job.1 job.2
    (directories ++ [target]) (directories ++ [name]) content time origin
  outputFile : job.1.outputFile = ofNames (directories ++ [target])
  within : forecast.site.within job.1.sourceFile = ofNames (directories ++ [name])
  decides : forecast.accepts ↔ forecast.files.Accepts path (forecast.output ++ (directories ++ [target]))
  decides' : forecast.accepts ↔ forecast.files.Accepts path (forecast.output ++ (directories ++ [name]))
  again : ∀ {other keys}, forecast.site.StaysFor forecast.base job.1 job.2 other.fs →
    Filled forecast.base.fs forecast.base.cache keys other.cache →
    (forecast.site.pageOutput job.1 job.2 other).1.toOption =
        (forecast.site.pageOutput job.1 job.2 forecast.base).1.toOption ∧
      Filled forecast.base.fs forecast.base.cache (forecast.loaded job ++ keys)
        (forecast.site.pageOutput job.1 job.2 other).2.cache

/-- A link can be recreated as it is told. -/
structure Relinks (path : Location) (link : Path) (below : List String) (target : Path) (origin : Location) :
    Prop where
  linking : Linking forecast.site forecast.files path forecast.output link below target origin
  within : forecast.site.within link = ofNames below
  decides : forecast.files.get? (forecast.output ++ below) = none →
    (forecast.accepts ↔ forecast.files.Accepts path (forecast.output ++ below))

variable {forecast}

theorem Copies.down {file : Path} {content : Bytes} {time : Time}
    (copies : forecast.Copies path file below content time origin) :
    forecast.output.down (forecast.site.within file) = forecast.output ++ below := by
  rw [copies.within, Location.down_ofNames _ copies.copying.plain]

theorem Copies.copy_eq {file : Path} {content : Bytes} {time : Time}
    (copies : forecast.Copies path file below content time origin) :
    forecast.copy file = ⟨[forecast.output ++ below],
      .ofCopy (forecast.files.isStale file (forecast.site.placeOf file)) forecast.accepts
        (forecast.output ++ below, .file content forecast.files.now)⟩ := by
  have read : forecast.files.read file = .ok content := FileSystem.read_of_find copies.copying.finds
  simp only [copy, copies.down, read, Except.toOption, Option.getD_some]

/-- Whether a file is copied is told by what stands at its place. -/
theorem Copies.isStale_eq (footing : forecast.files.Footing path forecast.output)
    (unshut : ¬forecast.files.Shut path) {file : Path} {content : Bytes} {time : Time}
    (copies : forecast.Copies path file below content time origin) :
    forecast.files.isStale file (forecast.site.placeOf file) =
      .ok (decide (((forecast.files.get? (forecast.output ++ below)).bind Entry.time?).getD 0 < time)) := by
  have copying := copies.copying
  rw [FileSystem.isStale_eq, FileSystem.modified_of_find copying.finds, copying.place,
    footing.nil.modified_below footing copying.some_name copying.plain copying.clear (by simp) unshut]
  rfl

theorem Relinks.down {link target : Path} (relinks : forecast.Relinks path link below target origin) :
    forecast.output.down (forecast.site.within link) = forecast.output ++ below := by
  rw [relinks.within, Location.down_ofNames _ relinks.linking.plain]

theorem Relinks.link_eq (footing : forecast.files.Footing path forecast.output) {link target : Path}
    (relinks : forecast.Relinks path link below target origin) :
    forecast.link link = ⟨[forecast.output ++ below],
      .ofLink (forecast.files.get? (forecast.output ++ below)) forecast.accepts
        (forecast.output ++ below, .link target)⟩ := by
  have read : forecast.files.readLink link = .ok target := by
    rw [relinks.linking.path_eq]
    exact FileSystem.readLink_path footing.orderly relinks.linking.plain_origin relinks.linking.some_origin
      relinks.linking.stands
  simp only [Forecast.link, relinks.down, read, Except.toOption, Option.getD_some]

theorem Renders.copies {job : Page × Fields} {directories : List String} {name target : String} {content : Bytes}
    {time : Time} (renders : forecast.Renders path job directories name target content time origin) :
    forecast.Copies path job.1.sourceFile (directories ++ [name]) content time origin :=
  ⟨renders.rendering.copying, renders.within, renders.decides'⟩

theorem Renders.down {job : Page × Fields} {directories : List String} {name target : String} {content : Bytes}
    {time : Time} (renders : forecast.Renders path job directories name target content time origin) :
    forecast.output.down job.1.outputFile = forecast.output ++ (directories ++ [target]) := by
  rw [renders.outputFile, Location.down_ofNames _ renders.rendering.plain]

section Does

variable (footing : forecast.files.Footing path forecast.output)

include footing

theorem Copies.does_copyVerbatim {file : Path} {content : Bytes} {time : Time}
    (copies : forecast.Copies path file below content time origin) :
    Does forecast.files base path forecast.output (forecast.copy file).places (forecast.site.copyVerbatim file)
      (forecast.copy file).effect := by
  rw [copies.copy_eq]
  exact copies.copying.does_copyVerbatim footing copies.decides

theorem Copies.does_copyInstead {file : Path} {content : Bytes} {time : Time}
    (copies : forecast.Copies path file below content time origin) :
    Does forecast.files base path forecast.output (forecast.copyInstead file).places
      (forecast.site.copyInstead file) (forecast.copyInstead file).effect := by
  rw [copyInstead, copies.copy_eq]
  exact copies.copying.does_copyInstead footing copies.decides

theorem Renders.does_renderPage {job : Page × Fields} {directories : List String} {name target : String}
    {content : Bytes} {time : Time}
    (renders : forecast.Renders path job directories name target content time origin) :
    Does forecast.files forecast.base path forecast.output (forecast.page job).places
      (forecast.site.renderPage job.1 job.2) (forecast.page job).effect := by
  rw [page, copyInstead, renders.copies.copy_eq, renders.down, renders.copies.down]
  exact renders.rendering.does_renderPage footing renders.decides renders.decides' renders.again

theorem Relinks.does_recreateLink {link target : Path}
    (relinks : forecast.Relinks path link below target origin) :
    Does forecast.files base path forecast.output (forecast.link link).places (forecast.site.recreateLink link)
      (forecast.link link).effect := by
  rw [relinks.link_eq footing]
  exact relinks.linking.does_recreateLink footing relinks.decides

end Does

variable (forecast) in
/-- All that a scan lists can be dealt with as it is told. -/
structure Sound (path : Location) (scan : Scan) : Prop where
  footing : forecast.files.Footing path forecast.output
  copies : ∀ file ∈ scan.files ++ forecast.site.unread forecast.files scan,
    ∃ below content time origin, forecast.Copies path file below content time origin
  renders : ∀ job ∈ forecast.site.jobsOf forecast.files scan,
    ∃ directories name target content time origin,
      forecast.Renders path job directories name target content time origin
  relinks : ∀ link ∈ scan.links, ∃ below target origin, forecast.Relinks path link below target origin

namespace Sound

variable (sound : forecast.Sound path scan)

include sound

/-- Each target is spelled by names. -/
theorem named : ∀ targets ∈ forecast.site.entryTargets forecast.files scan, ∀ target ∈ targets,
    ∃ names, names ≠ [] ∧ Plain names ∧ target = ofNames names := by
  have copied (file : Path) (member : file ∈ scan.files ++ forecast.site.unread forecast.files scan) :
      ∃ names, names ≠ [] ∧ Plain names ∧ forecast.site.within file = ofNames names := by
    obtain ⟨below, content, time, origin, copies⟩ := sound.copies file member
    exact ⟨below, copies.copying.some_name, copies.copying.plain, copies.within⟩
  intro targets member target among
  simp only [entryTargets, List.mem_append, List.mem_map] at member
  obtain ((⟨file, member, rfl⟩ | ⟨file, member, rfl⟩) | ⟨job, member, rfl⟩) | ⟨link, member, rfl⟩ := member
  · rw [List.mem_singleton.mp among]
    exact copied file (List.mem_append_left _ member)
  · rw [List.mem_singleton.mp among]
    exact copied file (List.mem_append_right _ (List.mem_map.mpr member))
  · obtain ⟨directories, name, other, content, time, origin, renders⟩ := sound.renders job member
    simp only [Site.targets, List.mem_cons, List.not_mem_nil, or_false] at among
    obtain rfl | rfl := among
    · exact ⟨_, renders.rendering.some_name, renders.rendering.plain, renders.outputFile⟩
    · exact ⟨_, renders.rendering.copying.some_name, renders.rendering.copying.plain, renders.within⟩
  · obtain ⟨below, other, origin, relinks⟩ := sound.relinks link member
    rw [List.mem_singleton.mp among]
    exact ⟨below, relinks.linking.some_name, relinks.linking.plain, relinks.within⟩

/-- Each place lies below the output directory. -/
theorem exists_below {step : Step} (member : step ∈ forecast.steps scan) {place : Location}
    (among : place ∈ step.places) :
    ∃ below, below ≠ [] ∧ Plain below ∧ place = forecast.output ++ below := by
  have listed : step.places ∈ (forecast.site.entryTargets forecast.files scan).map
      (List.map forecast.output.down) := by
    rw [← places_steps]
    exact List.mem_map_of_mem member
  obtain ⟨targets, entry, same⟩ := List.mem_map.mp listed
  rw [← same] at among
  obtain ⟨target, listed, rfl⟩ := List.mem_map.mp among
  obtain ⟨names, some_name, plain, rfl⟩ := sound.named targets entry target listed
  exact ⟨names, some_name, plain, Location.down_ofNames _ plain⟩

/-- Steps for entries with targets of their own have places of their own. -/
theorem apart (apart : (forecast.site.entryTargets forecast.files scan).Pairwise fun targets others =>
      ∀ target ∈ targets, ∀ elsewhere ∈ others, target.Apart elsewhere) :
    (forecast.steps scan).Pairwise Step.Apart := by
  have pairs : ((forecast.steps scan).map (·.places)).Pairwise fun places others =>
      ∀ place ∈ places, ∀ elsewhere ∈ others, place.Apart elsewhere := by
    rw [places_steps, List.pairwise_map]
    refine apart.imp_of_mem fun {targets others} member member' away place among elsewhere among' => ?_
    obtain ⟨target, listed, rfl⟩ := List.mem_map.mp among
    obtain ⟨other, listed', rfl⟩ := List.mem_map.mp among'
    have away := away target listed other listed'
    obtain ⟨names, -, plain, rfl⟩ := sound.named targets member target listed
    obtain ⟨names', -, plain', rfl⟩ := sound.named others member' other listed'
    rw [Location.down_ofNames _ plain, Location.down_ofNames _ plain']
    exact away.places plain plain' forecast.output
  rwa [List.pairwise_map] at pairs

/-- A build does what was told. -/
theorem buildScan (same : work.fs = forecast.files)
    (start : After forecast.files forecast.base path forecast.output keys [] work)
    (apart : (forecast.steps scan).Pairwise Step.Apart) :
    (forecast.site.buildScan scan work).1 =
        Summary.ofOutcomes (Step.outcomes (forecast.steps scan)) scan.failures.length ∧
      After forecast.files forecast.base path forecast.output keys (forecast.steps scan)
        (forecast.site.buildScan scan work).2 := by
  obtain ⟨copied, fallen, built, linked, first, second, third, fourth, stages⟩ :=
    exists_stages forecast.site scan work
  have fs_eq := stages.fs_eq
  have cache_eq := stages.cache_eq
  have summary := congrArg Prod.fst stages.buildScan_apply
  obtain ⟨copies, fallbacks, pages, links⟩ := stages
  rw [same] at fallbacks pages
  have footing := sound.footing
  unfold steps at apart ⊢
  have apart_pages := (List.pairwise_append.mp apart).1
  have apart_unread := (List.pairwise_append.mp apart_pages).1
  have apart_files := (List.pairwise_append.mp apart_unread).1
  -- what is noted down between the stages changes neither the files nor the cache
  have noted {done : List Step} {work : Workspace}
      (after : After forecast.files forecast.base path forecast.output keys done work) (notices : List Notice) :
      After forecast.files forecast.base path forecast.output keys done (noting work notices) :=
    after.of_eq rfl rfl
  obtain ⟨outcomes_copies, after⟩ := (noted start _).forEach (fun file member => by
    obtain ⟨below, content, time, origin, copies⟩ := sound.copies file (List.mem_append_left _ member)
    exact copies.does_copyVerbatim footing) apart_files
  rw [copies] at outcomes_copies after
  obtain ⟨outcomes_unread, after⟩ := (noted after _).forEach (fun file member => by
    obtain ⟨below, content, time, origin, copies⟩ := sound.copies file (List.mem_append_right _ member)
    exact copies.does_copyInstead footing) apart_unread
  rw [fallbacks] at outcomes_unread after
  obtain ⟨outcomes_pages, after⟩ := (noted (noted after _) _).forEach (fun job member => by
    obtain ⟨directories, name, target, content, time, origin, renders⟩ := sound.renders job member
    exact renders.does_renderPage footing) apart_pages
  rw [pages] at outcomes_pages after
  obtain ⟨outcomes_links, after⟩ := after.forEach (fun link member => by
    obtain ⟨below, target, origin, relinks⟩ := sound.relinks link member
    exact relinks.does_recreateLink footing) apart
  rw [links] at outcomes_links after
  refine ⟨?_, after.of_eq fs_eq cache_eq⟩
  dsimp only at outcomes_copies outcomes_unread outcomes_pages outcomes_links
  rw [summary, outcomes_copies, outcomes_unread, outcomes_pages, outcomes_links]
  simp only [Step.outcomes, List.map_append, List.append_assoc]

end Sound

end Forecast

/-! ## Building where nothing is yet -/

section First

variable (rooted : Rooted site source path) (tidy : work.fs.Tidy) (known : work.fs.IsDirectory source)
  (scanned : site.scan work.fs = .ok scan) (ground : work.fs.Ground path output)
  (absent : work.fs.get? output = none)

include rooted tidy known scanned ground absent

/-- A file that a scan lists can be copied. -/
theorem Rooted.exists_copying {names : List String} (some_name : names ≠ []) (plain : Plain names)
    (member : Location.path (source ++ names) ∈ scan.pages.map (·.1) ++ scan.files) :
    ∃ content time origin,
      Copying site work.fs path output (Location.path (source ++ names)) names content time origin := by
  obtain ⟨origin, content, time, finds⟩ := rooted.exists_find tidy known scanned member
  refine ⟨content, time, origin, rooted.placeOf_path some_name plain, some_name, plain, ground.clear _, finds,
    fun under => ?_⟩
  have there := FileSystem.get?_of_find finds
  rw [tidy.orderly.absent_below absent under] at there
  cases there

theorem Rooted.exists_linking
    (targets : ∀ place target, work.fs.get? place = some (.link target) → target.text.isEmpty = false)
    {link : Path} (member : link ∈ scan.links) :
    ∃ names target origin, Linking site work.fs path output link names target origin ∧
      site.within link = ofNames names := by
  obtain ⟨names, target, listed, rfl, there⟩ := rooted.exists_of_mem_links tidy known scanned member
  have plain := plain_names tidy there
  refine ⟨names, target, source ++ names, ⟨rooted.placeOf_path listed.some_name plain, listed.some_name, plain,
    rfl, tidy.plain there, by simp [listed.some_name], there, fun under => ?_, targets _ _ there,
    .inl ⟨tidy.orderly.absent_below absent (List.prefix_append _ _), ground.clear _⟩⟩,
    rooted.within_path listed.some_name plain⟩
  rw [tidy.orderly.absent_below absent under] at there
  cases there

/-- A page that a scan lists can be rendered. -/
theorem Rooted.exists_rendering {job : Page × Fields} (member : job ∈ site.jobsOf work.fs scan)
    (asked : ∀ asked, site.Asks work job.1 job.2 asked →
      work.fs.KeepsOff output (asked.absolute work.fs.here)) :
    ∃ directories name target content time origin,
      Rendering site work.fs work path output job.1 job.2 (directories ++ [target]) (directories ++ [name])
        content time origin ∧
      job.1.outputFile = ofNames (directories ++ [target]) ∧
      site.within job.1.sourceFile = ofNames (directories ++ [name]) := by
  have read := page_mem_of_mem_jobs member
  obtain ⟨directories, name, target, plain, plain', sourceFile, outputFile⟩ :=
    rooted.exists_siblings tidy known scanned read
  have listed : Location.path (source ++ (directories ++ [name])) ∈ scan.pages.map (·.1) ++ scan.files :=
    List.mem_append_left _ (sourceFile ▸ source_of_mem_jobs member)
  obtain ⟨content, time, origin, copying⟩ :=
    rooted.exists_copying tidy known scanned ground absent (by simp) plain listed
  have place : site.outputDirectory.join job.1.outputFile = Location.path (path ++ (directories ++ [target])) := by
    rw [outputFile, rooted.join_ofNames (by simp) plain']
  rw [← sourceFile] at copying
  exact ⟨directories, name, target, content, time, origin,
    ⟨copying, place, by simp, plain', ground.clear _, ⟨rfl, fun _ _ => rfl⟩, asked⟩, outputFile,
    by rw [sourceFile, rooted.within_path (by simp) plain]⟩

/-- The first build into an output directory can be told from its beginning. -/
theorem Rooted.exists_sound (grounded : work.cache.Grounded) (templates : site.templateDirectory.isAbsolute)
    (targets : ∀ place target, work.fs.get? place = some (.link target) → target.text.isEmpty = false)
    (asked : ∀ job ∈ site.jobsOf work.fs scan, ∀ asked, site.Asks work job.1 job.2 asked →
      work.fs.KeepsOff output (asked.absolute work.fs.here)) :
    ∃ accepts loaded, (⟨site, work.fs, work, output, accepts, loaded⟩ : Forecast).Sound path scan := by
  classical
  have each (job : Page × Fields) : ∃ loaded, job ∈ site.jobsOf work.fs scan → ∀ {other keys},
      site.StaysFor work job.1 job.2 other.fs → Filled work.fs work.cache keys other.cache →
      (site.pageOutput job.1 job.2 other).1.toOption = (site.pageOutput job.1 job.2 work).1.toOption ∧
        Filled work.fs work.cache (loaded ++ keys) (site.pageOutput job.1 job.2 other).2.cache := by
    by_cases member : job ∈ site.jobsOf work.fs scan
    · obtain ⟨directories, name, target, content, time, origin, rendering, -⟩ :=
        rooted.exists_rendering tidy known scanned ground absent member (asked job member)
      obtain ⟨copy, -, -, -, -, -, sourceFile, -⟩ :=
        rooted.exists_names tidy known scanned (page_mem_of_mem_jobs member)
      have absolute : job.1.sourceFile.isAbsolute := sourceFile ▸ Path.isAbsolute_location _
      obtain ⟨loaded, -, again⟩ := @repeats_pageOutput site work job.1 job.2 grounded absolute
        (FileSystem.names_ne_nil absolute rendering.copying.finds) templates
      exact ⟨loaded, fun _ => again⟩
    · exact ⟨[], fun among => absurd among member⟩
  choose loaded again using each
  have decides (below : List String) :
      decide (work.fs.Accepts path output) ↔ work.fs.Accepts path (output ++ below) := by
    rw [tidy.orderly.accepts_below absent, decide_eq_true_iff]
  refine ⟨decide (work.fs.Accepts path output), loaded, ground.toFooting, fun file member => ?_,
    fun job member => ?_, fun link member => ?_⟩
  · have among : file ∈ scan.pages.map (·.1) ++ scan.files := by
      obtain copied | fallen := List.mem_append.mp member
      · exact List.mem_append_right _ copied
      · exact List.mem_append_left _ (source_of_mem_unread fallen)
    obtain ⟨names, listed, plain, rfl⟩ :=
      rooted.exists_listed tidy known scanned (List.mem_append_left _ among)
    obtain ⟨content, time, origin, copying⟩ :=
      rooted.exists_copying tidy known scanned ground absent listed.some_name plain among
    exact ⟨names, content, time, origin, copying, rooted.within_path listed.some_name plain, decides _⟩
  · obtain ⟨directories, name, target, content, time, origin, rendering, outputFile, within⟩ :=
      rooted.exists_rendering tidy known scanned ground absent member (asked job member)
    exact ⟨directories, name, target, content, time, origin, rendering, outputFile, within, decides _, decides _,
      again job member⟩
  · obtain ⟨names, target, origin, linking, within⟩ :=
      rooted.exists_linking tidy known scanned ground absent targets member
    exact ⟨names, target, origin, linking, within, fun _ => decides _⟩

end First

end Site

end StaticSite
