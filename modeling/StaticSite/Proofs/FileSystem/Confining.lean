import StaticSite.Proofs.FileSystem.Growth

/-!
Operations that stay below an output directory. Outside of it nothing changes but that missing directories
above it are made. Links come to be at given places only, and as long as none of these places is passed, a
path below the output directory leads to the place that it spells.
-/

namespace StaticSite.FileSystem

open Location (Plain)

variable {base fs after : FileSystem} {path output front directory place : Location}
  {links links' : Set Location} {below : List String} {name : String} {content : Bytes} {time : Time}

/-! ## Single steps behind a route -/

namespace Route

theorem write_below (route : fs.Route front directory) (plain : Plain (below ++ [name]))
    (linkless : fs.Linkless (directory ++ below ++ [name])) (content : Bytes) :
    (write (Location.path (front ++ (below ++ [name]))) content fs).2 = fs ∨
      ¬fs.IsDirectory (directory ++ below ++ [name]) ∧
        PutAt (directory ++ below ++ [name]) (.file content fs.now) fs
          (write (Location.path (front ++ (below ++ [name]))) content fs).2 := by
  by_cases writable : fs.Writable (directory ++ below ++ [name])
  · by_cases above : fs.IsDirectory (directory ++ below)
    · right
      rw [(route.write_reached plain writable above content).2]
      refine ⟨?_, route.orderly.putAt above _⟩
      rintro ⟨time, known⟩
      obtain ⟨content, time', same⟩ := writable.fills _ known
      cases same
    · left
      rw [route.write_unready plain writable.pavable (writable.pavable.missing above)]
  · left
    obtain ⟨error, -, failed⟩ := route.write_refused plain linkless writable content
    rw [failed]

/-- No directory is made past a file. -/
theorem makeDirectory_refused (route : fs.Route front directory) (plain : Plain (below ++ [name]))
    (linkless : fs.Linkless (directory ++ below)) (blocked : ¬fs.Pavable (directory ++ below ++ [name])) :
    ∃ error, error ≠ .notFound ∧
      makeDirectory (Location.path (front ++ (below ++ [name]))) fs = (.error error, fs) := by
  rw [makeDirectory_apply, Location.withoutEndSlash_path (route.plain.append plain) (by simp),
    Location.isEmpty_path, if_neg (by simp)]
  by_cases above : fs.IsDirectory (directory ++ below)
  · rw [route.walk_unfollowed plain above]
    dsimp only
    cases known : fs.get? (directory ++ below ++ [name]) with
    | some entry => exact ⟨.alreadyExists, by simp, rfl⟩
    | none =>
        -- nothing is in the way, then
        refine absurd (fun place inside entry there => ?_) blocked
        obtain rfl | before := prefix_append_singleton_iff.mp inside
        · rw [known] at there
          cases there
        · obtain ⟨time, standing⟩ := route.orderly.isDirectory_of_prefix above before
          exact ⟨time, Option.some.inj (there.symm.trans standing)⟩
  · by_cases pavable : fs.Pavable (directory ++ below)
    · refine absurd (fun place inside entry there => ?_) blocked
      obtain rfl | before := prefix_append_singleton_iff.mp inside
      · exact absurd (route.orderly _ _ _ there) above
      · exact pavable place before entry there
    · rw [route.walk_refused plain linkless pavable false]
      exact ⟨.notADirectory, by simp, rfl⟩

/-- The directories above a place are made, or nothing happens. -/
theorem makeParent_cases (route : fs.Route front directory) (plain : Plain (below ++ [name]))
    (linkless : fs.Linkless (directory ++ below)) :
    (makeParent (Location.path (front ++ (below ++ [name]))) fs).2 = fs ∨
      Paved (directory ++ below) fs (makeParent (Location.path (front ++ (below ++ [name]))) fs).2 := by
  by_cases pavable : fs.Pavable (directory ++ below)
  · right
    obtain ⟨after, made, paved, -⟩ := route.makeParent_below plain pavable
    rw [made]
    exact paved
  · left
    rcases List.eq_nil_or_concat below with rfl | ⟨inner, last, rfl⟩
    · refine absurd (fun place inside entry there => ?_) pavable
      rw [List.append_nil] at inside
      obtain ⟨time, standing⟩ := route.orderly.isDirectory_of_prefix route.known inside
      exact ⟨time, Option.some.inj (there.symm.trans standing)⟩
    rw [List.concat_eq_append] at *
    have whole : Plain (front ++ (inner ++ [last]) ++ [name]) := by
      rw [List.append_assoc]
      exact route.plain.append plain
    rw [← List.append_assoc directory] at linkless pavable
    obtain ⟨error, different, failed⟩ := route.makeDirectory_refused plain.front
      (fun above inside => linkless above (inside.trans (List.prefix_append _ _))) pavable
    rw [← List.append_assoc, makeParent, Location.parent?_path whole]
    dsimp only
    rw [Location.isEmpty_path, if_neg (by simp), makeDirectories, makeLevels_apply (Location.isEmpty_path _),
      failed]
    dsimp only
    rw [if_neg (by simpa using different)]
    split <;> rfl

theorem makeLink_below (route : fs.Route front directory) (plain : Plain (below ++ [name]))
    (linkless : fs.Linkless (directory ++ below)) (target : Path) :
    (makeLink target (Location.path (front ++ (below ++ [name]))) fs).2 = fs ∨
      fs.get? (directory ++ below ++ [name]) = none ∧
        PutAt (directory ++ below ++ [name]) (.link target) fs
          (makeLink target (Location.path (front ++ (below ++ [name]))) fs).2 := by
  rw [makeLink_apply]
  split
  · exact .inl rfl
  by_cases above : fs.IsDirectory (directory ++ below)
  · rw [route.walk_unfollowed plain above]
    dsimp only
    split
    case isTrue => exact .inl rfl
    case isFalse absent => exact .inr ⟨by simpa using absent, route.orderly.putAt above _⟩
  · obtain ⟨error, failed⟩ := route.walk_nowhere plain linkless above false
    rw [failed]
    exact .inl rfl

theorem removeFile_below (route : fs.Route front directory) (plain : Plain (below ++ [name]))
    (linkless : fs.Linkless (directory ++ below)) :
    (removeFile (Location.path (front ++ (below ++ [name]))) fs).2 = fs ∨
      ¬fs.IsDirectory (directory ++ below ++ [name]) ∧
        (removeFile (Location.path (front ++ (below ++ [name]))) fs).2 =
          fs.erase (directory ++ below ++ [name]) := by
  rw [removeFile_apply]
  cases finds : fs.find false (Location.path (front ++ (below ++ [name]))) with
  | error error => exact .inl rfl
  | ok found =>
      obtain ⟨place, entry⟩ := found
      have above : fs.IsDirectory (directory ++ below) := by
        by_contra nowhere
        obtain ⟨error, failed⟩ := route.walk_nowhere plain linkless nowhere false
        rw [walk_of_find finds] at failed
        cases failed
      have walked := route.walk_unfollowed plain above
      rw [walk_of_find finds] at walked
      cases walked
      have known := get?_of_find finds
      cases entry with
      | directory time => exact .inl rfl
      | file content time => exact .inr ⟨not_isDirectory_of_get? known (by simp), rfl⟩
      | link target => exact .inr ⟨not_isDirectory_of_get? known (by simp), rfl⟩

end Route

/-! ## What is confined -/

/-- A file system in which things were put below an output directory, links among them at some places. -/
structure Confined (base : FileSystem) (path output : Location) (links : Set Location) (fs : FileSystem) :
    Prop where
  now : fs.now = base.now
  workingDirectory : fs.workingDirectory = base.workingDirectory
  orderly : fs.Orderly
  shut : base.Shut path → fs = base
  directory : ∀ {place time}, base.get? place = some (.directory time) →
    fs.get? place = some (.directory time)
  outside : ∀ {place}, ¬output <+: place → fs.get? place = base.get? place ∨
    base.get? place = none ∧ place <+: output ∧ fs.get? place = some (.directory base.now)
  linked : ¬base.Shut path → ∀ {place target}, output <+: place → fs.get? place = some (.link target) →
    place ∈ links

namespace Confined

theorem refl (ground : base.Ground path output) : Confined base path output ∅ base where
  now := rfl
  workingDirectory := rfl
  orderly := ground.orderly
  shut _ := rfl
  directory known := known
  outside _ := .inl rfl
  linked unshut {place target} under link := by
    obtain ⟨below, rfl⟩ := under
    exact absurd link (ground.clear below unshut _ (List.prefix_refl _) target)

theorem mono (confined : Confined base path output links fs) (more : links ⊆ links') :
    Confined base path output links' fs :=
  { confined with linked := fun unshut _ _ under link => more (confined.linked unshut under link) }

/-- What stood outside stands there still. -/
theorem get?_outside (confined : Confined base path output links fs) {entry : Entry}
    (known : base.get? place = some entry) (outside : ¬output <+: place) : fs.get? place = some entry := by
  obtain same | ⟨missing, -⟩ := confined.outside outside
  · rw [same, known]
  · rw [known] at missing
    cases missing

theorem carries (ground : base.Ground path output) (confined : Confined base path output links fs) :
    Carries base fs where
  workingDirectory := confined.workingDirectory
  passable {place entry} known solid := by
    by_cases shut : base.Shut path
    · rw [confined.shut shut, known]
    cases entry with
    | directory time => exact confined.directory known
    | file content time => exact absurd rfl (solid content time)
    | link target =>
        refine confined.get?_outside known fun under => ?_
        obtain ⟨below, rfl⟩ := under
        exact ground.clear below shut _ (List.prefix_refl _) target known

/-- One place below the output directory changes, and directories are made above it. -/
theorem change (confined : Confined base path output links fs) (unshut : ¬base.Shut path)
    (under : output <+: place) (now : after.now = fs.now)
    (workingDirectory : after.workingDirectory = fs.workingDirectory) (orderly : after.Orderly)
    (solid : ∀ time, fs.get? place = some (.directory time) → after.get? place = some (.directory time))
    (elsewhere : ∀ other, other ≠ place → after.get? other = fs.get? other ∨
      fs.get? other = none ∧ other <+: place ∧ after.get? other = some (.directory fs.now))
    (linked : ∀ target, after.get? place = some (.link target) → place ∈ links) :
    Confined base path output links after where
  now := now.trans confined.now
  workingDirectory := workingDirectory.trans confined.workingDirectory
  orderly := orderly
  shut shut := absurd shut unshut
  directory {other time} known := by
    have before := confined.directory known
    by_cases same : other = place
    · subst same
      exact solid time before
    · obtain kept | ⟨missing, -⟩ := elsewhere other same
      · rw [kept, before]
      · rw [before] at missing
        cases missing
  outside {other} outside := by
    have different : other ≠ place := fun same => outside (same ▸ under)
    obtain kept | ⟨missing, above, made⟩ := elsewhere other different
    · rw [kept]
      exact confined.outside outside
    · have free : base.get? other = none := by
        obtain same | ⟨free, -⟩ := confined.outside outside
        · rw [← same, missing]
        · exact free
      refine .inr ⟨free, ?_, by rw [made, confined.now]⟩
      exact (List.prefix_or_prefix_of_prefix above under).resolve_right outside
  linked _ {other target} under' link := by
    by_cases same : other = place
    · subst same
      exact linked target link
    · obtain kept | ⟨-, -, made⟩ := elsewhere other same
      · exact confined.linked unshut under' (kept ▸ link)
      · rw [made] at link
        cases link

theorem put {entry : Entry} (confined : Confined base path output links fs) (unshut : ¬base.Shut path)
    (under : output <+: place) (free : ¬fs.IsDirectory place) (put : PutAt place entry fs after)
    (orderly : after.Orderly) (linked : ∀ target, entry = .link target → place ∈ links) :
    Confined base path output links after := by
  refine confined.change unshut under put.now put.workingDirectory orderly
    (fun time known => absurd ⟨time, known⟩ free) (fun other different => ?_) fun target link => ?_
  · rw [put.get?, if_neg different]
    split
    case isFalse => exact .inl rfl
    case isTrue above =>
      cases known : fs.get? other with
      | none => exact .inr ⟨rfl, above, rfl⟩
      | some entry => exact .inl rfl
  · rw [put.get?, if_pos rfl] at link
    exact linked target (Option.some.inj link)

theorem paved (confined : Confined base path output links fs) (unshut : ¬base.Shut path)
    (under : output <+: place) (paved : Paved place fs after) (orderly : after.Orderly) :
    Confined base path output links after := by
  have each (other : Location) : after.get? other = fs.get? other ∨
      fs.get? other = none ∧ other <+: place ∧ after.get? other = some (.directory fs.now) := by
    rw [paved.get?]
    split
    case isFalse => exact .inl rfl
    case isTrue above =>
      cases known : fs.get? other with
      | none => exact .inr ⟨rfl, above, rfl⟩
      | some entry => exact .inl rfl
  refine confined.change unshut under paved.now paved.workingDirectory orderly
    (fun time known => paved.known known) (fun other _ => each other) fun target link => ?_
  obtain kept | ⟨-, -, made⟩ := each place
  · exact confined.linked unshut under (kept ▸ link)
  · rw [made] at link
    cases link

theorem erase (confined : Confined base path output links fs) (unshut : ¬base.Shut path)
    (under : output <+: place) (some_name : place ≠ []) (solid : ¬fs.IsDirectory place) :
    Confined base path output links (fs.erase place) := by
  refine confined.change unshut under rfl rfl (confined.orderly.erase solid)
    (fun time known => absurd ⟨time, known⟩ solid) (fun other different => .inl ?_) fun target link => ?_
  · rw [get?_erase]
    split
    case isTrue root => rw [root, get?, if_pos rfl]
    case isFalse => rfl
  · rw [get?_erase, if_neg some_name, if_pos rfl] at link
    cases link

end Confined

/-! ## Operations -/

/-- Operations after which all is confined if it was before, also if they fail. -/
abbrev Confines {α : Type} (base : FileSystem) (path output : Location) (links : Set Location)
    (action : FileM α) : Prop :=
  Within (Confined base path output links)
    (fun fs after => Confined base path output links fs → Confined base path output links after) action

theorem composes_confined (base : FileSystem) (path output : Location) (links : Set Location) :
    Composes (Confined base path output links)
      fun fs after => Confined base path output links fs → Confined base path output links after :=
  ⟨fun _ => id, fun first second => second ∘ first, fun start step => step start⟩

/-- A path at whose end there may be a link, but not before. -/
structure Passes (base : FileSystem) (path output : Location) (links : Set Location) (below : List String) :
    Prop where
  ground : base.Ground path output
  some_name : below ≠ []
  plain : Plain below
  own : ∀ link ∈ links, link <+: output ++ below → link = output ++ below

namespace Passes

variable (passes : Passes base path output links below)

include passes

theorem exists_route (confined : Confined base path output links fs) (unshut : ¬base.Shut path) :
    ∃ front directory inner name, front ++ (inner ++ [name]) = path ++ below ∧
      directory ++ inner ++ [name] = output ++ below ∧ output <+: directory ++ inner ∧
      fs.Route front directory ∧ Plain (inner ++ [name]) ∧ fs.Linkless (directory ++ inner) := by
  obtain ⟨front, rest, directory, rfl, rfl, route⟩ := passes.ground.exists_route unshut
  obtain ⟨inner, name, rfl⟩ := (List.eq_nil_or_concat below).resolve_left passes.some_name
  rw [List.concat_eq_append] at passes ⊢
  refine ⟨front, directory, rest ++ inner, name, by simp, by simp, by simp,
    route.carries (confined.carries passes.ground) confined.orderly, ?_, ?_⟩
  · rw [List.append_assoc]
    exact Plain.append (fun other member => passes.ground.plain other (by simp [member])) passes.plain
  · intro above inside target link
    rw [← List.append_assoc] at inside
    by_cases under : directory ++ rest <+: above
    · have last := passes.own above (confined.linked unshut under link)
        (inside.trans (by simp [← List.append_assoc]))
      have bound := inside.length_le
      simp only [last, List.length_append, List.length_singleton] at bound
      omega
    · obtain same | ⟨-, -, made⟩ := confined.outside under
      · rw [same] at link
        refine passes.ground.clear [] unshut above ?_ target link
        rw [List.append_nil]
        exact (List.prefix_or_prefix_of_prefix inside (List.prefix_append _ _)).resolve_right under
      · rw [made] at link
        cases link

theorem confines_makeParent :
    Confines base path output links (makeParent (Location.path (path ++ below))) := by
  intro fs _ confined
  by_cases shut : base.Shut path
  · obtain ⟨inner, name, rfl⟩ := (List.eq_nil_or_concat below).resolve_left passes.some_name
    rw [List.concat_eq_append] at passes ⊢
    obtain rfl := confined.shut shut
    rwa [shut.makeParent passes.plain]
  · have orderly := keepsOrder_makeParent (Location.path (path ++ below)) fs confined.orderly
    obtain ⟨front, directory, inner, name, same, there, under, route, plain, linkless⟩ :=
      passes.exists_route confined shut
    rw [← same] at orderly ⊢
    obtain unchanged | paved := route.makeParent_cases plain linkless
    · rwa [unchanged]
    · exact confined.paved shut under paved orderly

/-- A file is written where no link stands, not even at the end. -/
theorem confines_write (free : output ++ below ∉ links) (content : Bytes) :
    Confines base path output links (write (Location.path (path ++ below)) content) := by
  intro fs _ confined
  by_cases shut : base.Shut path
  · obtain rfl := confined.shut shut
    obtain ⟨error, failed⟩ := shut.write passes.some_name passes.plain content
    rwa [failed]
  · have orderly := keepsOrder_write (Location.path (path ++ below)) content fs confined.orderly
    obtain ⟨front, directory, inner, name, same, there, under, route, plain, linkless⟩ :=
      passes.exists_route confined shut
    have linkless' : fs.Linkless (directory ++ inner ++ [name]) := by
      intro above inside target link
      obtain rfl | before := prefix_append_singleton_iff.mp inside
      · rw [there] at link
        exact free (confined.linked shut (List.prefix_append _ _) link)
      · exact linkless above before target link
    rw [← same] at orderly ⊢
    obtain unchanged | ⟨solid, put⟩ := route.write_below plain linkless' content
    · rwa [unchanged]
    · exact confined.put shut (under.trans (List.prefix_append _ _)) solid put orderly (by simp)

theorem confines_writeFile (free : output ++ below ∉ links) (content : Bytes) :
    Confines base path output links (writeFile (Location.path (path ++ below)) content) :=
  (composes_confined base path output links).writeFile (passes.confines_write free)
    passes.confines_makeParent content

theorem confines_copyFile (free : output ++ below ∉ links) (source : Path) :
    Confines base path output links (copyFile source (Location.path (path ++ below))) :=
  (composes_confined base path output links).copyFile (passes.confines_write free)
    passes.confines_makeParent source

theorem confines_makeLink (listed : output ++ below ∈ links) (target : Path) :
    Confines base path output links (makeLink target (Location.path (path ++ below))) := by
  intro fs _ confined
  by_cases shut : base.Shut path
  · obtain rfl := confined.shut shut
    obtain ⟨error, failed⟩ := shut.walk passes.some_name passes.plain false
    rw [makeLink_apply, failed]
    split <;> exact confined
  · have orderly := keepsOrder_makeLink target (Location.path (path ++ below)) fs confined.orderly
    obtain ⟨front, directory, inner, name, same, there, under, route, plain, linkless⟩ :=
      passes.exists_route confined shut
    rw [← same] at orderly ⊢
    obtain unchanged | ⟨missing, put⟩ := route.makeLink_below plain linkless target
    · rwa [unchanged]
    · refine confined.put shut (under.trans (List.prefix_append _ _)) ?_ put orderly fun _ _ => there ▸ listed
      rintro ⟨time, known⟩
      rw [missing] at known
      cases known

theorem confines_removeFile :
    Confines base path output links (removeFile (Location.path (path ++ below))) := by
  intro fs _ confined
  by_cases shut : base.Shut path
  · obtain rfl := confined.shut shut
    obtain ⟨error, failed⟩ := shut.walk passes.some_name passes.plain false
    rw [removeFile_apply, find, failed]
    exact confined
  · obtain ⟨front, directory, inner, name, same, there, under, route, plain, linkless⟩ :=
      passes.exists_route confined shut
    rw [← same]
    obtain unchanged | ⟨solid, erased⟩ := route.removeFile_below plain linkless
    · rwa [unchanged]
    · rw [erased]
      exact confined.erase shut (under.trans (List.prefix_append _ _)) (by simp) solid

/-- A link is recreated at a place for links. -/
theorem confines_copyLink (listed : output ++ below ∈ links) (source : Path) :
    Confines base path output links (copyLink source (Location.path (path ++ below))) :=
  (composes_confined base path output links).copyLink (passes.confines_makeLink listed)
    passes.confines_removeFile passes.confines_makeParent source

end Passes

end StaticSite.FileSystem
