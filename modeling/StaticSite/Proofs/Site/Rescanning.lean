import StaticSite.Proofs.FileSystem.Distinct
import StaticSite.Proofs.FileSystem.Varying
import StaticSite.Proofs.Site.Sources

/-!
Scans of two trees that differ little. A build into an output directory that was not there leaves what the next
scan finds as it was, and what a file contains makes no difference to a scan.
-/

namespace StaticSite

open Location (Plain)

namespace FileSystem

variable {fs other : FileSystem} {directory : Location}

/-! ## The names in a directory -/

/-- The last name of a place in a directory. -/
def nameIn? (directory location : Location) : Option String :=
  match location.getLast? with
  | some name => if location.dropLast == directory then some name else none
  | none => none

theorem eq_append_of_nameIn? {location : Location} {name : String} (named : nameIn? directory location = some name) :
    location = directory ++ [name] := by
  rcases List.eq_nil_or_concat location with rfl | ⟨above, last, rfl⟩
  · cases named
  · simp only [nameIn?, List.concat_eq_append, List.getLast?_concat, List.dropLast_concat] at named
    split at named
    next same =>
      cases named
      rw [List.concat_eq_append, eq_of_beq same]
    · cases named

theorem names_eq (fs : FileSystem) (directory : Location) :
    fs.names directory = ((fs.entries.map (·.1)).filterMap (nameIn? directory)).mergeSort
      fun a b => decide (a ≤ b) := by
  rw [List.filterMap_map]
  rfl

theorem Distinct.nodup_names (distinct : fs.Distinct) (directory : Location) : (fs.names directory).Nodup := by
  rw [names_eq, List.nodup_mergeSort]
  refine (List.nodup_cons.mp distinct).2.filterMap fun location location' name member member' => ?_
  rw [eq_append_of_nameIn? member, eq_append_of_nameIn? member']

theorem pairwise_names (fs : FileSystem) (directory : Location) : (fs.names directory).Pairwise (· ≤ ·) := by
  have trans (a b c : String) (first : decide (a ≤ b) = true) (second : decide (b ≤ c) = true) :
      decide (a ≤ c) = true :=
    decide_eq_true (String.le_trans (of_decide_eq_true first) (of_decide_eq_true second))
  have total (a b : String) : (decide (a ≤ b) || decide (b ≤ a)) = true := by
    simpa using String.le_total a b
  rw [names_eq]
  exact (List.pairwise_mergeSort trans total _).imp of_decide_eq_true

/-- The names of which one is in a directory too are those in that directory. -/
theorem Distinct.names_eq_filter (distinct : fs.Distinct) (distinct' : other.Distinct) (kept : String → Bool)
    (same : ∀ name, (∃ entry, fs.get? (directory ++ [name]) = some entry) ↔
      (∃ entry, other.get? (directory ++ [name]) = some entry) ∧ kept name = true) :
    fs.names directory = (other.names directory).filter kept := by
  have perm : (fs.names directory).Perm ((other.names directory).filter kept) := by
    rw [List.perm_ext_iff_of_nodup (distinct.nodup_names directory) ((distinct'.nodup_names directory).filter _)]
    intro name
    rw [mem_names, same, List.mem_filter, mem_names]
  refine perm.eq_of_pairwise (fun a b _ _ => String.le_antisymm) (pairwise_names fs directory) ?_
  exact (pairwise_names other directory).filter _

end FileSystem

/-! ## A tree in which things were put below the output directory -/

section Grown

open FileSystem (Distinct Tidy)

variable {fs after : FileSystem} {rule : WalkRule} {output directory : Location} {depth depth' : Nat}
  {above above' : List Ancestor}

theorem flatMap_filter {α β : Type} {items : List α} {kept : α → Bool} {first second : α → List β}
    (same : ∀ item ∈ items, kept item = true → first item = second item)
    (nothing : ∀ item ∈ items, kept item = false → second item = []) :
    (items.filter kept).flatMap first = items.flatMap second := by
  induction items with
  | nil => rfl
  | cons item rest ih =>
      have rest_same := ih (fun item member => same item (by simp [member]))
        fun item member => nothing item (by simp [member])
      rw [List.flatMap_cons]
      cases picked : kept item with
      | true => rw [List.filter_cons_of_pos picked, List.flatMap_cons, rest_same, same item (by simp) picked]
      | false =>
          rw [List.filter_cons_of_neg (by simp [picked]), rest_same, nothing item (by simp) picked,
            List.nil_append]

/-- Things were put below an output directory that was not there, with directories where they were missing
above it, and a walk leaves the output directory out. -/
structure Regrown (fs : FileSystem) (rule : WalkRule) (output : Location) (after : FileSystem) : Prop where
  tidy : fs.Tidy
  tidy' : after.Tidy
  distinct : fs.Distinct
  distinct' : after.Distinct
  unfollowed : rule.follow = false
  absent : fs.get? output = none
  outside : ∀ place, ¬output <+: place → after.get? place = fs.get? place ∨
    fs.get? place = none ∧ place <+: output ∧ ∃ time, after.get? place = some (.directory time)
  skips : ∀ front name, output = front ++ [name] → rule.skip name (Location.path output) = true

namespace Regrown

variable (regrown : Regrown fs rule output after)

include regrown

theorem beside {place : Location} {entry : Entry} (known : fs.get? place = some entry) : ¬output <+: place := by
  intro under
  rw [regrown.tidy.orderly.absent_below regrown.absent under] at known
  cases known

/-- What was there is still there. -/
theorem get?_known {place : Location} {entry : Entry} (known : fs.get? place = some entry) :
    after.get? place = some entry := by
  obtain same | ⟨missing, -⟩ := regrown.outside place (regrown.beside known)
  · rw [same, known]
  · rw [known] at missing
    cases missing

/-- In a directory that was made there is nothing that a walk finds. -/
theorem walkDirectory_made (plain : Plain directory) (missing : fs.get? directory = none)
    (outside : ¬output <+: directory) (inside : directory <+: output) :
    walkDirectory after rule depth ⟨directory, Location.path directory⟩ above = [] := by
  refine List.eq_nil_iff_forall_not_mem.mpr fun finding member => ?_
  obtain ⟨names, some_name, -, kept, shows⟩ :=
    (mem_walkDirectory_iff regrown.tidy' regrown.unfollowed _ plain above).mp member
  obtain ⟨entry, there, solid⟩ := shows.exists_entry
  by_cases under : output <+: directory ++ names
  · obtain ⟨way, rfl⟩ := inside
    have further : way ≠ [] := by
      rintro rfl
      exact outside (by simp)
    rw [List.prefix_append_right_inj] at under
    obtain ⟨front, name, rfl⟩ := (List.eq_nil_or_concat way).resolve_left further
    rw [List.concat_eq_append] at under
    have skipped := regrown.skips (directory ++ front) name (by simp)
    rw [List.concat_eq_append, kept.skip under] at skipped
    cases skipped
  · obtain same | ⟨-, -, time, made⟩ := regrown.outside _ under
    · rw [there, regrown.tidy.orderly.absent_below missing (List.prefix_append _ _)] at same
      cases same
    · rw [there] at made
      exact solid time (Option.some.inj made)

/-- Under a new name a walk finds nothing. -/
theorem walkUnder_new {name : String} {entry : Entry} (plain : Plain directory)
    (known : fs.IsDirectory directory) (missing : fs.get? (directory ++ [name]) = none)
    (there : after.get? (directory ++ [name]) = some entry) :
    walkUnder after rule depth ⟨directory, Location.path directory⟩ above name = [] := by
  have longer := regrown.tidy'.plain there
  have path := Location.path_join_name plain longer.last
  simp only [walkUnder, path, visit_of_get? regrown.unfollowed there]
  by_cases under : output <+: directory ++ [name]
  · obtain ⟨time, known⟩ := known
    obtain same | before := List.prefix_concat_iff.mp under
    · rw [← same, regrown.skips directory name same]
      cases entry <;> rfl
    · exact absurd before (regrown.beside known)
  · obtain same | ⟨-, inside, time, made⟩ := regrown.outside _ under
    · rw [there, missing] at same
      cases same
    · rw [there] at made
      cases made
      rw [seen]
      dsimp only
      rw [regrown.walkDirectory_made longer missing under inside, ite_self]

/-- Both walks find the same, if they go down deep enough. -/
theorem walkDirectory_eq (plain : Plain directory) (known : fs.IsDirectory directory)
    (deep : fs.entries.length < directory.length + depth)
    (deep' : after.entries.length < directory.length + depth') :
    walkDirectory fs rule depth ⟨directory, Location.path directory⟩ above =
      walkDirectory after rule depth' ⟨directory, Location.path directory⟩ above' := by
  induction depth generalizing directory depth' above above' with
  | zero =>
      obtain ⟨time, known⟩ := known
      have bound := regrown.tidy.orderly.length_le known
      omega
  | succ depth ih =>
      obtain ⟨time, there⟩ := known
      have bound := regrown.tidy'.orderly.length_le (regrown.get?_known there)
      obtain ⟨depth', rfl⟩ : ∃ less, depth' = less + 1 := ⟨depth' - 1, by omega⟩
      have named (name : String) : (∃ entry, fs.get? (directory ++ [name]) = some entry) ↔
          (∃ entry, after.get? (directory ++ [name]) = some entry) ∧
            (fs.get? (directory ++ [name])).isSome = true := by
        rw [Option.isSome_iff_exists]
        exact ⟨fun ⟨entry, known⟩ => ⟨⟨entry, regrown.get?_known known⟩, entry, known⟩, And.right⟩
      rw [walkDirectory_succ, walkDirectory_succ,
        regrown.distinct.names_eq_filter regrown.distinct' _ named]
      refine flatMap_filter (fun name listed kept => ?_) fun name listed new => ?_
      · obtain ⟨entry, known⟩ := Option.isSome_iff_exists.mp kept
        have longer := regrown.tidy.plain known
        have path := Location.path_join_name plain longer.last
        simp only [walkUnder, path, visit_of_get? regrown.unfollowed known,
          visit_of_get? regrown.unfollowed (regrown.get?_known known)]
        cases entry with
        | file content time => rfl
        | link target => rfl
        | directory time =>
            have deeper : (directory ++ [name]).length = directory.length + 1 := by simp
            dsimp only [seen]
            rw [@ih _ depth' _ (⟨directory, Location.path directory⟩ :: above') longer ⟨time, known⟩ (by omega)
              (by omega)]
      · obtain ⟨entry, known⟩ := FileSystem.mem_names.mp listed
        exact regrown.walkUnder_new plain ⟨time, there⟩ (by simpa using new) known

end Regrown

end Grown

/-! ## Trees that differ in the content of a file -/

section Alike

open FileSystem (Alike)

variable {fs other : FileSystem} {origin : Location}

theorem visit_alike (alike : Alike fs other origin) (rule : WalkRule) (ancestors : List Ancestor)
    (location : Location) (path : Path) :
    visit other rule ancestors location path = visit fs rule ancestors location path := by
  obtain ⟨content, time, file⟩ := alike.file
  obtain ⟨content', time', file'⟩ := alike.file'
  unfold visit
  by_cases here : location = origin
  · rw [here, file, file']
  · rw [alike.elsewhere location here]
    cases fs.get? location with
    | none => rfl
    | some entry =>
        cases entry with
        | directory time => rfl
        | file content time => rfl
        | link target =>
            dsimp only
            obtain same | ⟨content, time, content', time', finds, finds'⟩ := alike.find_cases path
            · rw [same]
            · rw [finds, finds']

section Distinct

variable (alike : Alike fs other origin) (distinct : fs.Distinct) (distinct' : other.Distinct)

include alike distinct distinct'

theorem levels_alike : other.levels = fs.levels := by
  obtain ⟨unlisted, once⟩ := List.nodup_cons.mp distinct
  obtain ⟨unlisted', once'⟩ := List.nodup_cons.mp distinct'
  have perm : (other.entries.map (·.1)).Perm (fs.entries.map (·.1)) := by
    refine (List.perm_ext_iff_of_nodup once' once).mpr fun place => ?_
    by_cases root : place = []
    · rw [root]
      exact iff_of_false unlisted' unlisted
    · rw [← FileSystem.exists_get?_iff root, ← FileSystem.exists_get?_iff root, alike.exists_get?_iff]
  have lengths := perm.length_eq
  rw [List.length_map, List.length_map] at lengths
  rw [FileSystem.levels, FileSystem.levels, lengths]

theorem names_alike (directory : Location) : other.names directory = fs.names directory := by
  have same := distinct'.names_eq_filter distinct (fun _ => true) fun name =>
    (alike.exists_get?_iff (directory ++ [name])).trans (by simp)
  rwa [List.filter_true] at same

theorem walkDirectory_alike (rule : WalkRule) (depth : Nat) (directory : Ancestor) (above : List Ancestor) :
    walkDirectory other rule depth directory above = walkDirectory fs rule depth directory above := by
  induction depth generalizing directory above with
  | zero => rfl
  | succ depth ih =>
      rw [walkDirectory_succ, walkDirectory_succ, names_alike alike distinct distinct']
      refine List.flatMap_congr fun name _ => ?_
      simp only [walkUnder, visit_alike alike, ih]

end Distinct

end Alike

namespace Site

open FileSystem (Alike Distinct Preserves Tidy)

variable {site : Site} {source output origin : Location} {fs after other : FileSystem} {kept : FileSystem → Prop}

/-! ## What a build preserves -/

/-- Whatever holds of the files holds after a build, if it holds after each operation on a file. -/
theorem preserves_renderAll (wrote : ∀ p content, Preserves kept (FileSystem.write p content))
    (made : ∀ p, Preserves kept (FileSystem.makeDirectory p))
    (linked : ∀ target p, Preserves kept (FileSystem.makeLink target p))
    (removed : ∀ p, Preserves kept (FileSystem.removeFile p)) (site : Site) {work : Workspace}
    (holds : kept work.fs) : kept (site.renderAll work).2.fs := by
  cases scanned : site.scan work.fs with
  | error error =>
      have failed : (site.renderAll work).2 = work := by
        simp only [renderAll, bind, StateT.bind, get, getThe, MonadStateOf.get, StateT.get, pure, scanned]
        rfl
      rwa [failed]
  | ok scan =>
      have composes := FileSystem.composes_kept kept
      have parent (p : Path) := (Preserves.makeParent made p).within
      have wrote (p : Path) (content : Bytes) := (wrote p content).within
      have copied (source p : Path) := composes.copyFile (wrote p) (parent p) source
      obtain ⟨outcomes, course, -⟩ := course_buildScan site scan work
      rw [renderAll_eq scanned]
      cases course with
      | parts copies fallbacks pages links =>
          have first := copies.within composes (fun file _ work start _ =>
            change_copyVerbatim composes start (copied file _)) (fun _ _ => trivial) trivial
          have second := fallbacks.within composes (fun file _ work start _ =>
            change_copyInstead composes start (copied file _)) (fun _ _ => trivial) trivial
          have third := pages.within composes (fun job _ work start _ =>
            change_renderPage composes start job.2 (fun bytes => composes.writeFile (wrote _) (parent _) bytes)
              (copied _ _)) (fun _ _ => trivial) trivial
          have fourth := links.within composes (fun link _ work start _ =>
            change_recreateLink start (composes.copyLink (fun target => (linked target _).within)
              (removed _).within (parent _) link)) (fun _ _ => trivial) trivial
          exact fourth (third (second (first holds)))

theorem distinct_renderAll (site : Site) {work : Workspace} (distinct : work.fs.Distinct) :
    (site.renderAll work).2.fs.Distinct :=
  preserves_renderAll FileSystem.distinct_write FileSystem.distinct_makeDirectory FileSystem.distinct_makeLink
    FileSystem.distinct_removeFile site distinct

/-! ## The same scan -/

theorem Rooted.scan_regrown (rooted : Rooted site source output) (known : fs.IsDirectory source)
    (regrown : Regrown fs site.rule output after) : site.scan after = site.scan fs := by
  have known' : after.IsDirectory source := by
    obtain ⟨time, known⟩ := known
    exact ⟨time, regrown.get?_known known⟩
  have same : walkDirectory fs site.rule fs.levels ⟨source, Location.path source⟩ [] =
      walkDirectory after site.rule after.levels ⟨source, Location.path source⟩ [] :=
    regrown.walkDirectory_eq rooted.plain_source known (by rw [FileSystem.levels]; omega)
      (by rw [FileSystem.levels]; omega)
  rw [rooted.scan_eq regrown.tidy known, rooted.scan_eq regrown.tidy' known', same]

theorem Rooted.scan_alike (rooted : Rooted site source output) (known : fs.IsDirectory source) (tidy : fs.Tidy)
    (tidy' : other.Tidy) (distinct : fs.Distinct) (distinct' : other.Distinct) (alike : Alike fs other origin) :
    site.scan other = site.scan fs := by
  have known' : other.IsDirectory source := by
    obtain ⟨time, known⟩ := known
    exact ⟨time, alike.keeps.directory known⟩
  rw [rooted.scan_eq tidy known, rooted.scan_eq tidy' known', levels_alike alike distinct distinct',
    walkDirectory_alike alike distinct distinct']

theorem readPages_congr {sources : List (Path × String × PageFormat)}
    (same : ∀ source ∈ sources,
      Page.read other site.config site.sourceDirectory source.1 source.2.1 source.2.2 =
        Page.read fs site.config site.sourceDirectory source.1 source.2.1 source.2.2) :
    site.readPages other sources = site.readPages fs sources := by
  have each (source : Path × String × PageFormat) (member : source ∈ sources) :
      (source.1, Page.read other site.config site.sourceDirectory source.1 source.2.1 source.2.2) =
        (source.1, Page.read fs site.config site.sourceDirectory source.1 source.2.1 source.2.2) := by
    rw [same source member]
  unfold readPages
  dsimp only
  rw [List.map_congr_left each]

/-- Pages whose sources are found as before are read as before. -/
theorem readPages_of_find {sources : List (Path × String × PageFormat)}
    (same : ∀ file ∈ sources.map (·.1), other.find true file = fs.find true file) :
    site.readPages other sources = site.readPages fs sources := by
  refine readPages_congr fun source member => ?_
  rw [Page.read, Page.read, Page.content, Page.content, same _ (List.mem_map_of_mem member)]

end Site

end StaticSite
