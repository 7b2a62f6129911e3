import StaticSite.Proofs.FileSystem.Stocking
import StaticSite.Proofs.Outcome
import StaticSite.Proofs.Site.Accounting
import StaticSite.Proofs.Site.Unchanged

/-!
Pages that are copied instead of being built. What a build leaves in their places is what stood there, if that is not
older than their sources, and the bytes of the sources otherwise.
-/

namespace StaticSite

open FileSystem (Hangs Leaves Stocked Strung Tidy Within composes_leaves)
open Json (Fields)
open Location (Plain)
open Path (ofNames)

/-- What goes on behind a path goes through a directory. -/
theorem FileSystem.isDirectory_of_walk_behind {fs : FileSystem} {front rest place : Location} {follow : Bool}
    (plain : Plain (front ++ rest)) (some_name : front ≠ []) (goesOn : rest ≠ [])
    (walked : fs.walk follow (Location.path (front ++ rest)) = .ok place) :
    ∃ directory, fs.walk true (Location.path front) = .ok directory ∧ fs.IsDirectory directory := by
  rw [walk, Location.isEmpty_path, if_neg (by simp), if_pos (Path.isAbsolute_location _),
    Location.todo_path plain (by simp [some_name])] at walked
  obtain ⟨directory, walked, known⟩ := exists_walkFrom_front goesOn walked
  refine ⟨directory, ?_, known⟩
  rw [walk, Location.isEmpty_path, if_neg (by simp), if_pos (Path.isAbsolute_location _),
    Location.todo_path (plain.of_prefix (List.prefix_append _ _)) some_name, walked]

namespace Site

variable {site : Site} {source output origin : Location} {base before after : FileSystem} {scan : Scan}
  {work : Workspace} {names : List String} {outcomes : List Outcome} {content : Bytes} {time : Time} {file : Path}

/-! ## Turns -/

/-- The runs before and after a turn. -/
theorem runs_of_mem_turns {α : Type} {step : α → BuildM Outcome} {items : List α} {work : Workspace} {turn : Turn α}
    (member : turn ∈ turns step items work) :
    ∃ front rest first second, items = front ++ turn.item :: rest ∧ Run step front work.fs first turn.work.fs ∧
      Run step rest (step turn.item turn.work).2.fs second (forEach step items work).2.fs := by
  induction items generalizing work with
  | nil => cases member
  | cons item items ih =>
      have ran := forEach_cons (rfl : step item work = ((step item work).1, (step item work).2)) items
      obtain rfl | later := List.mem_cons.mp member
      · refine ⟨[], items, [], (forEach step items (step item work).2).1, rfl, .nil work.fs, ?_⟩
        rw [ran]
        exact run_forEach step items (step item work).2
      · obtain ⟨front, rest, first, second, rfl, run, run'⟩ := ih later
        refine ⟨item :: front, rest, _, second, rfl, .cons work run, ?_⟩
        rw [ran]
        exact run'

/-! ## Places -/

/-- No link stands where a file is put, and none above the place of anything that a scan lists. -/
structure Unlinked (site : Site) (output : Location) (base : FileSystem) (scan : Scan) : Prop where
  copies : ∀ file ∈ scan.pages.map (·.1) ++ scan.files, base.Linkless (output.down (site.within file))
  pages : ∀ page ∈ (site.readPages base scan.pages).1, base.Linkless (output.down page.outputFile)
  links : ∀ link ∈ scan.links, ∀ above, above <+: output.down (site.within link) →
    above ≠ output.down (site.within link) → ∀ target, base.get? above ≠ some (.link target)

/-- A site to build, of which no source lies below the output directory, and no link is in the way. -/
structure Unhindered (site : Site) (source output : Location) (base : FileSystem) (scan : Scan) : Prop where
  rooted : Rooted site source output
  tidy : base.Tidy
  known : base.IsDirectory source
  scanned : site.scan base = .ok scan
  outside : ∀ file ∈ scan.pages.map (·.1) ++ scan.files, ∀ place entry,
    base.find true file = .ok (place, entry) → ¬output <+: place
  unlinked : Unlinked site output base scan

/-- A file among those that a scan lists, and its place below the output directory. -/
structure Copied (site : Site) (source output : Location) (base : FileSystem) (file : Path) (names : List String)
    (content : Bytes) (time : Time) (origin : Location) : Prop where
  path : file = Location.path (source ++ names)
  some_name : names ≠ []
  plain : Plain names
  within : site.within file = ofNames names
  finds : base.find true file = .ok (origin, .file content time)
  outside : ¬output <+: origin
  linkless : base.Linkless (output ++ names)

theorem Copied.placeOf (copied : Copied site source output base file names content time origin)
    (rooted : Rooted site source output) : site.placeOf file = Location.path (output ++ names) := by
  rw [copied.path, rooted.placeOf_path copied.some_name copied.plain]

/-! ## The turn of a page -/

/-- Something newer than the epoch is stale unless what stands in the place of its copy is up to date. -/
theorem isStale_eq_not (site : Site) {fs : FileSystem} (timed : fs.modified file = .ok time) (positive : 0 < time) :
    fs.isStale file (site.placeOf file) = .ok (!site.isUpToDate file fs) := by
  rw [FileSystem.isStale_eq, isUpToDate, timed]
  cases fs.modified (site.placeOf file) with
  | error error => simp [Except.map, Except.toOption, positive]
  | ok made =>
      refine congrArg Except.ok ?_
      rw [← decide_not]
      exact decide_eq_decide.mpr not_le.symm

/-- What stands in the place of a page after its turn, if it is copied. -/
def leftover (site : Site) (base : FileSystem) (file : Path) (place : Location) (content : Bytes) : Option Entry :=
  if site.isUpToDate file base then base.get? place else some (.file content base.now)

theorem Copied.isStale_eq (copied : Copied site source output base file names content time origin)
    (rooted : Rooted site source output) (orderly : base.Orderly) {fs : FileSystem} (stocked : Stocked base output fs)
    (same : fs.get? (output ++ names) = base.get? (output ++ names)) :
    fs.isStale file (site.placeOf file) = base.isStale file (site.placeOf file) := by
  have plain : Plain (output ++ names) := rooted.plain_output.append copied.plain
  have some_name : output ++ names ≠ [] := by simp [copied.some_name]
  have made := (stocked.linkless copied.linkless).modified stocked.orderly plain some_name
  have made' := copied.linkless.modified orderly plain some_name
  have timed := FileSystem.modified_of_find copied.finds
  have timed' := FileSystem.modified_of_find (stocked.find copied.finds copied.outside)
  rw [FileSystem.isStale_eq, FileSystem.isStale_eq, timed, timed', copied.placeOf rooted, made, made', same]

theorem Copied.lands (copied : Copied site source output base file names content time origin)
    (rooted : Rooted site source output) (orderly : base.Orderly) (positive : 0 < time) {mid : Workspace}
    (stocked : Stocked base output mid.fs)
    (same : mid.fs.get? (output ++ names) = base.get? (output ++ names)) (settled : site.isSettled file mid.fs) :
    Stocked base output (site.copyInstead file mid).2.fs ∧
      (site.copyInstead file mid).2.fs.get? (output ++ names) =
        site.leftover base file (output ++ names) content := by
  have stale := copied.isStale_eq rooted orderly stocked same
  rw [isStale_eq_not site (FileSystem.modified_of_find copied.finds) positive] at stale
  rw [copyInstead_apply, stale, leftover]
  cases upToDate : site.isUpToDate file base with
  | true => exact ⟨stocked, same⟩
  | false =>
      have place := copied.placeOf rooted
      have apart : origin ≠ output ++ names := fun same => copied.outside (same ▸ List.prefix_append _ _)
      obtain ⟨size, after, done, writable, put⟩ | ⟨error, failed⟩ :=
        (stocked.linkless copied.linkless).copyFile stocked.orderly (rooted.plain_output.append copied.plain)
          (by simp [copied.some_name]) (stocked.find copied.finds copied.outside) apart
      · have there : after.get? (output ++ names) = some (.file content base.now) := by
          rw [put.get?, if_pos rfl, stocked.now]
        rw [place, done]
        exact ⟨stocked.put (List.prefix_append _ _) writable put, there⟩
      · rw [isSettled, isSpared_eq, isCopied, stale, upToDate, place, failed] at settled
        cases settled

/-- A page that cannot be built leaves the files as they are. -/
theorem fs_buildPage {page : Page} {bindings : Fields} {location : Location}
    (place : site.outputDirectory.join page.outputFile = Location.path location) (plain : Plain location)
    (some_name : location ≠ []) (orderly : work.fs.Orderly) (linkless : work.fs.Linkless location)
    (failed : (site.buildPage page bindings work).1.toBool = false) :
    (site.buildPage page bindings work).2.fs = work.fs := by
  have same := reads_pageOutput site page bindings work
  rw [buildPage_apply] at failed ⊢
  generalize site.pageOutput page bindings work = outcome at same failed ⊢
  obtain ⟨error | bytes, after⟩ := outcome
  · exact same
  · dsimp only at same failed ⊢
    rw [place, same] at failed ⊢
    obtain ⟨written, wrote, -, -⟩ | ⟨error, refused⟩ := linkless.writeFile orderly plain some_name bytes
    · rw [wrote] at failed
      cases failed
    · rw [refused]

namespace Unhindered

variable (unhindered : Unhindered site source output base scan)

include unhindered

theorem exists_copied (member : file ∈ scan.pages.map (·.1) ++ scan.files) :
    ∃ names content time origin, Copied site source output base file names content time origin := by
  obtain ⟨rooted, tidy, known, scanned, outside, unlinked⟩ := unhindered
  obtain ⟨names, listed, plain, path⟩ := rooted.exists_listed tidy known scanned (List.mem_append_left _ member)
  obtain ⟨origin, content, time, finds⟩ := rooted.exists_find tidy known scanned member
  have within : site.within file = ofNames names := by rw [path, rooted.within_path listed.some_name plain]
  have linkless := unlinked.copies file member
  rw [within, Location.down_ofNames _ plain] at linkless
  exact ⟨names, content, time, origin, path, listed.some_name, plain, within, finds, outside file member _ _ finds,
    linkless⟩

/-- Whatever a scan lists is there. -/
theorem exists_walk {others : List String} (listed : Location.path (source ++ others) ∈ scan.listed) :
    ∃ follow place, base.walk follow (Location.path (source ++ others)) = .ok place := by
  obtain ⟨rooted, tidy, known, scanned, -, -⟩ := unhindered
  obtain among | link := List.mem_append.mp listed
  · obtain ⟨origin, content, time, finds⟩ := rooted.exists_find tidy known scanned among
    exact ⟨true, origin, FileSystem.walk_of_find finds⟩
  · obtain ⟨names, target, listed, same, there⟩ := rooted.exists_of_mem_links tidy known scanned link
    have finds : base.find false (Location.path (source ++ names)) = _ :=
      tidy.orderly.find_path (tidy.plain there) (by simp [listed.some_name]) there (by simp)
    exact ⟨false, _, same ▸ FileSystem.walk_of_find finds⟩

section Beside

variable {others : List String} (copied : Copied site source output base file names content time origin)
  (plain : Plain others)

include copied plain

/-- Nothing is listed behind a file. -/
theorem beside_listed (listed : Location.path (source ++ others) ∈ scan.listed) (different : others ≠ names) :
    Beside (output ++ names) (output ++ others) := by
  intro inside
  rw [List.prefix_append_right_inj] at inside
  obtain ⟨rest, rfl⟩ := inside
  obtain ⟨follow, place, walked⟩ := unhindered.exists_walk listed
  have whole : Plain (source ++ names ++ rest) := by
    rw [List.append_assoc]
    exact unhindered.rooted.plain_source.append plain
  rw [← List.append_assoc] at walked
  obtain ⟨directory, reached, time, there⟩ := FileSystem.isDirectory_of_walk_behind whole
    (by simp [copied.some_name]) (by simpa using different) walked
  have finds := copied.finds
  rw [copied.path] at finds
  obtain rfl := Except.ok.inj (reached.symm.trans (FileSystem.walk_of_find finds))
  rw [FileSystem.get?_of_find finds] at there
  cases there

/-- No page is written behind a file. -/
theorem beside_page {page : Page} (read : page ∈ (site.readPages base scan.pages).1)
    (outputFile : page.outputFile = ofNames others) (some_name : others ≠ []) (different : others ≠ names) :
    Beside (output ++ names) (output ++ others) := by
  intro inside
  obtain ⟨directories, name, target, plain_source, plain_target, sourceFile, outputFile'⟩ :=
    unhindered.rooted.exists_siblings unhindered.tidy unhindered.known unhindered.scanned read
  obtain rfl := Path.ofNames_injective some_name (by simp) plain plain_target (outputFile.symm.trans outputFile')
  rw [List.prefix_append_right_inj] at inside
  obtain same | above := List.prefix_concat_iff.mp inside
  · exact different same.symm
  · -- the source of the page lies in the same directory
    have listed : Location.path (source ++ (directories ++ [name])) ∈ scan.listed := by
      obtain ⟨file, extension, format, listing, read⟩ := exists_of_mem_readPages read
      rw [Page.sourceFile_of_read read] at sourceFile
      exact List.mem_append_left _ (List.mem_append_left _ (List.mem_map.mpr ⟨_, listing, sourceFile⟩))
    refine unhindered.beside_listed copied plain_source listed ?_ ?_
    · rintro rfl
      have bound := above.length_le
      rw [List.length_append, List.length_singleton] at bound
      omega
    · exact (List.prefix_append_right_inj output).mpr (above.trans (List.prefix_append _ _))

end Beside

/-! ## What is done elsewhere -/

section Elsewhere

variable (copied : Copied site source output base file names content time origin)

include copied

theorem leaves_copyFile {other : Path} (member : other ∈ scan.pages.map (·.1) ++ scan.files)
    (away : site.within other ≠ ofNames names) :
    Within (Stocked base output) (Leaves (Stocked base output) (output ++ names))
      (FileSystem.copyFile other (site.placeOf other)) := by
  obtain ⟨others, content', time', origin', there⟩ := unhindered.exists_copied member
  have different : others ≠ names := by
    rintro rfl
    exact away there.within
  have beside := unhindered.beside_listed copied there.plain (there.path ▸ List.mem_append_left _ member) different
  rw [there.placeOf unhindered.rooted]
  exact FileSystem.leaves_copyFile (unhindered.rooted.plain_output.append there.plain) (by simp [there.some_name])
    (List.prefix_append _ _) there.linkless beside there.finds there.outside

theorem leaves_writeFile {page : Page} (read : page ∈ (site.readPages base scan.pages).1)
    (away : page.outputFile ≠ ofNames names) (bytes : Bytes) :
    Within (Stocked base output) (Leaves (Stocked base output) (output ++ names))
      (FileSystem.writeFile (site.outputDirectory.join page.outputFile) bytes) := by
  have rooted := unhindered.rooted
  obtain ⟨-, below, -, -, some_name, plain, -, outputFile⟩ :=
    rooted.exists_names unhindered.tidy unhindered.known unhindered.scanned read
  have different : below ≠ names := by
    rintro rfl
    exact away outputFile
  have beside := unhindered.beside_page copied plain read outputFile some_name different
  have linkless := unhindered.unlinked.pages page read
  rw [outputFile, Location.down_ofNames _ plain] at linkless
  rw [outputFile, rooted.join_ofNames some_name plain]
  exact FileSystem.leaves_writeFile (rooted.plain_output.append plain) (by simp [some_name])
    (List.prefix_append _ _) linkless beside bytes

theorem leaves_copyLink {link : Path} (member : link ∈ scan.links) (away : site.within link ≠ ofNames names) :
    Within (Strung base (linkPlaces site source output base))
      (Leaves (Strung base (linkPlaces site source output base)) (output ++ names))
      (FileSystem.copyLink link (site.placeOf link)) := by
  have rooted := unhindered.rooted
  have tidy := unhindered.tidy
  obtain ⟨others, target, listed, path, there⟩ :=
    rooted.exists_of_mem_links tidy unhindered.known unhindered.scanned member
  have plain := plain_names tidy there
  have within : site.within link = ofNames others := by rw [path, rooted.within_path listed.some_name plain]
  have different : others ≠ names := by
    rintro rfl
    exact away within
  have beside := unhindered.beside_listed copied plain (path ▸ List.mem_append_right _ member) different
  have free := unhindered.unlinked.links link member
  rw [within, Location.down_ofNames _ plain] at free
  have among : output ++ others ∈ linkPlaces site source output base := ⟨others, target, rfl, listed, there⟩
  have hangs : Hangs base (linkPlaces site source output base) (output ++ others) :=
    ⟨rooted.plain_output.append plain, by simp [listed.some_name], among, free,
      fun place other inside => eq_of_linkPlaces tidy other among inside⟩
  rw [path, rooted.placeOf_path listed.some_name plain]
  exact hangs.leaves_copyLink beside _

theorem leaves_copies {items : List Path} (among : ∀ other ∈ items, other ∈ scan.pages.map (·.1) ++ scan.files)
    (away : ∀ other ∈ items, site.within other ≠ ofNames names)
    (run : Run site.copyVerbatim items before outcomes after) (stocked : Stocked base output before) :
    Stocked base output after ∧ after.get? (output ++ names) = before.get? (output ++ names) := by
  refine run.within (composes_leaves (Stocked base output) (output ++ names)) (fun other member work start _ => ?_)
    (fun _ _ => trivial) stocked stocked
  exact change_copyVerbatim (composes_leaves (Stocked base output) (output ++ names)) start
    (unhindered.leaves_copyFile copied (among other member) (away other member))

theorem leaves_fallbacks {items : List Path} (among : ∀ other ∈ items, other ∈ scan.pages.map (·.1) ++ scan.files)
    (away : ∀ other ∈ items, site.within other ≠ ofNames names)
    (run : Run site.copyInstead items before outcomes after) (stocked : Stocked base output before) :
    Stocked base output after ∧ after.get? (output ++ names) = before.get? (output ++ names) := by
  refine run.within (composes_leaves (Stocked base output) (output ++ names)) (fun other member work start _ => ?_)
    (fun _ _ => trivial) stocked stocked
  exact change_copyInstead (composes_leaves (Stocked base output) (output ++ names)) start
    (unhindered.leaves_copyFile copied (among other member) (away other member))

theorem leaves_pages {items : List (Page × Fields)} (among : ∀ job ∈ items, job ∈ site.jobsOf base scan)
    (away : ∀ job ∈ items, ofNames names ∉ site.targets job.1)
    (run : Run (fun job => site.renderPage job.1 job.2) items before outcomes after)
    (stocked : Stocked base output before) :
    Stocked base output after ∧ after.get? (output ++ names) = before.get? (output ++ names) := by
  refine run.within (composes_leaves (Stocked base output) (output ++ names)) (fun job member work start _ => ?_)
    (fun _ _ => trivial) stocked stocked
  have away := away job member
  simp only [targets, List.mem_cons, List.not_mem_nil, or_false, not_or] at away
  have among := among job member
  exact change_renderPage (composes_leaves (Stocked base output) (output ++ names)) start job.2
    (unhindered.leaves_writeFile copied (page_mem_of_mem_jobs among) (Ne.symm away.1))
    (unhindered.leaves_copyFile copied (List.mem_append_left _ (source_of_mem_jobs among)) (Ne.symm away.2))

theorem leaves_links {items : List Path} (among : ∀ link ∈ items, link ∈ scan.links)
    (away : ∀ link ∈ items, site.within link ≠ ofNames names)
    (run : Run site.recreateLink items before outcomes after)
    (strung : Strung base (linkPlaces site source output base) before) :
    Strung base (linkPlaces site source output base) after ∧
      after.get? (output ++ names) = before.get? (output ++ names) := by
  refine run.within (composes_leaves (Strung base (linkPlaces site source output base)) (output ++ names))
    (fun link member work start _ => ?_) (fun _ _ => trivial) strung strung
  exact change_recreateLink start (unhindered.leaves_copyLink copied (among link member) (away link member))

end Elsewhere

/-- What a page leaves in the place of its copy, if it is not built. -/
theorem lands_renderPage {turn : Turn (Page × Fields)} (read : turn.item.1 ∈ (site.readPages base scan.pages).1)
    (copied : Copied site source output base turn.item.1.sourceFile names content time origin) (positive : 0 < time)
    (stocked : Stocked base output turn.work.fs)
    (same : turn.work.fs.get? (output ++ names) = base.get? (output ++ names)) (instead : site.isCopiedInstead turn) :
    Stocked base output (site.renderPage turn.item.1 turn.item.2 turn.work).2.fs ∧
      (site.renderPage turn.item.1 turn.item.2 turn.work).2.fs.get? (output ++ names) =
        site.leftover base turn.item.1.sourceFile (output ++ names) content := by
  have rooted := unhindered.rooted
  obtain ⟨-, below, -, -, some_name, plain, -, outputFile⟩ :=
    rooted.exists_names unhindered.tidy unhindered.known unhindered.scanned read
  have place : site.outputDirectory.join turn.item.1.outputFile = Location.path (output ++ below) := by
    rw [outputFile, rooted.join_ofNames some_name plain]
  have linkless := unhindered.unlinked.pages turn.item.1 read
  rw [outputFile, Location.down_ofNames _ plain] at linkless
  obtain ⟨unwritten, settled⟩ := Bool.and_eq_true_iff.mp instead
  rw [isWritten_eq, Bool.not_eq_true'] at unwritten
  have unchanged := fs_buildPage place (rooted.plain_output.append plain) (by simp [some_name]) stocked.orderly
    (stocked.linkless linkless) unwritten
  rw [renderPage_apply]
  generalize site.buildPage turn.item.1 turn.item.2 turn.work = outcome at unwritten settled unchanged ⊢
  obtain ⟨error | done, after⟩ := outcome
  · dsimp only at settled unchanged ⊢
    rw [← unchanged] at stocked same
    exact copied.lands rooted unhindered.tidy.orderly positive stocked same settled
  · cases unwritten

end Unhindered

/-! ## A whole build -/

/-- The pages that a build copies instead of building them. -/
def unbuilt (site : Site) (scan : Scan) (work : Workspace) : List Path :=
  ((site.account scan work).unread.filter fun turn => site.isSettled turn.item turn.work.fs).map (·.item) ++
    ((site.account scan work).pages.filter site.isCopiedInstead).map (·.item.1.sourceFile)

theorem length_unbuilt (site : Site) (scan : Scan) (work : Workspace) :
    (site.unbuilt scan work).length = (site.buildScan scan work).1.fallbacks := by
  rw [(account_counts site scan work).fallbacks, unbuilt, List.length_append, List.length_map, List.length_map,
    List.countP_eq_length_filter, List.countP_eq_length_filter]

theorem page_of_mem_unbuilt (member : file ∈ site.unbuilt scan work) : file ∈ scan.pages.map (·.1) := by
  have covers := account_covers site scan work
  rw [unbuilt, List.mem_append, List.mem_map, List.mem_map] at member
  obtain ⟨turn, among, rfl⟩ | ⟨turn, among, rfl⟩ := member
  · have listed := List.mem_map_of_mem (f := (·.item)) (List.mem_of_mem_filter among)
    rw [covers.unread] at listed
    obtain ⟨listing, among, same⟩ := List.mem_map.mp listed
    exact List.mem_map.mpr ⟨listing, List.mem_of_mem_filter among, same⟩
  · have listed := List.mem_map_of_mem (f := (·.item.1)) (List.mem_of_mem_filter among)
    obtain ⟨⟨file, extension, format⟩, listing, read⟩ := List.mem_filterMap.mp (covers.pages.mem_iff.mp listed)
    rw [Page.sourceFile_of_read (eq_ok_of_toOption read)]
    exact List.mem_map.mpr ⟨_, listing, rfl⟩

/-- If lists have nothing in common, what is in one of them is in none of those around it. -/
theorem not_mem_around {α : Type} {lists : List (List α)} (distinct : lists.Pairwise List.Disjoint)
    (front : List (List α)) (own : List α) (rest : List (List α)) (split : lists = front ++ own :: rest) {target : α}
    (among : target ∈ own) : ∀ other ∈ front ++ rest, target ∉ other := by
  rw [split, List.pairwise_middle fun apart => List.disjoint_comm.mp apart] at distinct
  exact fun other member among' => (List.pairwise_cons.mp distinct).1 other member among among'

/-- Nothing else is put in the place of a page. -/
structure Sole (site : Site) (scan : Scan) (place : Path) (unread : List Path) (jobs : List (Page × Fields)) :
    Prop where
  files : ∀ file ∈ scan.files, site.within file ≠ place
  unread : ∀ file ∈ unread, site.within file ≠ place
  pages : ∀ job ∈ jobs, place ∉ site.targets job.1
  links : ∀ link ∈ scan.links, site.within link ≠ place

section Sole

variable (distinct : (site.entryTargets base scan).Pairwise List.Disjoint)

include distinct

theorem sole_unread {front rest : List Path} (split : site.unread base scan = front ++ file :: rest) :
    Sole site scan (site.within file) (front ++ rest) (site.jobsOf base scan) := by
  have around := not_mem_around distinct
    (scan.files.map (fun file => [site.within file]) ++ front.map fun file => [site.within file]) [site.within file]
    (rest.map (fun file => [site.within file]) ++
      ((site.jobsOf base scan).map (fun job => site.targets job.1) ++ scan.links.map fun link => [site.within link]))
    (by simp [entryTargets, split]) (List.mem_singleton_self (site.within file))
  simp only [List.mem_append, List.mem_map] at around
  constructor
  · exact fun other member same => around _ (.inl (.inl ⟨other, member, rfl⟩)) (by simp [same])
  · intro other member same
    obtain before | behind := List.mem_append.mp member
    · exact around _ (.inl (.inr ⟨other, before, rfl⟩)) (by simp [same])
    · exact around _ (.inr (.inl ⟨other, behind, rfl⟩)) (by simp [same])
  · exact fun job member => around _ (.inr (.inr (.inl ⟨job, member, rfl⟩)))
  · exact fun link member same => around _ (.inr (.inr (.inr ⟨link, member, rfl⟩))) (by simp [same])

theorem sole_page {front rest : List (Page × Fields)} {job : Page × Fields}
    (split : site.jobsOf base scan = front ++ job :: rest) :
    Sole site scan (site.within job.1.sourceFile) (site.unread base scan) (front ++ rest) := by
  have among : site.within job.1.sourceFile ∈ site.targets job.1 := by simp [targets]
  have around := not_mem_around distinct
    (scan.files.map (fun file => [site.within file]) ++
      ((site.unread base scan).map (fun file => [site.within file]) ++ front.map fun job => site.targets job.1))
    (site.targets job.1)
    (rest.map (fun job => site.targets job.1) ++ scan.links.map fun link => [site.within link])
    (by simp [entryTargets, split]) among
  simp only [List.mem_append, List.mem_map (l := site.unread base scan), List.mem_map (l := scan.files),
    List.mem_map (l := scan.links), List.mem_map (l := front), List.mem_map (l := rest)] at around
  constructor
  · exact fun other member same => around _ (.inl (.inl ⟨other, member, rfl⟩)) (by simp [same])
  · exact fun other member same => around _ (.inl (.inr (.inl ⟨other, member, rfl⟩))) (by simp [same])
  · intro other member
    obtain before | behind := List.mem_append.mp member
    · exact around _ (.inl (.inr (.inr ⟨other, before, rfl⟩)))
    · exact around _ (.inr (.inl ⟨other, behind, rfl⟩))
  · exact fun link member same => around _ (.inr (.inr ⟨link, member, rfl⟩)) (by simp [same])

end Sole

/-- The turns of a build's pages, and the runs around them. -/
structure Phases (site : Site) (scan : Scan) (work reading rendering : Workspace) : Prop where
  copies : ∃ outcomes, Run site.copyVerbatim scan.files work.fs outcomes reading.fs
  unread : (site.account scan work).unread = turns site.copyInstead (site.unread work.fs scan) reading
  fallen : (forEach site.copyInstead (site.unread work.fs scan) reading).2.fs = rendering.fs
  pages : (site.account scan work).pages =
    turns (fun job => site.renderPage job.1 job.2) (site.jobsOf work.fs scan) rendering
  links : ∃ outcomes, Run site.recreateLink scan.links
    (forEach (fun job => site.renderPage job.1 job.2) (site.jobsOf work.fs scan) rendering).2.fs outcomes
    (site.buildScan scan work).2.fs

theorem exists_phases (site : Site) (scan : Scan) (work : Workspace) :
    ∃ reading rendering, Phases site scan work reading rendering := by
  obtain ⟨copied, fallen, built, linked, first, second, third, fourth, stages⟩ := exists_stages site scan work
  have files := stages.fs_eq
  obtain ⟨copies, fallbacks, pages, relinks⟩ := stages
  let links := Links.ofPages (site.readPages work.fs scan.pages).1
  refine ⟨noting copied ((site.readPages work.fs scan.pages).2.map fun unread =>
      site.unreadNotice unread.1 unread.2),
    noting (noting fallen (links.conflicts.map .conflict)) (links.tree?.toList.map .pageTree), ?_⟩
  have copied_run : Run site.copyVerbatim scan.files work.fs first copied.fs := run_of_forEach copies rfl
  constructor
  · exact ⟨first, copied_run⟩
  · simp only [account, copies]
  · exact congrArg (fun ran => ran.2.fs) fallbacks
  · simp only [account, copies, fallbacks]
    rfl
  · refine ⟨fourth, ?_⟩
    rw [files]
    have ran := congrArg (fun ran => ran.2.fs) pages
    exact run_of_forEach relinks ran.symm

section Whole

variable (unhindered : Unhindered site source output work.fs scan)
  (distinct : (site.entryTargets work.fs scan).Pairwise List.Disjoint)

include unhindered distinct

/-- What a build leaves in the place of a page that it cannot read. -/
theorem Unhindered.get?_unread {turn : Turn Path} (member : turn ∈ (site.account scan work).unread)
    (settled : site.isSettled turn.item turn.work.fs)
    (copied : Copied site source output work.fs turn.item names content time origin) (positive : 0 < time) :
    (site.buildScan scan work).2.fs.Orderly ∧ (site.buildScan scan work).2.fs.get? (output ++ names) =
      site.leftover work.fs turn.item (output ++ names) content := by
  have orderly := unhindered.tidy.orderly
  obtain ⟨reading, rendering, phases⟩ := exists_phases site scan work
  obtain ⟨_, copies⟩ := phases.copies
  obtain ⟨_, links⟩ := phases.links
  rw [phases.unread] at member
  obtain ⟨front, rest, first, second, split, run, run'⟩ := runs_of_mem_turns member
  rw [phases.fallen] at run'
  have sole := sole_unread distinct split
  rw [copied.within] at sole
  have unread (other : Path) (among : other ∈ front ++ turn.item :: rest) :
      other ∈ scan.pages.map (·.1) ++ scan.files := by
    rw [← split] at among
    exact List.mem_append_left _ (source_of_mem_unread among)
  obtain ⟨stocked, same⟩ := unhindered.leaves_copies copied (fun other member => List.mem_append_right _ member)
    sole.files copies (.refl orderly)
  obtain ⟨stocked, same'⟩ := unhindered.leaves_fallbacks copied
    (fun other member => unread other (List.mem_append_left _ member))
    (fun other member => sole.unread other (List.mem_append_left _ member)) run stocked
  obtain ⟨stocked, landed⟩ := copied.lands unhindered.rooted orderly positive stocked (same'.trans same) settled
  obtain ⟨stocked, kept⟩ := unhindered.leaves_fallbacks copied
    (fun other member => unread other (List.mem_append_right _ (List.mem_cons_of_mem _ member)))
    (fun other member => sole.unread other (List.mem_append_right _ member)) run' stocked
  have rendered := run_forEach (fun job : Page × Fields => site.renderPage job.1 job.2) (site.jobsOf work.fs scan)
    rendering
  obtain ⟨stocked, kept'⟩ := unhindered.leaves_pages copied (fun job member => member) sole.pages rendered stocked
  obtain ⟨strung, kept''⟩ := unhindered.leaves_links copied (fun link member => member) sole.links links
    (stocked.strung _)
  exact ⟨strung.orderly, kept''.trans (kept'.trans (kept.trans landed))⟩

/-- What a build leaves in the place of the copy of a page that it reads, but does not build. -/
theorem Unhindered.get?_page {turn : Turn (Page × Fields)} (member : turn ∈ (site.account scan work).pages)
    (instead : site.isCopiedInstead turn)
    (copied : Copied site source output work.fs turn.item.1.sourceFile names content time origin)
    (positive : 0 < time) :
    (site.buildScan scan work).2.fs.Orderly ∧ (site.buildScan scan work).2.fs.get? (output ++ names) =
      site.leftover work.fs turn.item.1.sourceFile (output ++ names) content := by
  obtain ⟨reading, rendering, phases⟩ := exists_phases site scan work
  obtain ⟨_, copies⟩ := phases.copies
  obtain ⟨_, links⟩ := phases.links
  rw [phases.pages] at member
  obtain ⟨front, rest, first, second, split, run, run'⟩ := runs_of_mem_turns member
  have sole := sole_page distinct split
  rw [copied.within] at sole
  have job (other : Page × Fields) (among : other ∈ front ++ turn.item :: rest) : other ∈ site.jobsOf work.fs scan :=
    split ▸ among
  have read := run_forEach site.copyInstead (site.unread work.fs scan) reading
  rw [phases.fallen] at read
  obtain ⟨stocked, same⟩ := unhindered.leaves_copies copied (fun other member => List.mem_append_right _ member)
    sole.files copies (.refl unhindered.tidy.orderly)
  obtain ⟨stocked, same'⟩ := unhindered.leaves_fallbacks copied
    (fun other member => List.mem_append_left _ (source_of_mem_unread member)) sole.unread read stocked
  obtain ⟨stocked, same''⟩ := unhindered.leaves_pages copied
    (fun other member => job other (List.mem_append_left _ member))
    (fun other member => sole.pages other (List.mem_append_left _ member)) run stocked
  obtain ⟨stocked, landed⟩ := unhindered.lands_renderPage (page_mem_of_mem_jobs (job turn.item (by simp))) copied
    positive stocked (same''.trans (same'.trans same)) instead
  obtain ⟨stocked, kept⟩ := unhindered.leaves_pages copied
    (fun other member => job other (List.mem_append_right _ (List.mem_cons_of_mem _ member)))
    (fun other member => sole.pages other (List.mem_append_right _ member)) run' stocked
  obtain ⟨strung, kept'⟩ := unhindered.leaves_links copied (fun link member => member) sole.links links
    (stocked.strung _)
  exact ⟨strung.orderly, kept'.trans (kept.trans landed)⟩

end Whole

/-- How what is left in a place reads. -/
theorem Copied.read_leftover (copied : Copied site source output base file names content time origin)
    (rooted : Rooted site source output) (orderly : base.Orderly) (orderly' : after.Orderly)
    (left : after.get? (output ++ names) = site.leftover base file (output ++ names) content) :
    after.read (site.placeOf file) =
      if site.isUpToDate file base then base.read (site.placeOf file) else .ok content := by
  have plain : Plain (output ++ names) := rooted.plain_output.append copied.plain
  have some_name : output ++ names ≠ [] := by simp [copied.some_name]
  have place := copied.placeOf rooted
  have modified := copied.linkless.modified orderly plain some_name
  rw [leftover] at left
  cases upToDate : site.isUpToDate file base with
  | false =>
      rw [upToDate, if_neg Bool.false_ne_true] at left
      rw [place, if_neg Bool.false_ne_true]
      exact FileSystem.read_of_find (orderly'.find_path plain some_name left (by simp))
  | true =>
      rw [upToDate, if_pos rfl] at left
      rw [isUpToDate, place] at upToDate
      rw [place, if_pos rfl]
      -- something stands there, and it is no link
      cases made : base.modified (Location.path (output ++ names)) with
      | error error =>
          rw [made] at upToDate
          split at upToDate <;> simp_all
      | ok time =>
          rw [made] at modified
          obtain ⟨entry, there, timed⟩ := Option.bind_eq_some_iff.mp modified.symm
          have solid : true = true → ∀ target, entry ≠ .link target := by
            rintro - target rfl
            cases timed
          rw [FileSystem.read, FileSystem.read, orderly.find_path plain some_name there solid,
            orderly'.find_path plain some_name (left.trans there) solid]

/-- After a build, what is in the place of a page that was copied instead of being built is what was there before, if
that is not older than the page's source. Otherwise it is what the source holds. -/
theorem unbuilt_pages_read {config : Config} {source? output? : Option Path} (tidy : work.fs.Tidy)
    (prepared : Site.prepare work.fs config source? output? = .ok site) (scanned : site.scan work.fs = .ok scan)
    (distinct : (site.entryTargets work.fs scan).Pairwise List.Disjoint)
    (outside : ∀ file ∈ scan.pages.map (·.1) ++ scan.files, ∀ place entry,
      work.fs.find true file = .ok (place, entry) → ¬site.outputDirectory.names <+: place)
    (unlinked : Unlinked site site.outputDirectory.names work.fs scan)
    (positive : ∀ file ∈ scan.pages.map (·.1), ∀ time, work.fs.modified file = .ok time → 0 < time) :
    ∃ summary, (site.renderAll work).1 = .ok summary ∧ (site.unbuilt scan work).length = summary.fallbacks ∧
      ∀ file ∈ site.unbuilt scan work, ∃ content, work.fs.read file = .ok content ∧
        (site.renderAll work).2.fs.read (site.placeOf file) =
          if site.isUpToDate file work.fs then work.fs.read (site.placeOf file) else .ok content := by
  obtain ⟨source, output, rooted, known, -⟩ := exists_rooted_of_prepare tidy prepared
  rw [rooted.names_outputDirectory] at outside unlinked
  have unhindered : Unhindered site source output work.fs scan := ⟨rooted, tidy, known, scanned, outside, unlinked⟩
  rw [renderAll_eq scanned]
  refine ⟨_, rfl, length_unbuilt site scan work, fun file member => ?_⟩
  have page := page_of_mem_unbuilt member
  obtain ⟨names, content, time, origin, copied⟩ := unhindered.exists_copied (List.mem_append_left _ page)
  have dated := positive file page time (FileSystem.modified_of_find copied.finds)
  refine ⟨content, FileSystem.read_of_find copied.finds, ?_⟩
  obtain ⟨orderly, left⟩ : (site.buildScan scan work).2.fs.Orderly ∧
      (site.buildScan scan work).2.fs.get? (output ++ names) =
        site.leftover work.fs file (output ++ names) content := by
    rw [unbuilt, List.mem_append, List.mem_map, List.mem_map] at member
    obtain ⟨turn, among, rfl⟩ | ⟨turn, among, rfl⟩ := member
    · obtain ⟨among, settled⟩ := List.mem_filter.mp among
      exact unhindered.get?_unread distinct among settled copied dated
    · obtain ⟨among, instead⟩ := List.mem_filter.mp among
      exact unhindered.get?_page distinct among instead copied dated
  exact copied.read_leftover rooted tidy.orderly orderly left

/-! ## A layout that breaks between two builds -/

section Sample

theorem distinct_bare {files : FileSystem}
    (first : Page.content files ⟨"/s/a.html"⟩ = Page.content barePages ⟨"/s/a.html"⟩)
    (second : Page.content files ⟨"/s/b.html"⟩ = Page.content barePages ⟨"/s/b.html"⟩) :
    (roundaboutSite.entryTargets files bareScan).Pairwise List.Disjoint := by
  have targets : roundaboutSite.targets firstPage = [⟨"a.html"⟩, ⟨"a.html"⟩] ∧
      roundaboutSite.targets secondPage = [⟨"b.html"⟩, ⟨"b.html"⟩] :=
    ⟨targets_barePage "a.html" "A" _ _ (by decide) rfl, targets_barePage "b.html" "B" _ _ (by decide) rfl⟩
  have pages : (roundaboutSite.jobs bareLinks).map (fun job => roundaboutSite.targets job.1) =
      [roundaboutSite.targets firstPage, roundaboutSite.targets secondPage] := rfl
  rw [bareScan, entryTargets_bare first second, pages, targets.1, targets.2]
  simp [List.Disjoint]

theorem unbuilt_pages_read_dressed :
    let work : Workspace := { fs := dressedPages }
    (roundaboutSite.renderAll work).1 = .ok ⟨1, 0, 0, 1, 0⟩ ∧
      ∃ summary, (roundaboutSite.renderAll work).1 = .ok summary ∧
        (roundaboutSite.unbuilt bareScan work).length = summary.fallbacks ∧
        ∀ file ∈ roundaboutSite.unbuilt bareScan work, ∃ content, work.fs.read file = .ok content ∧
          (roundaboutSite.renderAll work).2.fs.read (roundaboutSite.placeOf file) =
            if roundaboutSite.isUpToDate file work.fs then work.fs.read (roundaboutSite.placeOf file)
            else .ok content := by
  have output := rooted_roundaboutSite.names_outputDirectory
  have solid : ∀ found ∈ dressedPages.entries, ∀ target, found.2 ≠ .link target := by
    simp [dressedPages, barePages]
  have listed : bareScan.pages.map (·.1) = [⟨"/s/a.html"⟩, ⟨"/s/b.html"⟩] := rfl
  refine ⟨?_, @unbuilt_pages_read roundaboutSite bareScan { fs := dressedPages } roundabout (some ⟨"/s"⟩) none
    tidy_dressedPages (prepare_bare rfl rfl) scan_dressedPages (distinct_bare rfl rfl)
    (fun file member place entry found => ?_)
    ⟨fun _ _ => linkless_bare solid _, fun _ _ => linkless_bare solid _,
      fun _ _ above _ _ target => unlinked_of_entries solid above target⟩ (fun file member time modified => ?_)⟩
  · rw [renderAll_eq scan_dressedPages, buildScan_bare rfl rfl, buildBare_dressedPages]
  · have above : ∀ file ∈ [⟨"/s/a.html"⟩, ⟨"/s/b.html"⟩], ∀ found ∈ (dressedPages.find true file).toOption,
        ¬["s", "_build"] <+: found.1 := by decide
    rw [output]
    exact above file (listed ▸ member) (place, entry) (by rw [found]; rfl)
  · have dated : ∀ file ∈ [⟨"/s/a.html"⟩, ⟨"/s/b.html"⟩], dressedPages.modified file = .ok 1 := by decide
    rw [dated file (listed ▸ member)] at modified
    cases modified
    decide

/-- The files after both pages have been evaluated. -/
def evaluatedPages : FileSystem :=
  { dressedPages with entries := [(["s", "_build", "b.html"], .file (Text.Utf8.encode "y") 9),
      (["s", "_build", "a.html"], .file (Text.Utf8.encode "z") 9), (["s", "_build"], .directory 9)] ++
      dressedPages.entries }

theorem buildBare_evaluates : (buildBare { fs := fallenPages }).1 = ⟨2, 0, 0, 0, 0⟩ ∧
    (buildBare { fs := fallenPages }).2.fs = evaluatedPages := by
  refine ⟨by decide +kernel, ?_⟩
  have fields : (buildBare { fs := fallenPages }).2.fs.entries = evaluatedPages.entries ∧
      (buildBare { fs := fallenPages }).2.fs.now = 9 ∧
      (buildBare { fs := fallenPages }).2.fs.workingDirectory = [] := by
    decide +kernel
  generalize (buildBare { fs := fallenPages }).2.fs = files at fields ⊢
  obtain ⟨entries, now, directory⟩ := files
  obtain ⟨rfl, rfl, rfl⟩ := fields
  rfl

/-- The same files with a layout that fails. -/
def editedPages : FileSystem where
  entries :=
    [(["s", "_templates", "default.html"], .file (Text.Utf8.encode "<?= missing ?>") 20),
      (["s", "_build", "b.html"], .file (Text.Utf8.encode "y") 9),
      (["s", "_build", "a.html"], .file (Text.Utf8.encode "z") 9), (["s", "_build"], .directory 9),
      (["s", "_templates"], .directory 0)] ++ barePages.entries
  now := 30
  workingDirectory := []

theorem tidy_editedPages : editedPages.Tidy := by
  refine FileSystem.tidy_of_entries ?_ (by decide)
  simp only [editedPages, barePages, List.cons_append, List.nil_append, List.forall_mem_cons]
  exact ⟨⟨0, rfl⟩, ⟨9, rfl⟩, ⟨9, rfl⟩, ⟨0, rfl⟩, ⟨0, rfl⟩, ⟨0, rfl⟩, ⟨0, rfl⟩, ⟨0, rfl⟩, by simp⟩

theorem scan_editedPages : roundaboutSite.scan editedPages = .ok bareScan := by
  have names : editedPages.names ["s"] = ["_build", "_templates", "a.html", "b.html"] :=
    FileSystem.names_of_ordered rfl (by decide)
  have shown : roundaboutSite.shown editedPages ["s"] ["_build", "_templates", "a.html", "b.html"] =
      [.file (Location.path ["s", "a.html"]), .file (Location.path ["s", "b.html"])] := by decide
  rw [rooted_roundaboutSite.scan_flat tidy_editedPages ⟨0, rfl⟩ rfl names (by decide) (by decide), shown,
    ofFindings_bare rfl, bareScan]

/-- The page whose layout fails. -/
def unmade : Except BuildError Unit × Workspace :=
  roundaboutSite.buildPage firstPage (bareBindings firstPage) (announce { fs := editedPages })

theorem unmade_fails : unmade.1.toBool = false := by decide +kernel

theorem fs_unmade : unmade.2.fs = editedPages := by
  have solid : ∀ found ∈ editedPages.entries, ∀ target, found.2 ≠ .link target := by
    simp [editedPages, barePages]
  have place : roundaboutSite.outputDirectory.join firstPage.outputFile = Location.path ["s", "_build", "a.html"] :=
    by decide
  exact fs_buildPage place (by decide) (by decide) tidy_editedPages.orderly (linkless_bare solid _) unmade_fails

/-- The second build, with what it leaves of the first one. -/
def keeping : Workspace :=
  { unmade.2 with
    fs := editedPages
    log := (roundaboutSite.renderPage firstPage (bareBindings firstPage) (announce { fs := editedPages })).2.log }

theorem placeOf_firstPage :
    roundaboutSite.placeOf ⟨"/s/a.html"⟩ = Location.path ["s", "_build", "a.html"] := by
  have proper : Path.Proper "a.html" := by decide
  have source : (⟨"/s/a.html"⟩ : Path) = Location.path ["s", "a.html"] := rfl
  rw [source]
  exact rooted_roundaboutSite.placeOf_path (List.cons_ne_nil "a.html" []) (by simpa [Plain] using proper)

theorem isStale_editedPages :
    editedPages.isStale ⟨"/s/a.html"⟩ (roundaboutSite.placeOf ⟨"/s/a.html"⟩) = .ok false := by
  rw [placeOf_firstPage]
  decide

theorem renderPage_keeping :
    roundaboutSite.renderPage firstPage (bareBindings firstPage) (announce { fs := editedPages }) =
      (.fallback, keeping) := by
  have fails := unmade_fails
  have files := fs_unmade
  cases failed : unmade with
  | mk result after =>
      rw [failed] at fails files
      cases result with
      | ok done => cases fails
      | error error =>
          have files : after.fs = editedPages := files
          have rendered := renderPage_of_error failed
          have source : firstPage.sourceFile = ⟨"/s/a.html"⟩ := rfl
          have stale := isStale_editedPages
          rw [source, copyInstead_of_fresh (by rw [files]; exact stale)] at rendered
          rw [keeping, rendered, failed, ← files]

theorem buildBare_editedPages : (buildBare { fs := editedPages }).1 = ⟨1, 0, 0, 1, 0⟩ ∧
    (buildBare { fs := editedPages }).2.fs.read (Location.path ["s", "_build", "a.html"]) =
      .ok (Text.Utf8.encode "z") := by
  have written : (roundaboutSite.renderPage secondPage (bareBindings secondPage) keeping).1 = .written := by
    decide +kernel
  rw [buildBare_of_turns renderPage_keeping (Prod.ext written rfl)]
  have read : (((roundaboutSite.renderPage secondPage (bareBindings secondPage) keeping).2.fs.read
      (Location.path ["s", "_build", "a.html"])).toOption == some (Text.Utf8.encode "z")) = true := by
    decide +kernel
  exact ⟨rfl, eq_ok_of_toOption (beq_iff_eq.mp read)⟩

theorem mem_unbuilt_editedPages : ⟨"/s/a.html"⟩ ∈ roundaboutSite.unbuilt bareScan { fs := editedPages } := by
  let turn : Turn (Page × Fields) := ⟨(firstPage, bareBindings firstPage), announce { fs := editedPages }⟩
  have pages : (roundaboutSite.account bareScan { fs := editedPages }).pages =
      turns (fun job : Page × Fields => roundaboutSite.renderPage job.1 job.2) (roundaboutSite.jobs bareLinks)
        (announce { fs := editedPages }) := by
    have read := @readPages_bare editedPages roundaboutSite rfl rfl rfl rfl
    simp only [account, bareScan, read, ofPages_bare]
    rfl
  have among : turn ∈ (roundaboutSite.account bareScan { fs := editedPages }).pages := by
    rw [pages]
    exact List.mem_cons_self
  have instead : roundaboutSite.isCopiedInstead turn = true := by
    have files : (roundaboutSite.buildPage turn.item.1 turn.item.2 turn.work).2.fs = editedPages := fs_unmade
    have unwritten : roundaboutSite.isWritten turn = false := by
      rw [isWritten_eq]
      exact unmade_fails
    have source : turn.item.1.sourceFile = ⟨"/s/a.html"⟩ := rfl
    rw [isCopiedInstead, unwritten, files, source, isSettled, isSpared_eq, isStale_editedPages]
    simp
  exact List.mem_append_right _ (List.mem_map.mpr ⟨turn, List.mem_filter.mpr ⟨among, instead⟩, rfl⟩)

/-- A build that can no longer evaluate a page counts it as copied, and keeps what an earlier build made of it. -/
theorem fallback_keeps_earlier_rendering :
    ¬ ∀ (config : Config) (source? output? : Option Path) (site : Site) (scan : Scan) (earlier work : Workspace)
        (summary : Summary),
      earlier.fs.Tidy → Site.prepare earlier.fs config source? output? = .ok site →
      (site.renderAll earlier).1 = .ok summary →
      (∀ place, site.outputDirectory.names <+: place →
        work.fs.get? place = (site.renderAll earlier).2.fs.get? place) →
      work.fs.Tidy → Site.prepare work.fs config source? output? = .ok site → site.scan work.fs = .ok scan →
      (site.entryTargets work.fs scan).Pairwise List.Disjoint →
      (∀ file ∈ scan.pages.map (·.1), ∀ time, work.fs.modified file = .ok time → 0 < time) →
      ∀ file ∈ site.unbuilt scan work,
        (site.renderAll work).2.fs.read (site.placeOf file) = work.fs.read file := by
  intro copied
  have output := rooted_roundaboutSite.names_outputDirectory
  have first : roundaboutSite.renderAll { fs := fallenPages } =
      (.ok ⟨2, 0, 0, 0, 0⟩, (buildBare { fs := fallenPages }).2) := by
    rw [renderAll_eq scan_fallenPages, buildScan_bare rfl rfl, buildBare_evaluates.1]
  have second : roundaboutSite.renderAll { fs := editedPages } =
      (.ok ⟨1, 0, 0, 1, 0⟩, (buildBare { fs := editedPages }).2) := by
    rw [renderAll_eq scan_editedPages, bareScan, buildScan_bare rfl rfl, buildBare_editedPages.1]
  have left (place : Location) (below : ["s", "_build"] <+: place) :
      editedPages.get? place = evaluatedPages.get? place := by
    have put : editedPages = (evaluatedPages.later 30).put ["s", "_templates", "default.html"]
        (.file (Text.Utf8.encode "<?= missing ?>") 20) := rfl
    have apart : place ≠ ["s", "_templates", "default.html"] := by
      rintro rfl
      exact absurd below (by decide)
    have some_name : place ≠ [] := by
      rintro rfl
      exact absurd below (by decide)
    rw [put, FileSystem.get?_put, if_neg some_name, if_neg apart, FileSystem.get?_later]
  have read := copied roundabout (some ⟨"/s"⟩) none roundaboutSite bareScan { fs := fallenPages } { fs := editedPages }
    ⟨2, 0, 0, 0, 0⟩ tidy_fallenPages (prepare_bare rfl rfl) (by rw [first]) (fun place below => ?_) tidy_editedPages
    (prepare_bare rfl rfl) scan_editedPages (distinct_bare rfl rfl) (fun file member time modified => ?_)
    ⟨"/s/a.html"⟩ ?_
  · rw [second, placeOf_firstPage, buildBare_editedPages.2] at read
    exact absurd read (by decide)
  · rw [first, buildBare_evaluates.2]
    exact left place (output ▸ below)
  · have dated : ∀ file ∈ [⟨"/s/a.html"⟩, ⟨"/s/b.html"⟩], editedPages.modified file = .ok 1 := by decide
    rw [dated file member] at modified
    cases modified
    decide
  · exact mem_unbuilt_editedPages

end Sample

end Site

end StaticSite
