import StaticSite.Proofs.FileSystem.Confining
import StaticSite.Proofs.Site.Order
import StaticSite.Proofs.Site.Rebuild
import StaticSite.Proofs.Site.Sources

/-!
What a build leaves alone. Whatever it does, it does below its output directory, if no link leads out of it:
the links that it recreates come last, and none of them stands above the place of another.
-/

namespace StaticSite

open Location (Plain)

namespace FileSystem

variable {fs : FileSystem} {path output : Location}

/-- If not even a link is at the end of a path, there is nothing at its place. -/
theorem Lies.absent (lies : fs.Lies path output) (orderly : fs.Orderly) (plain : Plain path)
    (absent : ∀ found, fs.find false (Location.path path) ≠ .ok found) : fs.get? output = none := by
  obtain ⟨front, rest, directory, rfl, rfl, walked, known, stops⟩ := lies
  have route : fs.Route front directory := ⟨orderly, plain.of_prefix (List.prefix_append _ _), walked, known⟩
  cases there : fs.get? (directory ++ rest) with
  | none => rfl
  | some entry =>
      exfalso
      rcases rest with - | ⟨name, behind⟩
      · -- the path leads to a directory, so it leads somewhere without following a last link
        rw [List.append_nil] at *
        obtain ⟨time, known⟩ := known
        by_cases root : front = []
        · subst root
          exact absent ([], .directory 0) (find_eq_ok_iff.mpr ⟨walk_root false fs, rfl⟩)
        · rw [walk, Location.isEmpty_path, if_neg (by simp), if_pos (Path.isAbsolute_location _)] at walked
          obtain ⟨place, entry, walked, known⟩ := walkFrom_unfollowed walked known
          refine absent (place, entry) (find_eq_ok_iff.mpr ⟨?_, known⟩)
          rw [walk, Location.isEmpty_path, if_neg (by simp), if_pos (Path.isAbsolute_location _), walked]
      · have proper : Plain ([] ++ [name]) := by simpa [Plain] using plain name (by simp)
        have here : fs.IsDirectory (directory ++ []) := by rwa [List.append_nil]
        by_cases last : behind = []
        · subst last
          have walked := route.walk_unfollowed proper here
          rw [List.append_nil, List.nil_append] at walked
          exact absent _ (find_eq_ok_iff.mpr ⟨walked, there⟩)
        · have inside : directory ++ [name] <+: directory ++ name :: behind := ⟨behind, by simp⟩
          obtain ⟨time, standing⟩ := orderly.isDirectory_above there inside (by simp [Ne.symm last])
          have reached := route.walk_reached proper here (by simp [standing]) true
          rw [List.nil_append] at reached
          have nowhere := stops name behind rfl
          rw [Route.isDirectory_of_walk reached ⟨time, standing⟩] at nowhere
          cases nowhere

end FileSystem

namespace Site

open FileSystem (Confined Tidy composes_confined)

variable {site : Site} {source path output : Location} {scan : Scan} {base after : FileSystem}
  {outcomes : List Outcome}

/-! ## Stages -/

section Course

variable (rooted : Rooted site source path) (tidy : base.Tidy) (ground : base.Ground path output)
  (known : base.IsDirectory source) (scanned : site.scan base = .ok scan)

include rooted tidy ground known scanned

/-- Whatever becomes of files, pages and links, it is confined. -/
theorem Rooted.confined_course (course : Course site scan base outcomes after) :
    Confined base path output (linkPlaces site source output base) after := by
  cases course with
  | @parts copied fallen built _ first second third fourth copies fallbacks pages links =>
      have composes := composes_confined base path output ∅
      have passes {below : List String} (some_name : below ≠ []) (plain : Plain below) :
          base.Passes path output ∅ below := ⟨ground, some_name, plain, by simp⟩
      have place {names : List String} (some_name : names ≠ []) (plain : Plain names) :
          site.placeOf (Location.path (source ++ names)) = Location.path (path ++ names) :=
        rooted.placeOf_path some_name plain
      have copyFile {file : Path} (found : .file file ∈
          walkDirectory base site.rule base.levels ⟨source, Location.path source⟩ []) :
          FileSystem.Confines base path output ∅ (FileSystem.copyFile file (site.placeOf file)) := by
        obtain ⟨names, listed, plain, rfl⟩ := rooted.exists_of_mem_findings tidy rfl found
        rw [place listed.some_name plain]
        exact (passes listed.some_name plain).confines_copyFile (by simp) _
      have whole := scanned
      rw [rooted.scan_eq tidy known] at scanned
      cases scanned
      have copied_confined : Confined base path output ∅ copied := by
        refine copies.within composes (fun file member work start _ => ?_) (fun _ _ => trivial)
          (.refl ground) (.refl ground)
        exact change_copyVerbatim composes start (copyFile (finding_of_mem_files member).1)
      have fallen_confined : Confined base path output ∅ fallen := by
        refine fallbacks.within composes (fun file member work start _ => ?_) (fun _ _ => trivial)
          copied_confined copied_confined
        obtain ⟨extension, format, listing⟩ := exists_of_mem_unread member
        exact change_copyInstead composes start (copyFile (finding_of_mem_pages listing).1)
      have built_confined : Confined base path output ∅ built := by
        refine pages.within composes (fun job member work start _ => ?_) (fun _ _ => trivial)
          fallen_confined fallen_confined
        obtain ⟨copy, below, some_copy, plain_copy, some_name, plain, sourceFile, outputFile⟩ :=
          rooted.exists_names tidy known whole (page_mem_of_mem_jobs member)
        refine change_renderPage composes start job.2 (fun bytes => ?_) ?_
        · rw [outputFile, rooted.join_ofNames some_name plain]
          exact (passes some_name plain).confines_writeFile (by simp) bytes
        · rw [sourceFile, place some_copy plain_copy]
          exact (passes some_copy plain_copy).confines_copyFile (by simp) _
      refine links.within (composes_confined base path output (linkPlaces site source output base))
        (fun link member work start _ => ?_) (fun _ _ => trivial) (built_confined.mono (Set.empty_subset _))
        (built_confined.mono (Set.empty_subset _))
      obtain ⟨names, target, listed, rfl, there⟩ := rooted.exists_of_mem_links tidy known whole member
      have among : output ++ names ∈ linkPlaces site source output base := ⟨names, target, rfl, listed, there⟩
      have plain := plain_names tidy there
      have relinked := FileSystem.Passes.confines_copyLink ⟨ground, listed.some_name, plain,
        fun place member inside => eq_of_linkPlaces tidy member among inside⟩ among
          (Location.path (source ++ names))
      rw [← place listed.some_name plain] at relinked
      have changed := change_recreateLink start relinked
      exact changed

end Course

/-- A build whose output directory holds no links changes nothing else. -/
theorem Rooted.confined_renderAll (rooted : Rooted site source path) {work : Workspace} (tidy : work.fs.Tidy)
    (ground : work.fs.Ground path output) (known : work.fs.IsDirectory source) :
    Confined work.fs path output (linkPlaces site source output work.fs) (site.renderAll work).2.fs := by
  obtain ⟨outcomes, course, -⟩ := course_buildScan site _ work
  rw [renderAll_eq (rooted.scan_eq tidy known)]
  exact rooted.confined_course tidy ground known (rooted.scan_eq tidy known) course

/-! ## Whole builds -/

section Whole

variable {config : Config} {source? output? : Option Path} {work : Workspace}

/-- A build into an output directory that is not there leaves everything else as it is, but for directories
above it that are missing. -/
theorem build_stays_below_output (tidy : work.fs.Tidy)
    (prepared : Site.prepare work.fs config source? output? = .ok site)
    (absent : ∀ found, work.fs.find false site.outputDirectory ≠ .ok found) :
    ∃ output, work.fs.Lies site.outputDirectory.names output ∧ ∀ place, ¬output <+: place →
      (site.renderAll work).2.fs.get? place = work.fs.get? place ∨
        work.fs.get? place = none ∧ place <+: output ∧
          ∃ time, (site.renderAll work).2.fs.get? place = some (.directory time) := by
  obtain ⟨source, path, rooted, known, -⟩ := exists_rooted_of_prepare tidy prepared
  rw [rooted.outputDirectory] at absent
  rw [rooted.names_outputDirectory]
  obtain ⟨output, lies⟩ := FileSystem.exists_lies rooted.plain_output work.fs
  have free := lies.absent tidy.orderly rooted.plain_output absent
  have ground := lies.ground tidy.orderly rooted.plain_output fun place target under _ link => by
    rw [tidy.orderly.absent_below free under] at link
    cases link
  refine ⟨output, lies, fun place outside => ?_⟩
  obtain same | ⟨missing, above, made⟩ := (rooted.confined_renderAll tidy ground known).outside outside
  · exact .inl same
  · exact .inr ⟨missing, above, _, made⟩

theorem build_stays_below_output_sample :
    ∃ output, linkedFiles.Lies sampleSite.outputDirectory.names output ∧ ∀ place, ¬output <+: place →
      (sampleSite.renderAll { fs := linkedFiles }).2.fs.get? place = linkedFiles.get? place ∨
        linkedFiles.get? place = none ∧ place <+: output ∧
          ∃ time, (sampleSite.renderAll { fs := linkedFiles }).2.fs.get? place = some (.directory time) := by
  have prepared : Site.prepare linkedFiles {} (some ⟨"/s"⟩) none = .ok sampleSite := by
    rw [prepare_sample none rfl rfl]
    rfl
  have missing : linkedFiles.find false sampleSite.outputDirectory = .error .notFound := rfl
  refine @build_stays_below_output _ _ _ _ { fs := linkedFiles } tidy_linkedFiles prepared fun found there => ?_
  rw [missing] at there
  cases there

/-- A build into an output directory that holds no links leaves the files that its scan lists as they are, as
long as they lie elsewhere. -/
theorem build_keeps_sources (tidy : work.fs.Tidy)
    (prepared : Site.prepare work.fs config source? output? = .ok site)
    (scanned : site.scan work.fs = .ok scan)
    (lies : work.fs.Lies site.outputDirectory.names output)
    (linkless : ∀ place target, output <+: place → place ≠ output →
      work.fs.get? place ≠ some (.link target)) :
    ∀ file ∈ scan.pages.map (·.1) ++ scan.files, ∃ place content time,
      work.fs.find true file = .ok (place, .file content time) ∧
        (¬output <+: place → (site.renderAll work).2.fs.find true file = .ok (place, .file content time)) := by
  intro file member
  obtain ⟨source, path, rooted, known, -⟩ := exists_rooted_of_prepare tidy prepared
  rw [rooted.names_outputDirectory] at lies
  have ground := lies.ground tidy.orderly rooted.plain_output linkless
  obtain ⟨place, content, time, finds⟩ := rooted.exists_find tidy known scanned member
  refine ⟨place, content, time, finds, fun outside => ?_⟩
  have confined := rooted.confined_renderAll tidy ground known
  have there := confined.get?_outside (FileSystem.get?_of_find finds) outside
  exact FileSystem.find_eq_ok_iff.mpr
    ⟨FileSystem.walk_carries (confined.carries ground) (FileSystem.walk_of_find finds) (by simp [there]), there⟩

theorem build_keeps_sources_sample :
    ∃ scan, sampleSite.scan aliasedFiles = .ok scan ∧
      ∀ file ∈ scan.pages.map (·.1) ++ scan.files, ∃ place content time,
        aliasedFiles.find true file = .ok (place, .file content time) ∧
          (¬["s", "_build"] <+: place →
            (sampleSite.renderAll { fs := aliasedFiles }).2.fs.find true file =
              .ok (place, .file content time)) := by
  have prepared : Site.prepare aliasedFiles {} (some ⟨"/s"⟩) none = .ok sampleSite := by
    rw [prepare_sample none rfl rfl]
    rfl
  have names : sampleSite.outputDirectory.names = ["s", "_build"] :=
    Path.names_path layout_sampleSite.plain_output
  have scanned := layout_sampleSite.rooted.scan_eq tidy_aliasedFiles ⟨0, rfl⟩
  refine ⟨_, scanned, @build_keeps_sources _ _ _ _ _ _ { fs := aliasedFiles } tidy_aliasedFiles prepared scanned
    ?_ fun place target under other link => ?_⟩
  · rw [names]
    exact ⟨["s", "_build"], [], ["s", "_build"], rfl, rfl, rfl, ⟨9, rfl⟩, by simp⟩
  · have some_name : place ≠ [] := by
      rintro rfl
      cases link
    have among := FileSystem.mem_entries_of_get? some_name link
    simp only [aliasedFiles, List.mem_cons, Prod.mk.injEq, reduceCtorEq, and_false, or_false,
      List.not_mem_nil] at among
    rw [among.1] at under
    exact absurd under (by decide)

end Whole

/-! ## A link that leads back -/

/-- A link of an earlier build leads from the output directory to a file of the site, and in its source there
is a file in its place by now. -/
def strayFiles : FileSystem where
  entries :=
    [(["s", "_build", "x.txt"], .link ⟨"../real.txt"⟩),
      (["s", "_build", "real.txt"], .file (Text.Utf8.encode "real") 9), (["s", "_build"], .directory 9),
      (["s"], .directory 0), (["s", "real.txt"], .file (Text.Utf8.encode "real") 1),
      (["s", "x.txt"], .file (Text.Utf8.encode "other") 20)]
  now := 30
  workingDirectory := []

theorem tidy_strayFiles : strayFiles.Tidy := by
  refine FileSystem.tidy_of_entries ?_ (by decide)
  simp only [strayFiles, List.forall_mem_cons]
  exact ⟨⟨9, rfl⟩, ⟨9, rfl⟩, ⟨0, rfl⟩, ⟨0, rfl⟩, ⟨0, rfl⟩, ⟨0, rfl⟩, by simp⟩

theorem scan_strayFiles : sampleSite.scan strayFiles =
    .ok ⟨[], ["real.txt", "x.txt"].map fun name => Location.path ["s", name],
      [].map fun name => Location.path ["s", name], []⟩ := by
  have names : strayFiles.names ["s"] = ["_build", "real.txt", "x.txt"] :=
    FileSystem.names_of_ordered rfl (by decide)
  have shown : sampleSite.shown strayFiles ["s"] ["_build", "real.txt", "x.txt"] =
      [.file (Location.path ["s", "real.txt"]), .file (Location.path ["s", "x.txt"])] := by decide
  rw [layout_sampleSite.rooted.scan_flat tidy_strayFiles ⟨0, rfl⟩ rfl names (by decide) (by decide), shown]
  simp [Scan.ofFindings, pageFormat?_sample]

theorem renderAll_strayFiles : (sampleSite.renderAll { fs := strayFiles }).2.fs =
    strayFiles.put ["s", "real.txt"] (.file (Text.Utf8.encode "other") 30) := by
  have fresh : strayFiles.isStale (Location.path ["s", "real.txt"])
      (Location.path ["s", "_build", "real.txt"]) = .ok false := by decide
  have stale : strayFiles.isStale (Location.path ["s", "x.txt"])
      (Location.path ["s", "_build", "x.txt"]) = .ok true := by decide
  let after := strayFiles.put ["s", "real.txt"] (.file (Text.Utf8.encode "other") 30)
  have copy : FileSystem.copyFile (Location.path ["s", "x.txt"]) (Location.path ["s", "_build", "x.txt"])
      strayFiles = (.ok 5, after) := rfl
  have unchanged : sampleSite.copyVerbatim (Location.path ["s", "real.txt"]) { fs := strayFiles } =
      (.unchanged, { fs := strayFiles }) := by
    rw [copyVerbatim_apply, placeOf_sample _ (by decide), fresh]
  have copied : sampleSite.copyVerbatim (Location.path ["s", "x.txt"]) { fs := strayFiles } =
      (.copied, { fs := after }) := by
    rw [copyVerbatim_apply, placeOf_sample _ (by decide), stale]
    dsimp only
    rw [copy]
  have ran := forEach_cons unchanged [Location.path ["s", "x.txt"]]
  rw [forEach_cons copied, forEach_nil] at ran
  rw [renderAll_eq scan_strayFiles, List.map_cons, List.map_cons, List.map_nil,
    buildScan_verbatim ran (forEach_nil _ _) rfl]

/-- A file is copied through a link that an earlier build has left, and so over another file of the site, which
lies elsewhere. -/
theorem build_overwrites_source_through_link :
    ¬ ∀ (config : Config) (source? output? : Option Path) (site : Site) (scan : Scan) (work : Workspace)
        (output : Location),
      work.fs.Tidy → Site.prepare work.fs config source? output? = .ok site → site.scan work.fs = .ok scan →
      work.fs.Lies site.outputDirectory.names output →
      ∀ file ∈ scan.pages.map (·.1) ++ scan.files, ∀ place entry,
        work.fs.find true file = .ok (place, entry) → ¬output <+: place →
        (site.renderAll work).2.fs.read file = work.fs.read file := by
  intro keeps
  have prepared : Site.prepare strayFiles {} (some ⟨"/s"⟩) none = .ok sampleSite := by
    rw [prepare_sample none rfl rfl]
    rfl
  have names : sampleSite.outputDirectory.names = ["s", "_build"] :=
    Path.names_path layout_sampleSite.plain_output
  have finds : strayFiles.find true (Location.path ["s", "real.txt"]) =
      .ok (["s", "real.txt"], .file (Text.Utf8.encode "real") 1) := rfl
  have read := keeps {} _ _ sampleSite _ { fs := strayFiles } ["s", "_build"] tidy_strayFiles prepared
    scan_strayFiles (names ▸ ⟨["s", "_build"], [], ["s", "_build"], rfl, rfl, rfl, ⟨9, rfl⟩, by simp⟩)
    (Location.path ["s", "real.txt"]) (by simp) _ _ finds (by decide)
  rw [renderAll_strayFiles] at read
  revert read
  decide

/-! ## A site that is built over itself -/

/-- The output directory is the source directory. -/
def overSite : Site := { sampleSite with outputDirectory := ⟨"/s"⟩ }

theorem rooted_overSite : Rooted overSite ["s"] ["s"] := ⟨rfl, rfl, by decide, by decide⟩

theorem scan_overSite : overSite.scan dressedPages =
    .ok ⟨[(⟨"/s/a.html"⟩, ".html", .markup), (⟨"/s/b.html"⟩, ".html", .markup)], [], [], []⟩ := by
  have shown : overSite.shown dressedPages ["s"] ["_templates", "a.html", "b.html"] =
      [.file (Location.path ["s", "a.html"]), .file (Location.path ["s", "b.html"])] := by decide
  rw [rooted_overSite.scan_flat tidy_dressedPages ⟨0, rfl⟩ rfl names_dressedPages (by decide) (by decide), shown,
    ofFindings_bare rfl]

/-- Pages are written over their sources, if the output directory is the source directory. -/
theorem build_overwrites_sources :
    ¬ ∀ (config : Config) (source? output? : Option Path) (site : Site) (scan : Scan) (work : Workspace),
      work.fs.Tidy → Site.prepare work.fs config source? output? = .ok site → site.scan work.fs = .ok scan →
      ∀ file ∈ scan.pages.map (·.1) ++ scan.files,
        (site.renderAll work).2.fs.read file = work.fs.read file := by
  intro keeps
  have prepared : Site.prepare dressedPages {} (some ⟨"/s"⟩) (some ⟨"."⟩) = .ok overSite := by
    rw [prepare_sample _ rfl rfl]
    rfl
  obtain ⟨copied, fallen, built, linked, first, second, third, fourth, stages⟩ :=
    exists_stages overSite ⟨[(⟨"/s/a.html"⟩, ".html", .markup), (⟨"/s/b.html"⟩, ".html", .markup)], [], [], []⟩
      { fs := dressedPages }
  have read := keeps {} _ _ overSite _ { fs := dressedPages } tidy_dressedPages prepared scan_overSite
    ⟨"/s/a.html"⟩ (by simp)
  rw [renderAll_eq scan_overSite] at read
  dsimp only at read
  rw [stages.fs_eq] at read
  have pages_read : overSite.readPages dressedPages
      [(⟨"/s/a.html"⟩, ".html", .markup), (⟨"/s/b.html"⟩, ".html", .markup)] = ([firstPage, secondPage], []) :=
    readPages_bare rfl rfl rfl rfl
  obtain ⟨copies, fallbacks, pages, links⟩ := stages
  dsimp only at copies fallbacks pages links
  rw [pages_read] at fallbacks pages
  rw [ofPages_bare] at pages
  cases copies
  cases fallbacks
  cases links
  obtain ⟨-, rfl⟩ := Prod.ext_iff.mp pages
  revert read
  decide +kernel

end Site

end StaticSite
