import StaticSite.Proofs.FileSystem.Routes
import StaticSite.Proofs.Site.Stages

/-!
Where the files that a scan lists lie. Each of them leads to a file, through links or not. If no link lies
below the source directory, none of them lies in a directory that is left out, provided that the path of that
directory goes through no link either: the scan compares paths and not places.
-/

namespace StaticSite

open Location (Plain)
open FileSystem (Tidy)

/-! ## Files that are found -/

section Walk

variable {fs : FileSystem} {rule : WalkRule} {directory place : Location} {file : Path}

theorem FileSystem.Orderly.find_ne_link (orderly : fs.Orderly) (target : Path) :
    fs.find true file ≠ .ok (place, .link target) := by
  intro finds
  have known := get?_of_find finds
  obtain ⟨time, directory⟩ | ⟨-, -, -, -, unlinked⟩ := orderly.walk_ends (walk_of_find finds)
  · rw [known] at directory
    cases directory
  · exact unlinked rfl target known

/-- What a walk takes for a file or a directory is one for whoever goes there by its path. -/
theorem find_of_visit (orderly : fs.Orderly) (rule : WalkRule) (ancestors : List Ancestor) {entry : Entry}
    (known : fs.get? place = some entry)
    (reached : (∀ target, entry ≠ .link target) → fs.walk true file = .ok place) :
    match visit fs rule ancestors place file with
    | .file => ∃ origin content time, fs.find true file = .ok (origin, .file content time)
    | .directory there => ∃ time, fs.find true file = .ok (there, .directory time)
    | _ => True := by
  unfold visit
  rw [known]
  cases entry with
  | directory time => exact ⟨time, FileSystem.find_eq_ok_iff.mpr ⟨reached (by simp), known⟩⟩
  | file content time =>
      exact ⟨place, content, time, FileSystem.find_eq_ok_iff.mpr ⟨reached (by simp), known⟩⟩
  | link target =>
      dsimp only
      cases rule.follow with
      | false => trivial
      | true =>
          simp only [Bool.not_true, Bool.false_eq_true, if_false]
          cases finds : fs.find true file with
          | error error => trivial
          | ok found =>
              obtain ⟨there, entry⟩ := found
              cases entry with
              | directory time =>
                  dsimp only
                  cases ancestors.find? (·.location == there) with
                  | some ancestor => trivial
                  | none => exact ⟨time, rfl⟩
              | file content time => exact ⟨there, content, time, rfl⟩
              | link target => exact absurd finds (orderly.find_ne_link target)

/-- Whatever links a walk follows, each file that it comes across is a file for whoever reads it. -/
theorem exists_find_of_mem_walkDirectory (tidy : fs.Tidy) {depth : Nat} {above : List Ancestor}
    (route : fs.Route place directory)
    (member : .file file ∈ walkDirectory fs rule depth ⟨directory, Location.path place⟩ above) :
    ∃ origin content time, fs.find true file = .ok (origin, .file content time) := by
  induction depth generalizing directory place above with
  | zero => cases member
  | succ depth ih =>
      rw [walkDirectory_succ, List.mem_flatMap] at member
      obtain ⟨name, listed, under⟩ := member
      obtain ⟨entry, known⟩ := FileSystem.mem_names.mp listed
      have proper : Plain [name] := by simpa [Plain] using (tidy.plain known).last
      have path := Location.path_join_name route.plain (tidy.plain known).last
      have reached (solid : ∀ target, entry ≠ .link target) :
          fs.walk true (Location.path (place ++ [name])) = .ok (directory ++ [name]) := by
        have here : fs.IsDirectory (directory ++ []) := by simpa using route.known
        refine route.walk_reached (by simpa using proper : Plain ([] ++ [name])) here (fun target link => ?_) true
        rw [List.nil_append, known] at link
        exact solid target (Option.some.inj link)
      have found := find_of_visit tidy.orderly rule (⟨directory, Location.path place⟩ :: above) known reached
      simp only [walkUnder, path] at under
      split at under
      · cases List.mem_singleton.mp under
      · next visited =>
          rw [visited] at found
          split at under
          · cases under
          · cases List.mem_singleton.mp under
            exact found
      · split at under
        · cases under
        · cases List.mem_singleton.mp under
      · next there visited =>
          rw [visited] at found
          obtain ⟨time, finds⟩ := found
          split at under
          · cases under
          · exact ih ⟨tidy.orderly, route.plain.append proper, FileSystem.walk_of_find finds, time,
              FileSystem.get?_of_find finds⟩ under

end Walk

/-- The paths that a scan lists. -/
def Scan.listed (scan : Scan) : List Path := scan.pages.map (·.1) ++ scan.files ++ scan.links

theorem Scan.exists_finding {config : Config} {findings : List Finding} {file : Path}
    (member : file ∈ (Scan.ofFindings config findings).listed) :
    ∃ finding ∈ findings, finding.path? = some file := by
  simp only [listed, List.mem_append, List.mem_map] at member
  obtain (⟨⟨file, extension, format⟩, page, rfl⟩ | other) | link := member
  · exact ⟨_, (Site.finding_of_mem_pages page).1, rfl⟩
  · exact ⟨_, (Site.finding_of_mem_files other).1, rfl⟩
  · exact ⟨_, Site.finding_of_mem_links link, rfl⟩

namespace Site

variable {site : Site} {source output : Location} {fs : FileSystem} {scan : Scan} {names : List String}

/-- The source directory is reached by its path. -/
theorem Rooted.route (rooted : Rooted site source output) (tidy : fs.Tidy) (known : fs.IsDirectory source) :
    fs.Route source source := by
  refine ⟨tidy.orderly, rooted.plain_source, ?_, known⟩
  by_cases root : source = []
  · subst root
    exact FileSystem.walk_root true fs
  · obtain ⟨time, known⟩ := known
    exact FileSystem.walk_of_find (tidy.orderly.find_path rooted.plain_source root known (by simp))

theorem Rooted.exists_find (rooted : Rooted site source output) (tidy : fs.Tidy)
    (known : fs.IsDirectory source) (scanned : site.scan fs = .ok scan) {file : Path}
    (member : file ∈ scan.pages.map (·.1) ++ scan.files) :
    ∃ origin content time, fs.find true file = .ok (origin, .file content time) := by
  rw [rooted.scan_eq tidy known] at scanned
  cases scanned
  have found : .file file ∈ walkDirectory fs site.rule fs.levels ⟨source, Location.path source⟩ [] := by
    simp only [List.mem_append, List.mem_map] at member
    obtain ⟨⟨file, extension, format⟩, page, rfl⟩ | other := member
    · exact (finding_of_mem_pages page).1
    · exact (finding_of_mem_files other).1
  exact exists_find_of_mem_walkDirectory tidy (rooted.route tidy known) found

/-- Whatever a scan lists is listed by names below the source directory. -/
theorem Rooted.exists_listed (rooted : Rooted site source output) (tidy : fs.Tidy)
    (known : fs.IsDirectory source) (scanned : site.scan fs = .ok scan) {file : Path}
    (member : file ∈ scan.listed) :
    ∃ names, Listed site source names ∧ Plain names ∧ file = Location.path (source ++ names) := by
  rw [rooted.scan_eq tidy known] at scanned
  cases scanned
  obtain ⟨finding, among, spoken⟩ := Scan.exists_finding member
  exact rooted.exists_of_mem_findings tidy spoken among

/-! ## Directories that are left out -/

/-- No link lies below a directory. -/
def Linkfree (fs : FileSystem) (directory : Location) : Prop :=
  ∀ names target, names ≠ [] → fs.get? (directory ++ names) ≠ some (.link target)

theorem straight_of_linkfree (tidy : fs.Tidy) (known : fs.IsDirectory source) (linkfree : Linkfree fs source)
    (names : List String) : fs.Straight true (source ++ names) := by
  intro place target inside link
  obtain above | ⟨rest, rfl⟩ := List.prefix_or_prefix_of_prefix inside (List.prefix_append source names)
  · obtain ⟨time, directory⟩ := tidy.orderly.isDirectory_of_prefix known above
    rw [link] at directory
    cases directory
  · by_cases last : rest = []
    · obtain ⟨time, directory⟩ := known
      rw [last, List.append_nil, directory] at link
      cases link
    · exact absurd link (linkfree rest target last)

section Exclusion

variable {config : Config} {source? output? : Option Path} {excluded : Path} {directory : Location}
  {time : Time}

/-- Nothing that a scan of a tree without links lists lies in the output directory or in the template directory,
if the path of that directory goes through no link. -/
theorem scan_leaves_directories_out (tidy : fs.Tidy)
    (prepared : Site.prepare fs config source? output? = .ok site) (scanned : site.scan fs = .ok scan)
    (linkfree : Linkfree fs site.sourceDirectory.names)
    (named : excluded = site.templateDirectory ∨ excluded = site.outputDirectory)
    (finds : fs.find true excluded = .ok (directory, .directory time))
    (straight : fs.Straight true excluded.names)
    (inside : site.sourceDirectory.names <+: directory) (strict : directory ≠ site.sourceDirectory.names) :
    ∀ file ∈ scan.listed, ∀ follow place entry, fs.find follow file = .ok (place, entry) →
      ¬directory <+: place := by
  intro file member follow place entry found
  obtain ⟨source, output, templates, rooted, known, plain_templates, templateDirectory⟩ :=
    exists_directories_of_prepare tidy prepared
  rw [rooted.sourceDirectory, Path.names_path rooted.plain_source] at linkfree inside strict
  -- the path of the directory spells its place
  obtain ⟨spelled, plain, rfl⟩ : ∃ spelled, Plain spelled ∧ excluded = Location.path spelled := by
    obtain rfl | rfl := named
    · exact ⟨templates, plain_templates, templateDirectory⟩
    · exact ⟨output, rooted.plain_output, rooted.outputDirectory⟩
  rw [Path.names_path plain] at straight
  have some_name : spelled ≠ [] := by
    rintro rfl
    rw [FileSystem.find_eq_ok_iff, FileSystem.walk_root] at finds
    obtain ⟨root, -⟩ := finds
    cases root
    exact strict (List.prefix_nil.mp inside).symm
  obtain rfl := FileSystem.eq_of_walk_straight plain some_name straight (FileSystem.walk_of_find finds)
  have below : ¬directory <+: source := fun above => strict (inside.eq_of_length_le above.length_le).symm
  obtain ⟨names, listed, plain_names, rfl⟩ := rooted.exists_listed tidy known scanned member
  have ends := FileSystem.eq_of_walk_straight (rooted.plain_source.append plain_names)
    (by simp [listed.some_name]) ((straight_of_linkfree tidy known linkfree names).unfollowed follow)
    (FileSystem.walk_of_find found)
  rw [ends]
  exact listed.outside named below

end Exclusion

/-! ## A small site and its output directory -/

section Sample

theorem prepare_sample {fs : FileSystem} (output? : Option Path)
    (directory : fs.isDirectory ⟨"/s"⟩ = true) (location : fs.canonicalize ⟨"/s"⟩ = .ok ["s"]) :
    Site.prepare fs {} (some ⟨"/s"⟩) output? =
      .ok { sampleSite with outputDirectory := Path.resolve ⟨"/s"⟩ (output?.getD ⟨"_build"⟩) } := by
  have templates : Path.resolve ⟨"/s"⟩ ⟨"_templates"⟩ = ⟨"/s/_templates"⟩ := rfl
  have source : Location.path ["s"] = ⟨"/s"⟩ := rfl
  simp [Site.prepare, directory, location, sampleSite, templates, source]

/-- A page, what was built from it, and another way to the source directory. -/
def aliasedFiles : FileSystem where
  entries :=
    [(["alias"], .link ⟨"s"⟩), (["s"], .directory 0), (["s", "_build"], .directory 9),
      (["s", "_build", "a.html"], .file (Text.Utf8.encode "y") 9),
      (["s", "a.html"], .file (Text.Utf8.encode "y") 1)]
  now := 30
  workingDirectory := []

theorem tidy_aliasedFiles : aliasedFiles.Tidy := by
  refine FileSystem.tidy_of_entries ?_ (by decide)
  simp only [aliasedFiles, List.forall_mem_cons]
  exact ⟨⟨0, rfl⟩, ⟨0, rfl⟩, ⟨0, rfl⟩, ⟨9, rfl⟩, ⟨0, rfl⟩, by simp⟩

theorem linkfree_aliasedFiles : Linkfree aliasedFiles ["s"] := by
  intro names target some_name link
  have among := FileSystem.mem_entries_of_get? (by simp) link
  simp [aliasedFiles] at among

theorem scan_leaves_directories_out_sample :
    ∃ scan, sampleSite.scan aliasedFiles = .ok scan ∧ ∀ file ∈ scan.listed, ∀ follow place entry,
      aliasedFiles.find follow file = .ok (place, entry) → ¬["s", "_build"] <+: place := by
  have prepared : Site.prepare aliasedFiles {} (some ⟨"/s"⟩) none = .ok sampleSite := by
    rw [prepare_sample none rfl rfl]
    rfl
  have rooted : Rooted sampleSite ["s"] ["s", "_build"] := ⟨rfl, rfl, by decide, by decide⟩
  have names : sampleSite.outputDirectory.names = ["s", "_build"] := Path.names_path rooted.plain_output
  have source : sampleSite.sourceDirectory.names = ["s"] := Path.names_path rooted.plain_source
  have finds : aliasedFiles.find true sampleSite.outputDirectory = .ok (["s", "_build"], .directory 9) := rfl
  refine ⟨_, rooted.scan_eq tidy_aliasedFiles ⟨0, rfl⟩, scan_leaves_directories_out tidy_aliasedFiles prepared
    (rooted.scan_eq tidy_aliasedFiles ⟨0, rfl⟩) (source ▸ linkfree_aliasedFiles) (.inr rfl) finds ?_
    (by rw [source]; decide) (by rw [source]; decide)⟩
  intro place target inside link
  rw [names] at inside
  have some_name : place ≠ [] := by
    rintro rfl
    cases link
  have among := FileSystem.mem_entries_of_get? some_name link
  simp only [aliasedFiles, List.mem_cons, Prod.mk.injEq, reduceCtorEq, and_false, or_false,
    List.not_mem_nil] at among
  rw [among.1] at inside
  exact absurd inside (by decide)

/-- The same site, with its output directory reached through the other way. -/
def aliasedSite : Site := { sampleSite with outputDirectory := ⟨"/alias/_build"⟩ }

theorem layout_aliasedSite : Layout aliasedSite ["s"] ["alias", "_build"] where
  sourceDirectory := rfl
  outputDirectory := rfl
  plain_source := by decide
  plain_output := by decide
  apart := by decide
  verbatim := rfl

/-- An output directory that is given by a way through a link is scanned like any other directory. -/
theorem scan_reaches_aliased_output :
    ¬ ∀ (files : FileSystem) (config : Config) (source? output? : Option Path) (site : Site) (scan : Scan)
        (directory : Location) (time : Time),
      files.Tidy → Site.prepare files config source? output? = .ok site → site.scan files = .ok scan →
      Linkfree files site.sourceDirectory.names →
      files.find true site.outputDirectory = .ok (directory, .directory time) →
      site.sourceDirectory.names <+: directory → directory ≠ site.sourceDirectory.names →
      ∀ file ∈ scan.listed, ∀ follow place entry, files.find follow file = .ok (place, entry) →
        ¬directory <+: place := by
  intro never
  have prepared : Site.prepare aliasedFiles {} (some ⟨"/s"⟩) (some ⟨"/alias/_build"⟩) = .ok aliasedSite := by
    rw [prepare_sample _ rfl rfl]
    rfl
  have source : aliasedSite.sourceDirectory.names = ["s"] :=
    Path.names_path layout_aliasedSite.plain_source
  have scanned := layout_aliasedSite.rooted.scan_eq tidy_aliasedFiles ⟨0, rfl⟩
  have listed : Listed aliasedSite ["s"] ["_build", "a.html"] := by
    refine ⟨by simp, ?_⟩
    simp only [Kept, rule, leavesOut_eq _ (by decide : "_build".toList.head? ≠ some '.'),
      leavesOut_eq _ (by decide : "a.html".toList.head? ≠ some '.')]
    decide
  have page : aliasedSite.config.pageFormat? (Location.path ["s", "_build", "a.html"]) =
      some (".html", .markup) :=
    (pageFormat?_path (by decide) _ ["s", "_build"]).trans (by decide)
  have shows : Shows aliasedFiles (["s"] ++ ["_build", "a.html"])
      (.file (Location.path ["s", "_build", "a.html"])) := (shows_file_iff rfl).mpr rfl
  have member := mem_pages_of_finding (layout_aliasedSite.mem_findings tidy_aliasedFiles listed shows) page
  refine never aliasedFiles {} _ _ aliasedSite _ ["s", "_build"] 9 tidy_aliasedFiles prepared scanned
    (source ▸ linkfree_aliasedFiles) rfl (by rw [source]; decide) (by rw [source]; decide)
    (Location.path ["s", "_build", "a.html"]) ?_ true ["s", "_build", "a.html"] _ rfl (by decide)
  exact List.mem_append_left _ (List.mem_append_left _ (List.mem_map_of_mem member))

end Sample

end Site

end StaticSite
