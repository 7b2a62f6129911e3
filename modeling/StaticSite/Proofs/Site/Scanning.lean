import Mathlib.Data.List.Nodup
import Mathlib.Data.List.Perm.Subperm
import StaticSite.Proofs.Path.Resolving
import StaticSite.Site.Build

/-!
What a scan finds when it follows no links: exactly the files and links at the places to which a chain of
directories leads, none of them left out.
-/

namespace StaticSite

open Path (Proper ofNames)
open Location (Plain)

/-! ## Directories -/

namespace FileSystem

variable {fs : FileSystem} {directory location : Location} {name : String} {entry : Entry}

/-- All names stand for themselves, and whatever there is lies in a directory. -/
structure Tidy (fs : FileSystem) : Prop where
  orderly : fs.Orderly
  plain : ∀ {location entry}, fs.get? location = some entry → Plain location

theorem exists_get?_iff (some_name : location ≠ []) :
    (∃ entry, fs.get? location = some entry) ↔ location ∈ fs.entries.map (·.1) := by
  rw [get?, if_neg some_name]
  simp only [Option.map_eq_some_iff, List.mem_map]
  constructor
  · rintro ⟨-, found, picked, -⟩
    exact ⟨found, List.mem_of_find?_eq_some picked, by simpa using List.find?_some picked⟩
  · rintro ⟨found, member, same⟩
    obtain ⟨picked, first⟩ := Option.isSome_iff_exists.mp
      (List.find?_isSome.mpr ⟨found, member, by simpa using same⟩ :
        (fs.entries.find? (·.1 == location)).isSome)
    exact ⟨picked.2, picked, first, rfl⟩

theorem mem_entries_of_get? (some_name : location ≠ []) (known : fs.get? location = some entry) :
    (location, entry) ∈ fs.entries := by
  rw [get?, if_neg some_name] at known
  obtain ⟨found, picked, rfl⟩ := Option.map_eq_some_iff.mp known
  have same : found.1 = location := by simpa using List.find?_some picked
  exact same ▸ List.mem_of_find?_eq_some picked

theorem tidy_of_entries (inside : ∀ found ∈ fs.entries, fs.IsDirectory found.1.dropLast)
    (plain : ∀ found ∈ fs.entries, Plain found.1) : Tidy fs where
  orderly := orderly_of_entries inside
  plain {location entry} known := by
    by_cases root : location = []
    · subst root
      exact fun name member => by cases member
    · obtain ⟨found, member, rfl⟩ := List.mem_map.mp ((exists_get?_iff root).mp ⟨entry, known⟩)
      exact plain found member

/-- Names that are listed in their order need no sorting. -/
theorem names_of_ordered {names : List String}
    (listed : fs.names directory = names.mergeSort fun a b => decide (a ≤ b))
    (ordered : names.Pairwise fun a b => decide (a ≤ b) = true) : fs.names directory = names := by
  rw [listed]
  exact List.mergeSort_of_pairwise ordered

theorem mem_names : name ∈ fs.names directory ↔ ∃ entry, fs.get? (directory ++ [name]) = some entry := by
  rw [exists_get?_iff (by simp)]
  simp only [names, List.mem_mergeSort, List.mem_filterMap, List.mem_map]
  refine exists_congr fun found => and_congr_right fun _ => ?_
  rcases List.eq_nil_or_concat found.1 with empty | ⟨above, last, whole⟩
  · simp [empty]
  · rw [whole, List.concat_eq_append, List.getLast?_concat, List.dropLast_concat]
    simp [and_comm]

/-- A place is not deeper than there are entries. -/
theorem Orderly.length_le (orderly : Orderly fs) (known : fs.get? location = some entry) :
    location.length ≤ fs.entries.length := by
  have prefixes : ((List.range location.length).map fun n => location.take (n + 1)) ⊆
      fs.entries.map (·.1) := by
    intro place member
    obtain ⟨n, bound, rfl⟩ := List.mem_map.mp member
    rw [List.mem_range] at bound
    refine (exists_get?_iff ?_).mp ?_
    · rw [ne_eq, ← List.length_eq_zero_iff, List.length_take]
      omega
    · by_cases whole : location.take (n + 1) = location
      · exact ⟨entry, by rw [whole, known]⟩
      · obtain ⟨time, directory⟩ := orderly.isDirectory_above known (List.take_prefix _ _) whole
        exact ⟨_, directory⟩
  have distinct : ((List.range location.length).map fun n => location.take (n + 1)).Nodup := by
    refine List.Nodup.map_on ?_ List.nodup_range
    intro m bound n bound' same
    rw [List.mem_range] at bound bound'
    have lengths := congrArg List.length same
    rw [List.length_take, List.length_take] at lengths
    omega
  simpa using (List.subperm_of_subset distinct prefixes).length_le

end FileSystem

/-! ## Walks -/

section Walk

variable {fs : FileSystem} {rule : WalkRule} {directory location : Location} {names : List String}
  {finding : Finding}

/-- None of the directories of a chain is left out, nor what it leads to. -/
def Kept (rule : WalkRule) : Location → List String → Prop
  | _, [] => True
  | directory, name :: rest =>
    rule.skip name (Location.path (directory ++ [name])) = false ∧ Kept rule (directory ++ [name]) rest

/-- What a finding says of a place. -/
def Shows (fs : FileSystem) (location : Location) : Finding → Prop
  | .file path =>
    path = Location.path location ∧ ∃ content time, fs.get? location = some (.file content time)
  | .link path => path = Location.path location ∧ ∃ target, fs.get? location = some (.link target)
  | .failure _ => False

theorem Shows.exists_entry (shows : Shows fs location finding) :
    ∃ entry, fs.get? location = some entry ∧ ∀ time, entry ≠ .directory time := by
  cases finding with
  | file path =>
      obtain ⟨-, content, time, known⟩ := shows
      exact ⟨_, known, by simp⟩
  | link path =>
      obtain ⟨-, target, known⟩ := shows
      exact ⟨_, known, by simp⟩
  | failure error => exact shows.elim

theorem shows_file_iff {content : Bytes} {time : Time}
    (known : fs.get? location = some (.file content time)) :
    Shows fs location finding ↔ finding = .file (Location.path location) := by
  cases finding <;> simp [Shows, known]

theorem shows_link_iff {target : Path} (known : fs.get? location = some (.link target)) :
    Shows fs location finding ↔ finding = .link (Location.path location) := by
  cases finding <;> simp [Shows, known]

/-- What a walk finds under one name of a directory. -/
def walkUnder (fs : FileSystem) (rule : WalkRule) (depth : Nat) (directory : Ancestor)
    (above : List Ancestor) (name : String) : List Finding :=
  let path := directory.path.join ⟨name⟩
  match visit fs rule (directory :: above) (directory.location ++ [name]) path with
  | .failure error => [.failure error]
  | .file => if rule.skip name path then [] else [.file path]
  | .link => if rule.skip name path then [] else [.link path]
  | .directory location =>
    if rule.skip name path then [] else walkDirectory fs rule depth ⟨location, path⟩ (directory :: above)

theorem walkDirectory_succ (fs : FileSystem) (rule : WalkRule) (depth : Nat) (directory : Ancestor)
    (above : List Ancestor) :
    walkDirectory fs rule (depth + 1) directory above =
      (fs.names directory.location).flatMap (walkUnder fs rule depth directory above) := rfl

/-- Only a directory has anything below it. -/
theorem rest_eq_nil (orderly : fs.Orderly) {entry : Entry} (known : fs.get? location = some entry)
    (solid : ∀ time, entry ≠ .directory time) {rest : List String}
    (shows : Shows fs (location ++ rest) finding) :
    rest = [] := by
  by_contra some_name
  obtain ⟨found, below, -⟩ := shows.exists_entry
  obtain ⟨time, directory⟩ := orderly.isDirectory_above below (List.prefix_append _ _)
    (by simpa using some_name)
  rw [known] at directory
  exact solid time (Option.some.inj directory)

/-- What a walk that follows no links sees at a place. -/
def seen (location : Location) : Entry → Visit
  | .directory _ => .directory location
  | .file _ _ => .file
  | .link _ => .link

theorem visit_of_get? (unfollowed : rule.follow = false) {entry : Entry}
    (known : fs.get? location = some entry) (ancestors : List Ancestor) (path : Path) :
    visit fs rule ancestors location path = seen location entry := by
  rw [visit, known]
  cases entry <;> simp [seen, unfollowed]

/-- One step: what is under a name, given what is found below directories. -/
theorem mem_walkUnder_iff (tidy : fs.Tidy) (unfollowed : rule.follow = false) {depth : Nat}
    (above : List Ancestor) {name : String} {entry : Entry} (plain : Plain directory)
    (known : fs.get? (directory ++ [name]) = some entry)
    (below : finding ∈ walkDirectory fs rule depth
      ⟨directory ++ [name], Location.path (directory ++ [name])⟩
        (⟨directory, Location.path directory⟩ :: above) ↔
      ∃ names, names ≠ [] ∧ names.length ≤ depth ∧ Kept rule (directory ++ [name]) names ∧
        Shows fs (directory ++ [name] ++ names) finding) :
    finding ∈ walkUnder fs rule depth ⟨directory, Location.path directory⟩ above name ↔
      ∃ rest, rest.length ≤ depth ∧ Kept rule directory (name :: rest) ∧
        Shows fs (directory ++ [name] ++ rest) finding := by
  have longer := tidy.plain known
  have path := Location.path_join_name plain longer.last
  -- below anything that is no directory there is nothing, so the chain ends with the name
  have last (solid : ∀ time, entry ≠ .directory time) :
      (∃ rest, rest.length ≤ depth ∧ Kept rule (directory ++ [name]) rest ∧
        Shows fs (directory ++ [name] ++ rest) finding) ↔ Shows fs (directory ++ [name]) finding := by
    constructor
    · rintro ⟨rest, -, -, shows⟩
      obtain rfl := rest_eq_nil tidy.orderly known solid shows
      rwa [List.append_nil] at shows
    · exact fun shows => ⟨[], by simp, trivial, by rwa [List.append_nil]⟩
  simp only [walkUnder, path, visit_of_get? unfollowed known, Kept]
  cases rule.skip name (Location.path (directory ++ [name])) with
  | true => cases entry <;> simp [seen]
  | false =>
      simp only [Bool.false_eq_true, if_false, true_and]
      cases entry with
      | file content time =>
          rw [last (by simp), shows_file_iff known]
          exact List.mem_singleton
      | link target =>
          rw [last (by simp), shows_link_iff known]
          exact List.mem_singleton
      | directory time =>
          refine below.trans (exists_congr fun rest => and_iff_right_of_imp ?_)
          rintro ⟨-, -, shows⟩ rfl
          rw [List.append_nil] at shows
          obtain ⟨found, standing, solid⟩ := shows.exists_entry
          rw [known] at standing
          exact solid time (Option.some.inj standing).symm

/-- A walk that follows no links finds what chains of directories lead to, if none of them is left out. -/
theorem mem_walkDirectory_iff (tidy : fs.Tidy) (unfollowed : rule.follow = false) (depth : Nat)
    (plain : Plain directory) (above : List Ancestor) :
    finding ∈ walkDirectory fs rule depth ⟨directory, Location.path directory⟩ above ↔
      ∃ names, names ≠ [] ∧ names.length ≤ depth ∧ Kept rule directory names ∧
        Shows fs (directory ++ names) finding := by
  -- on the depth; a chain is cut after its first name
  induction depth generalizing directory above with
  | zero =>
      simp only [walkDirectory, List.not_mem_nil, Nat.le_zero_eq, List.length_eq_zero_iff, false_iff]
      rintro ⟨names, some_name, empty, -⟩
      exact some_name empty
  | succ depth ih =>
      have under {name : String} {entry : Entry} (known : fs.get? (directory ++ [name]) = some entry) :=
        mem_walkUnder_iff tidy unfollowed above plain known (ih (tidy.plain known) _)
      rw [walkDirectory_succ, List.mem_flatMap]
      constructor
      · rintro ⟨name, listed, member⟩
        obtain ⟨entry, known⟩ := FileSystem.mem_names.mp listed
        obtain ⟨rest, bound, kept, shows⟩ := (under known).mp member
        exact ⟨name :: rest, by simp, by simpa using bound, kept, by simpa using shows⟩
      · rintro ⟨names, some_name, bound, kept, shows⟩
        obtain ⟨name, rest, rfl⟩ := List.exists_cons_of_ne_nil some_name
        have whole : directory ++ name :: rest = directory ++ [name] ++ rest := by simp
        rw [whole] at shows
        obtain ⟨found, below, -⟩ := shows.exists_entry
        obtain ⟨entry, known⟩ : ∃ entry, fs.get? (directory ++ [name]) = some entry := by
          by_cases last : rest = []
          · exact ⟨found, by rwa [last, List.append_nil] at below⟩
          · obtain ⟨time, standing⟩ := tidy.orderly.isDirectory_above below (List.prefix_append _ _)
              (by simpa using last)
            exact ⟨_, standing⟩
        exact ⟨name, FileSystem.mem_names.mpr ⟨entry, known⟩,
          (under known).mpr ⟨rest, by simpa using bound, kept, shows⟩⟩

/-- The file or link that a finding speaks of. -/
def Finding.path? : Finding → Option Path
  | .file path => some path
  | .link path => some path
  | .failure _ => none

/-- Whatever links a walk follows, it goes from name to name, and none of them is left out. -/
theorem exists_of_mem_walkDirectory (tidy : fs.Tidy) (depth : Nat) {place : Location} (plain : Plain place)
    (above : List Ancestor) {file : Path} (spoken : finding.path? = some file)
    (member : finding ∈ walkDirectory fs rule depth ⟨directory, Location.path place⟩ above) :
    ∃ names, names ≠ [] ∧ Plain names ∧ Kept rule place names ∧ file = Location.path (place ++ names) := by
  induction depth generalizing directory place above with
  | zero => cases member
  | succ depth ih =>
      rw [walkDirectory_succ, List.mem_flatMap] at member
      obtain ⟨name, listed, under⟩ := member
      obtain ⟨entry, known⟩ := FileSystem.mem_names.mp listed
      have proper : Plain [name] := by simpa [Plain] using (tidy.plain known).last
      have path := Location.path_join_name plain (tidy.plain known).last
      simp only [walkUnder, path] at under
      have here {other : Finding} (told : other.path? = some (Location.path (place ++ [name])))
          (kept : finding ∈ if rule.skip name (Location.path (place ++ [name])) then [] else [other]) :
          ∃ names, names ≠ [] ∧ Plain names ∧ Kept rule place names ∧
            file = Location.path (place ++ names) := by
        split at kept
        · cases kept
        · next unskipped =>
            obtain rfl := List.mem_singleton.mp kept
            rw [told] at spoken
            exact ⟨[name], by simp, proper, ⟨by simpa using unskipped, trivial⟩,
              (Option.some.inj spoken).symm⟩
      split at under
      · rw [List.mem_singleton] at under
        rw [under] at spoken
        cases spoken
      · exact here rfl under
      · exact here rfl under
      · split at under
        · cases under
        · next unskipped =>
            obtain ⟨names, -, plain', kept, rfl⟩ := ih (plain.append proper) _ under
            exact ⟨name :: names, by simp, List.forall_mem_cons.mpr ⟨by simpa [Plain] using proper, plain'⟩,
              ⟨by simpa using unskipped, kept⟩, by simp⟩

/-- Only a walk that follows no links comes across one. -/
theorem unfollowed_of_mem_walkDirectory {depth : Nat} {directory : Ancestor} {above : List Ancestor}
    {link : Path} (member : .link link ∈ walkDirectory fs rule depth directory above) :
    rule.follow = false := by
  induction depth generalizing directory above with
  | zero => cases member
  | succ depth ih =>
      rw [walkDirectory_succ, List.mem_flatMap] at member
      obtain ⟨name, -, under⟩ := member
      simp only [walkUnder] at under
      split at under
      · cases List.mem_singleton.mp under
      · split at under
        · cases under
        · cases List.mem_singleton.mp under
      · next visited =>
          unfold visit at visited
          split at visited
          · cases visited
          · cases visited
          · cases visited
          · split at visited
            · next unfollowed => simpa using unfollowed
            · split at visited
              · cases visited
              · split at visited <;> cases visited
              · cases visited
      · split at under
        · cases under
        · exact ih under

theorem Kept.skip {front : List String} {name : String} (kept : Kept rule directory names)
    (inside : front ++ [name] <+: names) :
    rule.skip name (Location.path (directory ++ (front ++ [name]))) = false := by
  induction front generalizing directory names with
  | nil =>
      obtain ⟨rest, rfl⟩ := inside
      exact kept.1
  | cons first front ih =>
      obtain ⟨rest, rfl⟩ := inside
      have further := ih kept.2 ⟨rest, rfl⟩
      rwa [List.append_assoc, List.singleton_append] at further

end Walk

namespace Site

variable {site : Site} {source output : Location} {fs : FileSystem} {scan : Scan} {names : List String}

/-- A site whose source and output directory have plain paths. -/
structure Rooted (site : Site) (source output : Location) : Prop where
  sourceDirectory : site.sourceDirectory = Location.path source
  outputDirectory : site.outputDirectory = Location.path output
  plain_source : Plain source
  plain_output : Plain output

theorem Rooted.names_outputDirectory (rooted : Rooted site source output) : site.outputDirectory.names = output := by
  rw [rooted.outputDirectory, Path.names_path rooted.plain_output]

/-- A site between two locations. It is not built above its source, and links are recreated. -/
structure Layout (site : Site) (source output : Location) : Prop where
  sourceDirectory : site.sourceDirectory = Location.path source
  outputDirectory : site.outputDirectory = Location.path output
  plain_source : Plain source
  plain_output : Plain output
  apart : ¬output <+: source
  verbatim : site.config.verbatimLinks = true

theorem Layout.rooted (layout : Layout site source output) : Rooted site source output :=
  ⟨layout.sourceDirectory, layout.outputDirectory, layout.plain_source, layout.plain_output⟩

theorem exists_directories_of_prepare {config : Config} {source? output? : Option Path} (tidy : fs.Tidy)
    (prepared : Site.prepare fs config source? output? = .ok site) :
    ∃ source output templates, Rooted site source output ∧ fs.IsDirectory source ∧ Plain templates ∧
      site.templateDirectory = Location.path templates := by
  unfold Site.prepare at prepared
  dsimp only at prepared
  split at prepared
  · cases prepared
  · next directory =>
      rw [Bool.not_eq_true, Bool.not_eq_false', FileSystem.isDirectory] at directory
      split at directory
      · next location time finds =>
          rw [FileSystem.canonicalize, finds] at prepared
          cases prepared
          have known := FileSystem.get?_of_find finds
          have absolute := Path.isAbsolute_location location
          obtain ⟨output, plain, same⟩ := Path.exists_resolve absolute (output?.getD config.outputDirectory)
          obtain ⟨templates, plain', same'⟩ := Path.exists_resolve absolute config.templateDirectory
          exact ⟨location, output, templates, ⟨rfl, same, tidy.plain known, plain⟩, ⟨time, known⟩, plain', same'⟩
      · cases directory

theorem exists_rooted_of_prepare {config : Config} {source? output? : Option Path} (tidy : fs.Tidy)
    (prepared : Site.prepare fs config source? output? = .ok site) :
    ∃ source output, Rooted site source output ∧ fs.IsDirectory source ∧
      site.templateDirectory.isAbsolute := by
  obtain ⟨source, output, templates, rooted, known, -, same⟩ := exists_directories_of_prepare tidy prepared
  exact ⟨source, output, rooted, known, same ▸ Path.isAbsolute_location templates⟩

/-- How a scan goes about links, and what it leaves out. -/
def rule (site : Site) : WalkRule := { follow := !site.config.verbatimLinks, skip := site.leavesOut }

/-- Names below the source directory that a scan gets to, if there is something. -/
structure Listed (site : Site) (source : Location) (names : List String) : Prop where
  some_name : names ≠ []
  kept : Kept site.rule source names

theorem Rooted.scan_eq (rooted : Rooted site source output) (tidy : fs.Tidy)
    (known : fs.IsDirectory source) :
    site.scan fs = .ok (.ofFindings site.config
      (walkDirectory fs site.rule fs.levels ⟨source, Location.path source⟩ [])) := by
  obtain ⟨time, known⟩ := known
  have finds : ∃ time, fs.find false site.sourceDirectory = .ok (source, .directory time) := by
    rw [rooted.sourceDirectory]
    by_cases root : source = []
    · subst root
      exact ⟨0, FileSystem.find_eq_ok_iff.mpr ⟨FileSystem.walk_root false fs, rfl⟩⟩
    · exact ⟨time, tidy.orderly.find_path rooted.plain_source root known (by simp)⟩
  obtain ⟨time, finds⟩ := finds
  rw [scan, finds]
  dsimp only
  rw [rooted.sourceDirectory]
  rfl

/-- What a scan finds lies at the places that it gets to. -/
theorem Layout.exists_of_mem_findings (layout : Layout site source output) (tidy : fs.Tidy)
    {finding : Finding}
    (found : finding ∈ walkDirectory fs site.rule fs.levels ⟨source, Location.path source⟩ []) :
    ∃ names, Listed site source names ∧ Shows fs (source ++ names) finding := by
  obtain ⟨names, some_name, -, kept, shows⟩ :=
    (mem_walkDirectory_iff tidy (by simp [rule, layout.verbatim]) _ layout.plain_source []).mp found
  exact ⟨names, ⟨some_name, kept⟩, shows⟩

theorem Layout.mem_findings (layout : Layout site source output) (tidy : fs.Tidy) {finding : Finding}
    (listed : Listed site source names) (shows : Shows fs (source ++ names) finding) :
    finding ∈ walkDirectory fs site.rule fs.levels ⟨source, Location.path source⟩ [] := by
  refine (mem_walkDirectory_iff tidy (by simp [rule, layout.verbatim]) _ layout.plain_source []).mpr
    ⟨names, listed.some_name, ?_, listed.kept, shows⟩
  obtain ⟨entry, known, -⟩ := shows.exists_entry
  have bound := tidy.orderly.length_le known
  rw [List.length_append] at bound
  rw [FileSystem.levels]
  omega

theorem Rooted.exists_of_mem_findings (rooted : Rooted site source output) (tidy : fs.Tidy)
    {finding : Finding} {file : Path} (spoken : finding.path? = some file)
    (found : finding ∈ walkDirectory fs site.rule fs.levels ⟨source, Location.path source⟩ []) :
    ∃ names, Listed site source names ∧ Plain names ∧ file = Location.path (source ++ names) := by
  obtain ⟨names, some_name, plain, kept, rfl⟩ :=
    exists_of_mem_walkDirectory tidy fs.levels rooted.plain_source [] spoken found
  exact ⟨names, ⟨some_name, kept⟩, plain, rfl⟩

/-! ## Files, pages and links -/

section Found

variable {config : Config} {findings : List Finding} {file link : Path} {extension : String}
  {format : PageFormat}

theorem finding_of_mem_files (member : file ∈ (Scan.ofFindings config findings).files) :
    .file file ∈ findings ∧ config.pageFormat? file = none := by
  simp only [Scan.ofFindings, List.mem_filter, List.mem_filterMap, Option.isNone_iff_eq_none] at member
  obtain ⟨⟨finding, found, picked⟩, other⟩ := member
  split at picked <;> cases picked
  exact ⟨found, other⟩

theorem mem_files_of_finding (found : .file file ∈ findings) (other : config.pageFormat? file = none) :
    file ∈ (Scan.ofFindings config findings).files := by
  simp only [Scan.ofFindings, List.mem_filter, List.mem_filterMap, Option.isNone_iff_eq_none]
  exact ⟨⟨_, found, rfl⟩, other⟩

theorem finding_of_mem_pages (member : (file, extension, format) ∈ (Scan.ofFindings config findings).pages) :
    .file file ∈ findings ∧ config.pageFormat? file = some (extension, format) := by
  simp only [Scan.ofFindings, List.mem_filterMap, Option.map_eq_some_iff] at member
  obtain ⟨path, ⟨finding, found, picked⟩, parts, page, same⟩ := member
  cases same
  split at picked <;> cases picked
  exact ⟨found, page⟩

theorem mem_pages_of_finding (found : .file file ∈ findings)
    (page : config.pageFormat? file = some (extension, format)) :
    (file, extension, format) ∈ (Scan.ofFindings config findings).pages := by
  simp only [Scan.ofFindings, List.mem_filterMap, Option.map_eq_some_iff]
  exact ⟨file, ⟨_, found, rfl⟩, (extension, format), page, rfl⟩

theorem finding_of_mem_links (member : link ∈ (Scan.ofFindings config findings).links) :
    .link link ∈ findings := by
  simp only [Scan.ofFindings, List.mem_filterMap] at member
  obtain ⟨finding, found, picked⟩ := member
  split at picked <;> cases picked
  exact found

variable (layout : Layout site source output) (tidy : fs.Tidy) (known : fs.IsDirectory source)
  (scanned : site.scan fs = .ok scan)

include layout tidy known scanned

theorem Layout.exists_of_mem_files (member : file ∈ scan.files) :
    ∃ names content time, Listed site source names ∧ file = Location.path (source ++ names) ∧
      fs.get? (source ++ names) = some (.file content time) ∧ site.config.pageFormat? file = none := by
  rw [layout.rooted.scan_eq tidy known] at scanned
  cases scanned
  obtain ⟨found, other⟩ := finding_of_mem_files member
  obtain ⟨names, listed, rfl, content, time, file⟩ := layout.exists_of_mem_findings tidy found
  exact ⟨names, content, time, listed, rfl, file, other⟩

theorem Layout.mem_files (listed : Listed site source names) {content : Bytes} {time : Time}
    (file : fs.get? (source ++ names) = some (.file content time))
    (other : site.config.pageFormat? (Location.path (source ++ names)) = none) :
    Location.path (source ++ names) ∈ scan.files := by
  rw [layout.rooted.scan_eq tidy known] at scanned
  cases scanned
  exact mem_files_of_finding (layout.mem_findings tidy listed (shows_file_iff file |>.mpr rfl)) other

theorem Layout.exists_of_mem_pages (member : (file, extension, format) ∈ scan.pages) :
    ∃ names content time, Listed site source names ∧ file = Location.path (source ++ names) ∧
      fs.get? (source ++ names) = some (.file content time) ∧
      site.config.pageFormat? file = some (extension, format) := by
  rw [layout.rooted.scan_eq tidy known] at scanned
  cases scanned
  obtain ⟨found, page⟩ := finding_of_mem_pages member
  obtain ⟨names, listed, rfl, content, time, file⟩ := layout.exists_of_mem_findings tidy found
  exact ⟨names, content, time, listed, rfl, file, page⟩

omit layout in
theorem Rooted.exists_of_mem_links (rooted : Rooted site source output) (member : link ∈ scan.links) :
    ∃ names target, Listed site source names ∧ link = Location.path (source ++ names) ∧
      fs.get? (source ++ names) = some (.link target) := by
  rw [rooted.scan_eq tidy known] at scanned
  cases scanned
  have found := finding_of_mem_links member
  obtain ⟨names, some_name, -, kept, rfl, target, there⟩ := (mem_walkDirectory_iff tidy
    (unfollowed_of_mem_walkDirectory found) _ rooted.plain_source []).mp found
  exact ⟨names, target, ⟨some_name, kept⟩, rfl, there⟩

end Found

/-! ## Places that a scan gets to -/

theorem Listed.leavesOut {front : List String} {name : String} (listed : Listed site source names)
    (inside : front ++ [name] <+: names) :
    name.startsWith "." = false ∧
      (Location.path (source ++ (front ++ [name]))).same site.templateDirectory = false ∧
      (Location.path (source ++ (front ++ [name]))).same site.outputDirectory = false := by
  have kept := listed.kept.skip inside
  simp only [rule, Site.leavesOut, Bool.or_eq_false_iff] at kept
  exact ⟨kept.1.1, kept.1.2, kept.2⟩

/-- A scan does not get to names that begin with a dot. -/
theorem Listed.undotted (listed : Listed site source names) {name : String} (member : name ∈ names) :
    name.toList.head? ≠ some '.' := by
  obtain ⟨front, rest, rfl⟩ := List.append_of_mem member
  have inside : front ++ [name] <+: front ++ name :: rest := ⟨rest, by simp⟩
  have visible := (listed.leavesOut inside).1
  intro hidden
  obtain ⟨tail, chars⟩ := List.head?_eq_some_iff.mp hidden
  have starts : name.startsWith "." = true := String.startsWith_string_iff.mpr ⟨tail, by rw [chars]; rfl⟩
  rw [starts] at visible
  cases visible

/-- A scan does not get to a place below the source directory whose path it leaves out. -/
theorem Listed.outside (listed : Listed site source names) {place : Location}
    (excluded : Location.path place = site.templateDirectory ∨ Location.path place = site.outputDirectory)
    (below : ¬place <+: source) : ¬place <+: source ++ names := by
  intro inside
  obtain above | ⟨rest, rfl⟩ := List.prefix_or_prefix_of_prefix inside (List.prefix_append source names)
  · exact below above
  · rw [List.prefix_append_right_inj] at inside
    rcases List.eq_nil_or_concat rest with rfl | ⟨front, name, rfl⟩
    · exact below (by simp)
    · rw [List.concat_eq_append] at inside excluded
      have others := (listed.leavesOut inside).2
      obtain same | same := excluded
      · rw [same, Path.same, beq_self_eq_true] at others
        cases others.1
      · rw [same, Path.same, Path.same, beq_self_eq_true] at others
        cases others.2

/-- A scan does not get to the output directory. -/
theorem Layout.outside (layout : Layout site source output) (listed : Listed site source names) :
    ¬output <+: source ++ names :=
  listed.outside (.inr layout.outputDirectory.symm) layout.apart

/-! ## Directories that are not gone down into -/

theorem leavesOut_eq (site : Site) {name : String} (undotted : name.toList.head? ≠ some '.') (path : Path) :
    site.leavesOut name path = (path.same site.templateDirectory || path.same site.outputDirectory) := by
  have visible : name.startsWith "." = false := by
    rw [← Bool.not_eq_true]
    intro starts
    obtain ⟨tail, chars⟩ := String.startsWith_string_iff.mp starts
    exact undotted (by rw [← chars]; rfl)
  rw [Site.leavesOut, visible, Bool.false_or]

/-- Whether a file is a page is told by its name. -/
theorem pageFormat?_path {name : String} (proper : Path.Proper name) (config : Config) (directory : Location) :
    config.pageFormat? (Location.path (directory ++ [name])) =
      (Path.cutExtension? name.toList.reverse).bind fun cut =>
        let dotted := "." ++ String.ofList (Text.toLowerCase cut.1.reverse)
        (config.pageExtensions.lookup dotted).bind fun format => some (dotted, format) := by
  rw [Config.pageFormat?, Path.extension?, Location.fileName?_path proper]
  cases cut : Path.cutExtension? name.toList.reverse <;> simp [cut]

/-- What an entry that is no directory is found as. -/
def found? (path : Path) : Entry → Option Finding
  | .file _ _ => some (.file path)
  | .link _ => some (.link path)
  | .directory _ => none

/-- What a scan finds under names of its source directory, if it goes down into none of them. -/
def shown (site : Site) (fs : FileSystem) (source : Location) (names : List String) : List Finding :=
  names.flatMap fun name =>
    if (Location.path (source ++ [name])).same site.templateDirectory ∨
        (Location.path (source ++ [name])).same site.outputDirectory then []
    else ((fs.get? (source ++ [name])).bind (found? (Location.path (source ++ [name])))).toList

/-- What a scan finds, if it leaves out all directories of its source directory. -/
theorem Rooted.scan_flat (rooted : Rooted site source output) (tidy : fs.Tidy) (known : fs.IsDirectory source)
    (verbatim : site.config.verbatimLinks = true) (listed : fs.names source = names)
    (undotted : ∀ name ∈ names, name.toList.head? ≠ some '.')
    (flat : ∀ name ∈ names, (fs.get? (source ++ [name])).bind (found? (Location.path (source ++ [name]))) = none →
      (Location.path (source ++ [name])).same site.templateDirectory ∨
        (Location.path (source ++ [name])).same site.outputDirectory) :
    site.scan fs = .ok (.ofFindings site.config (site.shown fs source names)) := by
  rw [rooted.scan_eq tidy known, FileSystem.levels, walkDirectory_succ, listed]
  refine congrArg Except.ok (congrArg (Scan.ofFindings site.config) (List.flatMap_congr fun name member => ?_))
  have proper : Plain (source ++ [name]) := by
    obtain ⟨entry, there⟩ := FileSystem.mem_names.mp (listed ▸ member)
    exact tidy.plain there
  have path := Location.path_join_name rooted.plain_source proper.last
  obtain ⟨entry, there⟩ := FileSystem.mem_names.mp (listed ▸ member)
  have unfollowed : site.rule.follow = false := by simp [rule, verbatim]
  have skip : site.rule.skip name (Location.path (source ++ [name])) = _ :=
    leavesOut_eq site (undotted name member) _
  have flat := flat name member
  simp only [walkUnder, path, visit_of_get? unfollowed there, skip, there, Bool.or_eq_true] at flat ⊢
  cases entry with
  | file content time => rfl
  | link target => rfl
  | directory time =>
      rw [seen]
      dsimp only
      rw [if_pos (flat rfl), if_pos (flat rfl)]

end Site

end StaticSite
