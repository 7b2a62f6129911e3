import StaticSite.Proofs.Site.Stages

/-!
Building a site again. What the first build left below the output directory is what the second build finds
there, and a file that is not copied again is as it was when it was copied.
-/

namespace StaticSite

open Path (ofNames)
open Location (Plain)
open FileSystem (Alters Tidy)

namespace Site

variable {site : Site} {source output : Location} {names : List String} {scan : Scan}
  {base fs after : FileSystem} {outcomes : List Outcome} {content : Bytes} {time : Time}

/-! ## A build over what is there -/

/-- Whatever stands where a file needs no copying is not older than the file. -/
theorem Copyable.exists_recent {origin target : Location}
    (copyable : Copyable fs origin target content time)
    (positive : 0 < time) (fresh : fs.isStale (Location.path origin) (Location.path target) = .ok false) :
    ∃ entry made, fs.get? target = some entry ∧ entry.time? = some made ∧ time ≤ made := by
  have origin_name : origin ≠ [] := by
    rintro rfl
    have known := copyable.known
    simp [FileSystem.get?] at known
  have timed := FileSystem.modified_of_find (copyable.ready.orderly.find_path copyable.plain' origin_name
    copyable.known (by simp))
  simp only [FileSystem.isStale, timed, bind, Except.bind, pure, Except.pure, Except.ok.injEq,
    decide_eq_false_iff_not, not_lt] at fresh
  cases found : fs.modified (Location.path target) with
  | error error =>
      rw [found] at fresh
      exact absurd (lt_of_lt_of_le positive fresh) (lt_irrefl _)
  | ok made =>
      rw [found] at fresh
      obtain ⟨⟨place, entry⟩, finds⟩ := FileSystem.exists_find_of_modified found
      obtain rfl := FileSystem.eq_of_walk_straight copyable.plain copyable.some_name copyable.ready.straight
        (FileSystem.walk_of_find finds)
      refine ⟨entry, made, FileSystem.get?_of_find finds, ?_, fresh⟩
      cases entry <;> simp [FileSystem.modified, finds, bind, Except.bind] at found <;>
        simp [Entry.time?, found]

/-- After a build in which nothing failed, a file has its copy, or what stands there was there before and is
not older than the file. -/
theorem Layout.copied_or_recent (layout : Layout site source output) (tidy : base.Tidy)
    (known : base.IsDirectory source) (scanned : site.scan base = .ok scan)
    (room : Room site source output base scan) (distinct : (site.outputs base scan).Nodup)
    (isFile : IsFile site source base names content time)
    (member : Location.path (source ++ names) ∈ scan.files) (course : Course site scan base outcomes after)
    (succeeds : ∀ outcome ∈ outcomes, outcome ≠ .failed ∧ outcome ≠ .fallback) (positive : 0 < time) :
    (∃ made, after.get? (output ++ names) = some (.file content made)) ∨
      ∃ entry made, base.get? (output ++ names) = some entry ∧ after.get? (output ++ names) = some entry ∧
        entry.time? = some made ∧ time ≤ made := by
  obtain ⟨mid, result, underway, same, copies, listed, final⟩ :=
    layout.exists_copies tidy known scanned room distinct isFile member course
      fun outcome among => .inr (succeeds outcome among)
  cases copies with
  | failed => exact absurd rfl (succeeds _ listed).1
  | copied alters holds => exact .inl ⟨_, final.trans holds⟩
  | unchanged fresh =>
      right
      have free := room.open_file tidy isFile member
      have copyable := layout.copyable tidy isFile.listed isFile.known free underway
      obtain ⟨entry, made, there, timed, recent⟩ := copyable.exists_recent positive fresh
      exact ⟨entry, made, same ▸ there, final.trans there, timed, recent⟩

theorem Summary.succeeds {unvisited : Nat} (whole : (Summary.ofOutcomes outcomes unvisited).failed = 0)
    (built : (Summary.ofOutcomes outcomes unvisited).fallbacks = 0) :
    ∀ outcome ∈ outcomes, outcome ≠ .failed ∧ outcome ≠ .fallback := by
  simp only [Summary.ofOutcomes, Nat.add_eq_zero_iff, List.count_eq_zero] at whole built
  intro outcome member
  exact ⟨fun same => whole.1 (same ▸ member), fun same => built (same ▸ member)⟩

/-! ## The first build -/

/-- Before the first build: there is no output directory and no link above it, and files were changed after
the epoch. -/
structure Fresh (source output : Location) (fs : FileSystem) : Prop where
  tidy : fs.Tidy
  known : fs.IsDirectory source
  absent : fs.get? output = none
  straight : fs.Straight true output
  positive : ∀ names content time, fs.get? (source ++ names) = some (.file content time) → 0 < time
  started : 0 ≤ fs.now

namespace Fresh

theorem get?_below (fresh : Fresh source output base) {place : Location} (below : output <+: place) :
    base.get? place = none :=
  fresh.tidy.orderly.absent_below fresh.absent below

/-- No link stands where nothing is yet. -/
theorem free (fresh : Fresh source output base) :
    ∀ place, output <+: place → base.Straight true place := by
  intro place below other target inside link
  obtain above | beneath := List.prefix_or_prefix_of_prefix inside below
  · exact absurd (fresh.straight other target above link).1 (by simp)
  · rw [fresh.get?_below beneath] at link
    cases link

end Fresh

/-- What the first build leaves. -/
structure Built (site : Site) (source output : Location) (base after : FileSystem) : Prop where
  /-- Files of the site were there before. -/
  sources : ∀ {names content time}, Listed site source names →
    after.get? (source ++ names) = some (.file content time) →
    base.get? (source ++ names) = some (.file content time)
  /-- What is below the output directory was made by the build. -/
  made : ∀ {place entry time}, output <+: place → after.get? place = some entry → entry.time? = some time →
    time = base.now
  /-- Where a file goes is nothing or a copy. -/
  files : ∀ {names content time}, IsFile site source base names content time →
    ∀ entry, after.get? (output ++ names) = some entry → entry = .file content base.now

theorem Layout.built (layout : Layout site source output) {first : Workspace}
    (fresh : Fresh source output first.fs)
    (distinct : ∀ scan, site.scan first.fs = .ok scan → (site.outputs first.fs scan).Nodup) :
    Built site source output first.fs (site.renderAll first).2.fs := by
  obtain ⟨scan, scanned⟩ : ∃ scan, site.scan first.fs = .ok scan :=
    ⟨_, layout.rooted.scan_eq fresh.tidy fresh.known⟩
  obtain ⟨outcomes, course, -⟩ := course_buildScan site scan first
  rw [renderAll_eq scanned]
  have room : Room site source output first.fs scan := room_of_open fresh.free
  have settled (outcome : Outcome) (_ : outcome ∈ outcomes) : Settled first.fs output outcome :=
    .inl fresh.free
  have alters := layout.alters_build fresh.tidy fresh.known scanned room course settled
  refine ⟨fun {names content time} listed known => ?_, fun {place entry time} below known timed => ?_,
    fun {names content time} isFile entry known => ?_⟩
  · refine alters.before known (by simp) (fun inside => layout.outside listed inside.1) ?_
    rintro ⟨others, target, same, -⟩
    exact layout.outside listed ⟨others, same.symm⟩
  · -- nothing was there before, and a link has no time
    obtain before | made := alters.makes known
    · rw [fresh.get?_below below] at before
      cases before
    · cases made <;> simp_all [Entry.time?]
  · have member := layout.mem_files fresh.tidy fresh.known scanned isFile.listed isFile.known isFile.other
    obtain ⟨mid, result, underway, same, copies, -, final⟩ := layout.exists_copies fresh.tidy fresh.known
      scanned room (distinct scan scanned) isFile member course settled
    have nothing := same.trans (fresh.get?_below (List.prefix_append _ _))
    rw [final] at known
    cases copies with
    | unchanged => rw [nothing] at known; cases known
    | failed alters keeps => rw [keeps, nothing] at known; cases known
    | copied alters holds =>
        rw [holds, underway.now] at known
        exact (Option.some.inj known).symm

/-! ## The second build -/

/-- An edit that leaves the output directory alone. Files that are new or changed are later than the first
build. -/
structure Edited (source output : Location) (built : FileSystem) (since : Time)
    (fs : FileSystem) : Prop where
  tidy : fs.Tidy
  known : fs.IsDirectory source
  keeps : ∀ place, output <+: place → fs.get? place = built.get? place
  later : ∀ names content time, fs.get? (source ++ names) = some (.file content time) →
    built.get? (source ++ names) = some (.file content time) ∨ since < time

/-- After a second build that counts nothing as failed and no page as copied, every file that is no page has
its bytes at its place below the output directory, if no link is in the way of what the build does. -/
theorem rebuild_copies_files (layout : Layout site source output) (first second : Workspace)
    (fresh : Fresh source output first.fs)
    (distinct : ∀ scan, site.scan first.fs = .ok scan → (site.outputs first.fs scan).Nodup)
    (edited : Edited source output (site.renderAll first).2.fs first.fs.now second.fs)
    (scanned : site.scan second.fs = .ok scan) (distinct' : (site.outputs second.fs scan).Nodup)
    (room : Room site source output second.fs scan) {summary : Summary}
    (rebuilt : (site.renderAll second).1 = .ok summary) (whole : summary.failed = 0)
    (rendered : summary.fallbacks = 0) :
    ∀ file ∈ scan.files, ∃ names content time made, file = site.sourceDirectory.join (ofNames names) ∧
      second.fs.get? (source ++ names) = some (.file content time) ∧
      (site.renderAll second).2.fs.get? (output ++ names) = some (.file content made) := by
  intro file member
  have built := layout.built fresh distinct
  obtain ⟨names, content, time, rfl, isFile⟩ := layout.exists_isFile edited.tidy edited.known scanned member
  obtain ⟨outcomes, course, counted⟩ := course_buildScan site scan second
  rw [renderAll_eq scanned] at rebuilt ⊢
  cases rebuilt
  rw [counted] at whole rendered
  have path : Location.path (source ++ names) = site.sourceDirectory.join (ofNames names) := by
    rw [layout.sourceDirectory, Location.path_join layout.plain_source isFile.listed.some_name
      (plain_names edited.tidy isFile.known)]
  -- a file that the edit left alone was a file of the first build
  have old (same : (site.renderAll first).2.fs.get? (source ++ names) = some (.file content time)) :
      IsFile site source first.fs names content time :=
    ⟨isFile.listed, built.sources isFile.listed same, isFile.other⟩
  have positive : 0 < time := by
    obtain same | later := edited.later names content time isFile.known
    · exact fresh.positive _ _ _ (old same).known
    · exact lt_of_le_of_lt fresh.started later
  obtain ⟨made, copied⟩ | ⟨entry, made, before, after, timed, recent⟩ :=
    layout.copied_or_recent edited.tidy edited.known scanned room distinct' isFile member course
      (Summary.succeeds whole rendered) positive
  · exact ⟨names, content, time, made, path, isFile.known, copied⟩
  · have below : output <+: output ++ names := List.prefix_append _ _
    rw [edited.keeps _ below] at before
    have sameTime := built.made below before timed
    -- what is there was made by the first build: of a file that was edited since, it would be older
    obtain same | later := edited.later names content time isFile.known
    · have copy := built.files (old same) entry before
      exact ⟨names, content, time, _, path, isFile.known, copy ▸ after⟩
    · exact absurd (lt_of_lt_of_le later recent) (by simp [sameTime])

/-! ## Two builds of a small site -/

section Sample

theorem layout_sampleSite : Layout sampleSite ["s"] ["s", "_build"] where
  sourceDirectory := rfl
  outputDirectory := rfl
  plain_source := by decide
  plain_output := by decide
  apart := by decide
  verbatim := rfl

/-- A file and a link to it. -/
def linkedFiles : FileSystem where
  entries :=
    [(["s"], .directory 0), (["s", "real.txt"], .file (Text.Utf8.encode "real") 1),
      (["s", "x.txt"], .link ⟨"real.txt"⟩)]
  now := 9
  workingDirectory := []

theorem tidy_linkedFiles : linkedFiles.Tidy := by
  refine FileSystem.tidy_of_entries ?_ (by decide)
  simp only [linkedFiles, List.forall_mem_cons]
  exact ⟨⟨0, rfl⟩, ⟨0, rfl⟩, ⟨0, rfl⟩, by simp⟩

theorem known_linkedFiles : linkedFiles.IsDirectory ["s"] := ⟨0, rfl⟩

theorem names_linkedFiles : linkedFiles.names ["s"] = ["real.txt", "x.txt"] :=
  FileSystem.names_of_ordered rfl (by decide)

theorem pageFormat?_sample : ∀ name ∈ ["real.txt", "x.txt"],
    sampleSite.config.pageFormat? (Location.path ["s", name]) = none := by
  have proper : ∀ name ∈ ["real.txt", "x.txt"], Path.Proper name := by decide
  intro name member
  have told := pageFormat?_path (proper name member) sampleSite.config ["s"]
  rw [List.singleton_append] at told
  rw [told]
  simp only [List.mem_cons, List.not_mem_nil, or_false] at member
  obtain rfl | rfl := member <;> decide

theorem scan_linkedFiles : sampleSite.scan linkedFiles =
    .ok ⟨[], [Location.path ["s", "real.txt"]], [Location.path ["s", "x.txt"]], []⟩ := by
  have shown : sampleSite.shown linkedFiles ["s"] ["real.txt", "x.txt"] =
      [.file (Location.path ["s", "real.txt"]), .link (Location.path ["s", "x.txt"])] := by decide
  rw [layout_sampleSite.rooted.scan_flat tidy_linkedFiles known_linkedFiles rfl names_linkedFiles (by decide)
    (by decide), shown]
  simp [Scan.ofFindings, pageFormat?_sample]

/-- What the first build makes of them. -/
def builtFiles : FileSystem where
  entries :=
    [(["s", "_build", "x.txt"], .link ⟨"real.txt"⟩),
      (["s", "_build", "real.txt"], .file (Text.Utf8.encode "real") 9), (["s", "_build"], .directory 9)] ++
      linkedFiles.entries
  now := 9
  workingDirectory := []

theorem placeOf_sample (name : String) (proper : Path.Proper name) :
    sampleSite.placeOf (Location.path ["s", name]) = Location.path ["s", "_build", name] :=
  layout_sampleSite.rooted.placeOf_path (List.cons_ne_nil name []) (by simpa [Plain] using proper)

theorem makeParent_sample (name : String) (proper : Path.Proper name) :
    FileSystem.makeParent (Location.path ["s", "_build", name]) =
      FileSystem.makeDirectories (Location.path ["s", "_build"]) := by
  have plain : Plain (["s", "_build"] ++ [name]) := by
    have others : Path.Proper "s" ∧ Path.Proper "_build" := by decide
    simpa [Plain] using ⟨others.1, others.2, proper⟩
  have parent := Location.parent?_path plain
  rw [List.cons_append, List.cons_append, List.nil_append] at parent
  rw [FileSystem.makeParent, parent]
  rfl

/-- The files when the file was copied and the link not yet recreated. -/
def copiedFiles : FileSystem where
  entries :=
    [(["s", "_build", "real.txt"], .file (Text.Utf8.encode "real") 9), (["s", "_build"], .directory 9)] ++
      linkedFiles.entries
  now := 9
  workingDirectory := []

theorem copyFile_linkedFiles : FileSystem.copyFile (Location.path ["s", "real.txt"])
    (Location.path ["s", "_build", "real.txt"]) linkedFiles = (.ok 4, copiedFiles) := by
  rw [FileSystem.copyFile, makeParent_sample _ (by decide)]
  rfl

theorem renderAll_linkedFiles : sampleSite.renderAll { fs := linkedFiles } =
    (.ok ⟨0, 1, 1, 0, 0⟩, { fs := builtFiles }) := by
  have stale : linkedFiles.isStale (Location.path ["s", "real.txt"])
      (Location.path ["s", "_build", "real.txt"]) = .ok true := by decide
  have copied : sampleSite.copyVerbatim (Location.path ["s", "real.txt"]) { fs := linkedFiles } =
      (.copied, { fs := copiedFiles }) := by
    rw [copyVerbatim_apply, placeOf_sample _ (by decide), stale]
    dsimp only
    rw [copyFile_linkedFiles]
  have linked : sampleSite.recreateLink (Location.path ["s", "x.txt"]) { fs := copiedFiles } =
      (.linked, { fs := builtFiles }) := by
    rw [recreateLink_apply, placeOf_sample _ (by decide)]
    rfl
  rw [renderAll_eq scan_linkedFiles,
    buildScan_verbatim (forEach_cons copied []) (forEach_cons linked []) rfl]
  rfl

/-- The files before a second build, with other entries in the place of the two. -/
def laterFiles (real x : Entry) : FileSystem where
  entries :=
    [(["s", "_build", "x.txt"], .link ⟨"real.txt"⟩),
      (["s", "_build", "real.txt"], .file (Text.Utf8.encode "real") 9), (["s", "_build"], .directory 9),
      (["s"], .directory 0), (["s", "real.txt"], real), (["s", "x.txt"], x)]
  now := 30
  workingDirectory := []

theorem get?_laterFiles (real x : Entry) (place : Location) :
    (laterFiles real x).get? place =
      if place = ["s", "real.txt"] then some real else if place = ["s", "x.txt"] then some x
      else builtFiles.get? place := by
  by_cases first : place = ["s", "real.txt"]
  · subst first
    rfl
  by_cases second : place = ["s", "x.txt"]
  · subst second
    rfl
  rw [if_neg first, if_neg second]
  simp [FileSystem.get?, laterFiles, builtFiles, linkedFiles, List.find?_cons, Ne.symm first,
    Ne.symm second]

theorem tidy_laterFiles (real x : Entry) : (laterFiles real x).Tidy := by
  refine FileSystem.tidy_of_entries ?_ ?_
  · simp only [laterFiles, List.forall_mem_cons]
    exact ⟨⟨9, rfl⟩, ⟨9, rfl⟩, ⟨0, rfl⟩, ⟨0, rfl⟩, ⟨0, rfl⟩, ⟨0, rfl⟩, by simp⟩
  · simp only [laterFiles, List.forall_mem_cons]
    exact ⟨by decide, by decide, by decide, by decide, by decide, by decide, by simp⟩

theorem names_laterFiles (real x : Entry) :
    (laterFiles real x).names ["s"] = ["_build", "real.txt", "x.txt"] :=
  FileSystem.names_of_ordered rfl (by decide)

/-- An edit of the two entries, after the first build. -/
theorem edited_laterFiles {real x : Entry}
    (later : ∀ content time, real = .file content time →
      real = .file (Text.Utf8.encode "real") 1 ∨ 9 < time)
    (later' : ∀ content time, x = .file content time → 9 < time) :
    Edited ["s"] ["s", "_build"] builtFiles 9 (laterFiles real x) where
  tidy := tidy_laterFiles real x
  known := ⟨0, rfl⟩
  keeps place below := by
    rw [get?_laterFiles, if_neg, if_neg] <;> rintro rfl <;> revert below <;> decide
  later names content time known := by
    rw [get?_laterFiles] at known
    split at known
    case isTrue same =>
      cases known
      refine (later content time rfl).imp (fun old => ?_) id
      rw [same, old]
      rfl
    case isFalse =>
      split at known
      · cases known
        exact .inr (later' content time rfl)
      · exact .inl known

theorem fresh_linkedFiles : Fresh ["s"] ["s", "_build"] linkedFiles where
  tidy := tidy_linkedFiles
  known := known_linkedFiles
  absent := rfl
  straight place target inside link := by
    have split : place <+: ["s"] ++ ["_build"] := inside
    obtain same | above := List.prefix_concat_iff.mp split
    · rw [same] at link
      cases link
    · have root : linkedFiles.get? ["s"] = some (.directory 0) := rfl
      have straight : linkedFiles.Straight true ["s"] := tidy_linkedFiles.orderly.straight root (by simp)
      exact absurd (straight place target above link).1 (by simp)
  positive names content time known := by
    have listed := (FileSystem.exists_get?_iff (by simp)).mp ⟨_, known⟩
    simp only [linkedFiles, List.map_cons, List.map_nil, List.mem_cons,
      List.not_mem_nil, or_false] at listed
    obtain same | same | same := listed <;> rw [same] at known <;> cases known
    decide
  started := by decide

theorem within_sample (name : String) (proper : Path.Proper name) :
    sampleSite.within (Location.path ["s", name]) = ofNames [name] :=
  layout_sampleSite.rooted.within_path (List.cons_ne_nil name []) (by simpa [Plain] using proper)

theorem outputs_sample (fs : FileSystem) (files links : List String)
    (proper : ∀ name ∈ files ++ links, Path.Proper name) :
    sampleSite.outputs fs ⟨[], files.map fun name => Location.path ["s", name],
      links.map fun name => Location.path ["s", name], []⟩ =
      (files ++ links).map fun name => ofNames [name] := by
  have read : sampleSite.readPages fs [] = ([], []) := rfl
  rw [outputs, read, List.map_nil, List.append_nil, List.map_map, List.map_map, ← List.map_append]
  exact List.map_congr_left fun name member => within_sample name (proper name member)

/-- Two names below the directories of the sample site that have the same path are the same. -/
theorem names_sample {name : String} (proper : Path.Proper name) {names : List String} (plain : Plain names)
    (same : Location.path (["s"] ++ names) = Location.path ["s", name]) : names = [name] := by
  have source : Plain ["s"] := layout_sampleSite.plain_source
  have single : Plain [name] := by simpa [Plain] using proper
  have whole := Location.path_injective (by simp) (by simp) (source.append plain)
    (source.append single) same
  exact (List.cons.inj whole).2

/-- The file is edited. -/
def editedFiles : FileSystem := laterFiles (.file (Text.Utf8.encode "news") 20) (.link ⟨"real.txt"⟩)

theorem scan_editedFiles : sampleSite.scan editedFiles =
    .ok ⟨[], ["real.txt"].map fun name => Location.path ["s", name],
      ["x.txt"].map fun name => Location.path ["s", name], []⟩ := by
  have shown : sampleSite.shown editedFiles ["s"] ["_build", "real.txt", "x.txt"] =
      [.file (Location.path ["s", "real.txt"]), .link (Location.path ["s", "x.txt"])] := by decide
  have tidy : editedFiles.Tidy := tidy_laterFiles _ _
  rw [layout_sampleSite.rooted.scan_flat tidy ⟨0, rfl⟩ rfl (names_laterFiles _ _) (by decide) (by decide), shown]
  simp [Scan.ofFindings, pageFormat?_sample]

theorem room_editedFiles : Room sampleSite ["s"] ["s", "_build"] editedFiles
    ⟨[], ["real.txt"].map fun name => Location.path ["s", name],
      ["x.txt"].map fun name => Location.path ["s", name], []⟩ where
  files names plain member := by
    rw [names_sample (by decide) plain (List.mem_singleton.mp member)]
    exact (tidy_laterFiles _ _).orderly.straight
      (rfl : editedFiles.get? ["s", "_build", "real.txt"] = some _) (by simp)
  pages page member := by cases member
  links names plain member := by
    rw [names_sample (by decide) plain (List.mem_singleton.mp member)]
    exact (tidy_laterFiles _ _).orderly.straight (rfl : editedFiles.get? ["s", "_build", "x.txt"] = some _)
      (by simp)

theorem renderAll_editedFiles :
    (sampleSite.renderAll { fs := editedFiles }).1 = .ok ⟨0, 1, 1, 0, 0⟩ := by
  have stale : editedFiles.isStale (Location.path ["s", "real.txt"])
      (Location.path ["s", "_build", "real.txt"]) = .ok true := by decide
  let after := editedFiles.put ["s", "_build", "real.txt"] (.file (Text.Utf8.encode "news") 30)
  have copy : FileSystem.copyFile (Location.path ["s", "real.txt"])
      (Location.path ["s", "_build", "real.txt"]) editedFiles = (.ok 4, after) := rfl
  have copied : sampleSite.copyVerbatim (Location.path ["s", "real.txt"]) { fs := editedFiles } =
      (.copied, { fs := after }) := by
    rw [copyVerbatim_apply, placeOf_sample _ (by decide), stale]
    dsimp only
    rw [copy]
  have linked : sampleSite.recreateLink (Location.path ["s", "x.txt"]) { fs := after } =
      (.linked, { fs := after }) := by
    rw [recreateLink_apply, placeOf_sample _ (by decide)]
    rfl
  rw [renderAll_eq scan_editedFiles, List.map_cons, List.map_nil, List.map_cons, List.map_nil,
    buildScan_verbatim (forEach_cons copied []) (forEach_cons linked []) rfl]
  rfl

theorem nodup_outputs_sample (fs : FileSystem) (files links : List String)
    (proper : ∀ name ∈ files ++ links, Path.Proper name)
    (distinct : ((files ++ links).map fun name => ofNames [name]).Nodup) :
    (sampleSite.outputs fs ⟨[], files.map fun name => Location.path ["s", name],
      links.map fun name => Location.path ["s", name], []⟩).Nodup := by
  rwa [outputs_sample fs files links proper]

theorem nodup_outputs_linkedFiles (scan : Scan) (scanned : sampleSite.scan linkedFiles = .ok scan) :
    (sampleSite.outputs linkedFiles scan).Nodup := by
  rw [scan_linkedFiles] at scanned
  cases scanned
  exact nodup_outputs_sample linkedFiles ["real.txt"] ["x.txt"] (by decide) (by decide)

theorem rebuild_copies_files_sample :
    ∃ scan, sampleSite.scan editedFiles = .ok scan ∧ scan.files = [Location.path ["s", "real.txt"]] ∧
      ∀ file ∈ scan.files, ∃ names content time made,
        file = sampleSite.sourceDirectory.join (ofNames names) ∧
        editedFiles.get? (["s"] ++ names) = some (.file content time) ∧
        (sampleSite.renderAll { fs := editedFiles }).2.fs.get? (["s", "_build"] ++ names) =
          some (.file content made) := by
  refine ⟨_, scan_editedFiles, rfl, ?_⟩
  have edited : Edited ["s"] ["s", "_build"] (sampleSite.renderAll { fs := linkedFiles }).2.fs
      linkedFiles.now editedFiles := by
    rw [renderAll_linkedFiles]
    exact edited_laterFiles (by simp) (by simp)
  have distinct := nodup_outputs_sample editedFiles ["real.txt"] ["x.txt"] (by decide) (by decide)
  exact rebuild_copies_files layout_sampleSite { fs := linkedFiles } { fs := editedFiles } fresh_linkedFiles
    nodup_outputs_linkedFiles edited scan_editedFiles distinct room_editedFiles
    renderAll_editedFiles rfl rfl

/-- The link is replaced by a file of its own. -/
def replacedFiles : FileSystem :=
  laterFiles (.file (Text.Utf8.encode "real") 1) (.file (Text.Utf8.encode "other") 20)

theorem scan_replacedFiles : sampleSite.scan replacedFiles =
    .ok ⟨[], ["real.txt", "x.txt"].map fun name => Location.path ["s", name],
      [].map fun name => Location.path ["s", name], []⟩ := by
  have shown : sampleSite.shown replacedFiles ["s"] ["_build", "real.txt", "x.txt"] =
      [.file (Location.path ["s", "real.txt"]), .file (Location.path ["s", "x.txt"])] := by decide
  have tidy : replacedFiles.Tidy := tidy_laterFiles _ _
  rw [layout_sampleSite.rooted.scan_flat tidy ⟨0, rfl⟩ rfl (names_laterFiles _ _) (by decide) (by decide), shown]
  simp [Scan.ofFindings, pageFormat?_sample]

/-- What the second build leaves: the new file was written through the link that the first one recreated. -/
def overwrittenFiles : FileSystem :=
  replacedFiles.put ["s", "_build", "real.txt"] (.file (Text.Utf8.encode "other") 30)

theorem renderAll_replacedFiles :
    sampleSite.renderAll { fs := replacedFiles } = (.ok ⟨0, 1, 0, 0, 0⟩, { fs := overwrittenFiles }) := by
  have fresh : replacedFiles.isStale (Location.path ["s", "real.txt"])
      (Location.path ["s", "_build", "real.txt"]) = .ok false := by decide
  have stale : replacedFiles.isStale (Location.path ["s", "x.txt"])
      (Location.path ["s", "_build", "x.txt"]) = .ok true := by decide
  have copy : FileSystem.copyFile (Location.path ["s", "x.txt"]) (Location.path ["s", "_build", "x.txt"])
      replacedFiles = (.ok 5, overwrittenFiles) := rfl
  have unchanged : sampleSite.copyVerbatim (Location.path ["s", "real.txt"]) { fs := replacedFiles } =
      (.unchanged, { fs := replacedFiles }) := by
    rw [copyVerbatim_apply, placeOf_sample _ (by decide), fresh]
  have copied : sampleSite.copyVerbatim (Location.path ["s", "x.txt"]) { fs := replacedFiles } =
      (.copied, { fs := overwrittenFiles }) := by
    rw [copyVerbatim_apply, placeOf_sample _ (by decide), stale]
    dsimp only
    rw [copy]
  have ran := forEach_cons unchanged [Location.path ["s", "x.txt"]]
  rw [forEach_cons copied, forEach_nil] at ran
  rw [renderAll_eq scan_replacedFiles, List.map_cons, List.map_cons, List.map_nil,
    buildScan_verbatim ran (forEach_nil _ _) rfl]
  rfl

/-- A link that the first build recreated stays when a file takes its place in the source: the second build
counts the file as copied, but its bytes are those of the file that the link leads to. -/
theorem rebuild_copies_through_link :
    Layout sampleSite ["s"] ["s", "_build"] ∧ Fresh ["s"] ["s", "_build"] linkedFiles ∧
      (∀ scan, sampleSite.scan linkedFiles = .ok scan → (sampleSite.outputs linkedFiles scan).Nodup) ∧
      Edited ["s"] ["s", "_build"] (sampleSite.renderAll { fs := linkedFiles }).2.fs linkedFiles.now
        replacedFiles ∧
      ∃ scan summary after, sampleSite.scan replacedFiles = .ok scan ∧
        (sampleSite.outputs replacedFiles scan).Nodup ∧
        sampleSite.renderAll { fs := replacedFiles } = (.ok summary, after) ∧
        summary.failed = 0 ∧ summary.fallbacks = 0 ∧
        scan.files = [Location.path ["s", "real.txt"], Location.path ["s", "x.txt"]] ∧
        replacedFiles.get? ["s", "x.txt"] = some (.file (Text.Utf8.encode "other") 20) ∧
        after.fs.get? ["s", "_build", "x.txt"] = some (.link ⟨"real.txt"⟩) ∧
        replacedFiles.get? ["s", "real.txt"] = some (.file (Text.Utf8.encode "real") 1) ∧
        after.fs.get? ["s", "_build", "real.txt"] = some (.file (Text.Utf8.encode "other") 30) := by
  refine ⟨layout_sampleSite, fresh_linkedFiles, nodup_outputs_linkedFiles, ?_, _, _, _, scan_replacedFiles,
    nodup_outputs_sample _ _ _ (by decide) (by decide), renderAll_replacedFiles, rfl, rfl, rfl, rfl,
    rfl, rfl, rfl⟩
  rw [renderAll_linkedFiles]
  refine edited_laterFiles (fun content time same => .inl rfl) fun content time same => ?_
  cases same
  decide

end Sample

end Site

end StaticSite
