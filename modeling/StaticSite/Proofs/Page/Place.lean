import StaticSite.Page.Basic
import StaticSite.Proofs.Path.Naming

/-!
Where pages end up. The output file and the address of a page are given by the place of its source below
the source directory, and the last two extensions of the source make no difference to them.
-/

namespace StaticSite.Page

open StaticSite.Path (ofNames stem Proper Visible leading)

/-- The place of a page source below the source directory. -/
structure Place where
  directories : List String
  name : String
  proper : ∀ directory ∈ directories, Proper directory
  visible : Visible name

namespace Place

/-- The source of a page as seen from the source directory. -/
def path (place : Place) : Path := ofNames (place.directories ++ [place.name])

/-- The name that a page goes by. -/
def pageName (place : Place) : String := stem place.name

/-- The file that a page is written to, without directories. -/
def file (place : Place) : String := stem place.pageName ++ ".html"

/-- The names of the output file. -/
def output (place : Place) : List String := place.directories ++ [place.file]

/-- The address of a page below the base address. -/
def address (place : Place) : String :=
  if place.pageName = "index" then String.ofList (leading place.directories)
  else (ofNames place.output).text

variable (place : Place)

theorem visible_pageName : Visible place.pageName := place.visible.stem

theorem visible_file : Visible place.file := place.visible_pageName.stem.append ".html" (by decide)

theorem proper_output : ∀ name ∈ place.output, Proper name := by
  intro name member
  obtain among | last := List.mem_append.mp member
  · exact place.proper name among
  · obtain rfl := List.mem_singleton.mp last
    exact place.visible_file.toProper

theorem proper_path : ∀ name ∈ place.directories ++ [place.name], Proper name := by
  intro name member
  obtain among | last := List.mem_append.mp member
  · exact place.proper name among
  · obtain rfl := List.mem_singleton.mp last
    exact place.visible.toProper

end Place

theorem urlPath_ofNames {names : List String} (proper : ∀ name ∈ names, Proper name) :
    urlPath (ofNames names) = (ofNames names).text := by
  rw [urlPath, Path.components_ofNames proper, List.filterMap_map]
  congr 1
  exact List.filterMap_some

/-- Directories with a slash behind each. -/
theorem ofList_leading {names : List String} (proper : ∀ name ∈ names, Proper name) :
    String.ofList (leading names) =
      if (ofNames names).text.isEmpty then "" else (ofNames names).text ++ "/" := by
  rcases List.eq_nil_or_concat names with rfl | ⟨front, last, rfl⟩
  · rfl
  · have filled : (ofNames (front.concat last)).text.isEmpty = false := by
      rw [← Bool.not_eq_true, String.isEmpty_iff, ← String.toList_inj, List.concat_eq_append,
        Path.toList_ofNames_append]
      simp [(proper last (by simp)).toList_ne.1]
    rw [filled, if_neg (by simp), ← String.toList_inj, String.toList_append, List.concat_eq_append,
      Path.toList_ofNames_append]
    simp [leading]

theorem stem_index : stem "index" = "index" := rfl

/-- The output file and the address that a place gives, in one form for indices and other pages. -/
theorem target_pageName (place : Place) (baseUrl : String) :
    target baseUrl (ofNames (place.directories ++ [place.pageName])) =
      (ofNames place.output, baseUrl ++ place.address) := by
  have visible := place.visible_pageName
  rw [target, Path.fileName?_ofNames visible.toProper, Option.getD_some, Place.address]
  by_cases index : place.pageName = "index"
  · have file : place.file = "index.html" := by rw [Place.file, index, stem_index]; rfl
    have proper : Proper "index.html" := file ▸ place.visible_file.toProper
    have joined := Path.ofNames_join place.proper proper
    rw [if_pos (by simpa using index), if_pos index, Path.parent?_ofNames visible.toProper place.proper,
      Option.getD_some, Place.output, file]
    dsimp only
    rw [urlPath_ofNames place.proper, ofList_leading place.proper]
    refine Prod.ext joined ?_
    dsimp only
    split
    · exact String.append_empty.symm
    · exact String.append_assoc ..
  · rw [if_neg (by simpa using index), if_neg index, Path.withExtension_ofNames visible]
    have same : place.directories ++ [stem place.pageName ++ Path.dotted "html"] = place.output := rfl
    dsimp only
    rw [same, urlPath_ofNames place.proper_output]

section Read

variable {fs : FileSystem} {config : Config} {source : Path} {extension : String} {format : PageFormat}
  {page : Page}

/-- The source of a page as seen from the source directory, without its extension. -/
theorem withExtension_relativeTo (source : Path) (place : Place) :
    ((source.join place.path).relativeTo source).withExtension "" =
      ofNames (place.directories ++ [place.pageName]) := by
  rw [Place.path, Path.relativeTo_join source (by simp) place.proper_path,
    Path.withExtension_ofNames place.visible]
  simp [Path.dotted, Place.pageName]

/-- What a page that was read takes from the place of its source. -/
theorem target_of_read {place : Place}
    (read : Page.read fs config source (source.join place.path) extension format = .ok page) :
    page.outputFile = ofNames place.output ∧ page.url = config.baseUrl ++ place.address := by
  unfold Page.read at read
  cases bytes : content fs (source.join place.path) with
  | error error => simp [bytes, bind, Except.bind] at read
  | ok bytes' =>
      cases header : readMeta bytes' with
      | error error => simp [bytes, ofContent, header, bind, Except.bind] at read
      | ok parts =>
          simp only [bytes, ofContent, header, withExtension_relativeTo, target_pageName, bind, Except.bind,
            pure, Except.pure, Except.ok.injEq] at read
          subst read
          exact ⟨rfl, rfl⟩

theorem sourceFile_of_read {file : Path}
    (read : Page.read fs config source file extension format = .ok page) :
    page.sourceFile = file := by
  unfold Page.read at read
  cases bytes : content fs file with
  | error error => simp [bytes, bind, Except.bind] at read
  | ok bytes' =>
      cases header : readMeta bytes' with
      | error error => simp [bytes, ofContent, header, bind, Except.bind] at read
      | ok parts =>
          simp only [bytes, ofContent, header, bind, Except.bind, pure, Except.pure,
            Except.ok.injEq] at read
          subst read
          rfl

theorem output_eq_iff {first second : Place} : ofNames first.output = ofNames second.output ↔
    first.directories = second.directories ∧ stem first.pageName = stem second.pageName := by
  constructor
  · intro same
    have names := Path.ofNames_injective (by simp [Place.output]) (by simp [Place.output])
      first.proper_output second.proper_output same
    rw [Place.output, Place.output] at names
    obtain ⟨directories, file⟩ := List.append_inj' names (by simp)
    have chars := congrArg String.toList (List.singleton_inj.mp file)
    rw [Place.file, Place.file, String.toList_append, String.toList_append] at chars
    exact ⟨directories, String.toList_inj.mp (List.append_cancel_right chars)⟩
  · rintro ⟨directories, bare⟩
    rw [Place.output, Place.output, Place.file, Place.file, directories, bare]

/-- The address of an index ends in a slash, if it is not empty, and that of another page does not. -/
theorem address_ne {first second : Place} (index : first.pageName = "index")
    (other : second.pageName ≠ "index") : first.address ≠ second.address := by
  intro same
  rw [Place.address, Place.address, if_pos index, if_neg other, ← String.toList_inj, Place.output,
    Place.file, Path.toList_ofNames_append, String.toList_ofList] at same
  have ends : (leading first.directories).getLast? = some 'l' := by
    rw [same]
    simp
  obtain ⟨-, empty⟩ | ⟨front, slash⟩ := Path.leading_cases first.directories
  · simp [empty] at ends
  · simp [slash] at ends

theorem leading_injective {names others : List String} (proper : ∀ name ∈ names, Proper name)
    (proper' : ∀ name ∈ others, Proper name) (same : leading names = leading others) : names = others := by
  have index : Proper "index" := ⟨by decide, by decide, by decide, by decide⟩
  have paths : ofNames (names ++ ["index"]) = ofNames (others ++ ["index"]) := by
    rw [Path.mk.injEq, ← String.toList_inj, Path.toList_ofNames_append, Path.toList_ofNames_append, same]
  have longer := Path.ofNames_injective (by simp) (by simp)
    (by simpa [or_imp, forall_and] using ⟨proper, index⟩)
    (by simpa [or_imp, forall_and] using ⟨proper', index⟩) paths
  exact List.append_cancel_right longer

theorem address_eq_iff {first second : Place} : first.address = second.address ↔
    first.directories = second.directories ∧ stem first.pageName = stem second.pageName ∧
      (first.pageName = "index" ↔ second.pageName = "index") := by
  by_cases index : first.pageName = "index" <;> by_cases index' : second.pageName = "index"
  · have bare : stem first.pageName = stem second.pageName := by rw [index, index']
    rw [Place.address, Place.address, if_pos index, if_pos index', ← String.toList_inj,
      String.toList_ofList, String.toList_ofList]
    constructor
    · intro same
      exact ⟨leading_injective first.proper second.proper same, bare, by simp [index, index']⟩
    · rintro ⟨directories, -⟩
      rw [directories]
  · simp [address_ne index index', index, index']
  · simp [(address_ne index' index).symm, index, index']
  · rw [Place.address, Place.address, if_neg index, if_neg index', ← Path.mk.injEq]
    constructor
    · intro same
      obtain ⟨directories, bare⟩ := output_eq_iff.mp same
      exact ⟨directories, bare, by simp [index, index']⟩
    · rintro ⟨directories, bare, -⟩
      exact output_eq_iff.mpr ⟨directories, bare⟩

/-- Two pages share their output file exactly if their sources lie in one directory and have the same name
without the last two extensions; they share their address too unless only one of them is an index. -/
theorem read_shares_target_iff {fs' : FileSystem} {first second : Place} {extension' : String}
    {format' : PageFormat} {page' : Page}
    (read : Page.read fs config source (source.join first.path) extension format = .ok page)
    (read' : Page.read fs' config source (source.join second.path) extension' format' = .ok page') :
    (page.outputFile = page'.outputFile ↔
      first.directories = second.directories ∧ stem (stem first.name) = stem (stem second.name)) ∧
    (page.url = page'.url ↔
      first.directories = second.directories ∧ stem (stem first.name) = stem (stem second.name) ∧
        (stem first.name = "index" ↔ stem second.name = "index")) := by
  obtain ⟨output, url⟩ := target_of_read read
  obtain ⟨output', url'⟩ := target_of_read read'
  have below : config.baseUrl ++ first.address = config.baseUrl ++ second.address ↔
      first.address = second.address := by
    rw [← String.toList_inj, String.toList_append, String.toList_append, List.append_cancel_left_eq,
      String.toList_inj]
  rw [output, output', url, url', below]
  exact ⟨output_eq_iff, address_eq_iff⟩

end Read

/-! ## Versions of a page -/

/-- A file of the root directory of the site. -/
def topPlace (name : String) (visible : Visible name) : Place := ⟨[], name, by simp, visible⟩

/-- Notes on two versions, with a dot in their names. -/
def versionFiles : FileSystem where
  entries :=
    [(["s"], .directory 0), (["s", "notes-1.0.html"], .file (Text.Utf8.encode "<p>hi</p>") 1),
      (["s", "notes-1.1.html"], .file (Text.Utf8.encode "<p>ho</p>") 1)]
  now := 9
  workingDirectory := []

def olderNotes : Place :=
  topPlace "notes-1.0.html" (Path.visible_of_toList (by decide) (by decide) (by decide))

def newerNotes : Place :=
  topPlace "notes-1.1.html" (Path.visible_of_toList (by decide) (by decide) (by decide))

theorem exists_read_notes (place : Place) (known : place = olderNotes ∨ place = newerNotes) :
    ∃ page, Page.read versionFiles {} ⟨"/s"⟩ (Path.join ⟨"/s"⟩ place.path) ".html" .markup = .ok page := by
  have succeeds : (Page.read versionFiles {} ⟨"/s"⟩ (Path.join ⟨"/s"⟩ place.path) ".html"
      .markup).toOption.isSome = true := by
    obtain rfl | rfl := known <;> decide
  cases read : Page.read versionFiles {} ⟨"/s"⟩ (Path.join ⟨"/s"⟩ place.path) ".html" .markup with
  | error error => simp [read, Except.toOption] at succeeds
  | ok page => exact ⟨page, rfl⟩

theorem read_shares_target_iff_notes :
    ∃ page page',
      Page.read versionFiles {} ⟨"/s"⟩ (Path.join ⟨"/s"⟩ olderNotes.path) ".html" .markup = .ok page ∧
      Page.read versionFiles {} ⟨"/s"⟩ (Path.join ⟨"/s"⟩ newerNotes.path) ".html" .markup = .ok page' ∧
      (page.outputFile = page'.outputFile ↔ olderNotes.directories = newerNotes.directories ∧
        stem (stem olderNotes.name) = stem (stem newerNotes.name)) ∧
      (page.url = page'.url ↔ olderNotes.directories = newerNotes.directories ∧
        stem (stem olderNotes.name) = stem (stem newerNotes.name) ∧
          (stem olderNotes.name = "index" ↔ stem newerNotes.name = "index")) := by
  obtain ⟨page, read⟩ := exists_read_notes olderNotes (.inl rfl)
  obtain ⟨page', read'⟩ := exists_read_notes newerNotes (.inr rfl)
  exact ⟨page, page', read, read', read_shares_target_iff read read'⟩

/-- Two pages whose sources differ in more than the last extension are written to one file, under one
address. -/
theorem notes_share_output :
    ∃ page page',
      Page.read versionFiles {} ⟨"/s"⟩ ⟨"/s/notes-1.0.html"⟩ ".html" .markup = .ok page ∧
      Page.read versionFiles {} ⟨"/s"⟩ ⟨"/s/notes-1.1.html"⟩ ".html" .markup = .ok page' ∧
      (Path.relativeTo ⟨"/s/notes-1.0.html"⟩ ⟨"/s"⟩).withExtension "" ≠
        (Path.relativeTo ⟨"/s/notes-1.1.html"⟩ ⟨"/s"⟩).withExtension "" ∧
      page.outputFile = page'.outputFile ∧ page.url = page'.url := by
  obtain ⟨page, read⟩ := exists_read_notes olderNotes (.inl rfl)
  obtain ⟨page', read'⟩ := exists_read_notes newerNotes (.inr rfl)
  obtain ⟨output, url⟩ := target_of_read read
  obtain ⟨output', url'⟩ := target_of_read read'
  have bare : stem olderNotes.pageName = stem newerNotes.pageName := by decide
  have older : (Path.join ⟨"/s"⟩ olderNotes.path) = ⟨"/s/notes-1.0.html"⟩ := by decide
  have newer : (Path.join ⟨"/s"⟩ newerNotes.path) = ⟨"/s/notes-1.1.html"⟩ := by decide
  have apart : (Path.relativeTo ⟨"/s/notes-1.0.html"⟩ ⟨"/s"⟩).withExtension "" ≠
      (Path.relativeTo ⟨"/s/notes-1.1.html"⟩ ⟨"/s"⟩).withExtension "" := by
    rw [← older, ← newer, withExtension_relativeTo, withExtension_relativeTo]
    decide
  rw [older] at read
  rw [newer] at read'
  refine ⟨page, page', read, read', apart, ?_, ?_⟩
  · rw [output, output']
    exact output_eq_iff.mpr ⟨rfl, bare⟩
  · have address : olderNotes.address = newerNotes.address :=
      address_eq_iff.mpr ⟨rfl, bare, by decide⟩
    rw [url, url', address]

end StaticSite.Page
