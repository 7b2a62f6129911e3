import StaticSite.Proofs.FileSystem.Confining

/-!
Files that are put where no links stand. Each of them is put at the place that its path spells, or nothing happens,
and whatever stands at a place stays if nothing is put at the place or below it.
-/

namespace StaticSite.FileSystem

open Location (Plain)

variable {base fs after : FileSystem} {output location place : Location} {links : Set Location} {content : Bytes}
  {time : Time} {source : Path} {entry : Entry}

/-! ## Places without links -/

theorem Orderly.route (orderly : fs.Orderly) : fs.Route [] [] :=
  ⟨orderly, by simp [Plain], walk_root true fs, isDirectory_root fs⟩

section Linkless

variable (orderly : fs.Orderly) (plain : Plain location) (some_name : location ≠ []) (linkless : fs.Linkless location)

include orderly plain some_name linkless

theorem Linkless.writeFile (content : Bytes) :
    (∃ after, FileSystem.writeFile (Location.path location) content fs = (.ok (), after) ∧ fs.Writable location ∧
      PutAt location (.file content fs.now) fs after) ∨
    ∃ error, FileSystem.writeFile (Location.path location) content fs = (.error error, fs) := by
  obtain ⟨above, name, rfl⟩ := (List.eq_nil_or_concat location).resolve_left some_name
  rw [List.concat_eq_append] at *
  obtain ⟨writable, after, wrote, put⟩ | ⟨-, failed⟩ := orderly.route.writeFile_below plain linkless content
  · exact .inl ⟨after, wrote, writable, put⟩
  · exact .inr failed

theorem Linkless.copyFile (finds : fs.find true source = .ok (place, .file content time))
    (apart : place ≠ location) :
    (∃ size after, FileSystem.copyFile source (Location.path location) fs = (.ok size, after) ∧
      fs.Writable location ∧ PutAt location (.file content fs.now) fs after) ∨
    ∃ error, FileSystem.copyFile source (Location.path location) fs = (.error error, fs) := by
  obtain ⟨above, name, rfl⟩ := (List.eq_nil_or_concat location).resolve_left some_name
  rw [List.concat_eq_append] at *
  obtain ⟨writable, size, after, copied, put⟩ | ⟨-, failed⟩ :=
    orderly.route.copyFile_below plain linkless finds apart
  · exact .inl ⟨size, after, copied, writable, put⟩
  · exact .inr failed

theorem Linkless.modified :
    (fs.modified (Location.path location)).toOption = (fs.get? location).bind Entry.time? := by
  obtain ⟨above, name, rfl⟩ := (List.eq_nil_or_concat location).resolve_left some_name
  rw [List.concat_eq_append] at *
  exact orderly.route.modified_below plain linkless

end Linkless

/-! ## What stays -/

/-- Steps that keep up an invariant and leave what stands at a place. -/
def Leaves (holds : FileSystem → Prop) (place : Location) (fs after : FileSystem) : Prop :=
  holds fs → holds after ∧ after.get? place = fs.get? place

theorem composes_leaves (holds : FileSystem → Prop) (place : Location) : Composes holds (Leaves holds place) where
  refl _ start := ⟨start, rfl⟩
  trans first second start := by
    obtain ⟨between, same⟩ := first start
    obtain ⟨done, same'⟩ := second between
    exact ⟨done, same'.trans same⟩
  ready start step := (step start).1

/-- What stands at a place stays if something is put elsewhere, and not below. -/
theorem PutAt.get?_beside (put : PutAt location entry fs after) (beside : ¬place <+: location) :
    after.get? place = fs.get? place := by
  have different : place ≠ location := by
    rintro rfl
    exact beside (List.prefix_refl _)
  rw [put.get?, if_neg different, if_neg beside]

theorem Paved.get?_beside (paved : Paved location fs after) (beside : ¬place <+: location) :
    after.get? place = fs.get? place := by
  rw [paved.get?, if_neg beside]

/-- A link that stands where no directory was made stood there before. -/
theorem Paved.link (paved : Paved location fs after) {target : Path}
    (link : after.get? place = some (.link target)) : fs.get? place = some (.link target) := by
  rw [paved.get?] at link
  cases known : fs.get? place with
  | none =>
      rw [known] at link
      split at link <;> cases link
  | some entry => rwa [known, Option.some_or, ite_self] at link

theorem PutAt.link (put : PutAt location entry fs after) {target : Path} (different : place ≠ location)
    (link : after.get? place = some (.link target)) : fs.get? place = some (.link target) := by
  rw [put.get?, if_neg different] at link
  cases known : fs.get? place with
  | none =>
      rw [known] at link
      split at link <;> cases link
  | some entry => rwa [known, Option.some_or, ite_self] at link

/-! ## Files -/

/-- Files were put below a directory, and directories above them. -/
structure Stocked (base : FileSystem) (output : Location) (fs : FileSystem) : Prop where
  now : fs.now = base.now
  orderly : fs.Orderly
  keeps : Keeps base fs
  outside : ∀ {place entry}, base.get? place = some entry → ¬output <+: place → fs.get? place = some entry
  unlinked : ∀ {place target}, fs.get? place = some (.link target) → base.get? place = some (.link target)

namespace Stocked

theorem refl (orderly : base.Orderly) : Stocked base output base :=
  ⟨rfl, orderly, .refl base, fun known _ => known, id⟩

variable (stocked : Stocked base output fs)

include stocked

theorem linkless (linkless : base.Linkless location) : fs.Linkless location :=
  fun above inside target link => linkless above inside target (stocked.unlinked link)

/-- A file that lies elsewhere is found as it was at first. -/
theorem find (finds : base.find true source = .ok (place, .file content time)) (outside : ¬output <+: place) :
    fs.find true source = .ok (place, .file content time) :=
  find_eq_ok_iff.mpr ⟨stocked.keeps.walk finds, stocked.outside (get?_of_find finds) outside⟩

theorem put (under : output <+: location) (writable : fs.Writable location)
    (put : PutAt location (.file content time) fs after) : Stocked base output after where
  now := put.now.trans stocked.now
  orderly := put.orderly stocked.orderly writable
  keeps := by
    refine ⟨put.workingDirectory.trans stocked.keeps.workingDirectory, fun {place entry} known solid => ?_,
      fun {place content' time'} known => ?_⟩
    · have there := stocked.keeps.passable known solid
      have different : place ≠ location := by
        rintro rfl
        obtain ⟨content', time', same⟩ := writable.fills entry there
        exact solid content' time' same
      rw [put.get?, if_neg different, there, Option.some_or, ite_self]
    · obtain ⟨content'', time'', there⟩ := stocked.keeps.file known
      rw [put.get?, there, Option.some_or, ite_self]
      split
      · exact ⟨_, _, rfl⟩
      · exact ⟨_, _, rfl⟩
  outside {place entry} known outside := by
    have different : place ≠ location := fun same => outside (same ▸ under)
    rw [put.get?, if_neg different, stocked.outside known outside, Option.some_or, ite_self]
  unlinked {place target} link := by
    by_cases same : place = location
    · rw [put.get?, if_pos same] at link
      cases link
    · exact stocked.unlinked (put.link same link)

end Stocked

section Beside

variable (plain : Plain location) (some_name : location ≠ []) (under : output <+: location)
  (linkless : base.Linkless location) (beside : ¬place <+: location)

include plain some_name under linkless beside

/-- A file is written beside a place. -/
theorem leaves_writeFile (content : Bytes) :
    Within (Stocked base output) (Leaves (Stocked base output) place)
      (writeFile (Location.path location) content) := by
  intro fs _ stocked
  obtain ⟨after, wrote, writable, put⟩ | ⟨error, failed⟩ :=
    (stocked.linkless linkless).writeFile stocked.orderly plain some_name content
  · rw [wrote]
    exact ⟨stocked.put under writable put, put.get?_beside beside⟩
  · rw [failed]
    exact ⟨stocked, rfl⟩

theorem leaves_copyFile {origin : Location} (finds : base.find true source = .ok (origin, .file content time))
    (outside : ¬output <+: origin) :
    Within (Stocked base output) (Leaves (Stocked base output) place)
      (copyFile source (Location.path location)) := by
  intro fs _ stocked
  have apart : origin ≠ location := fun same => outside (same ▸ under)
  obtain ⟨size, after, copied, writable, put⟩ | ⟨error, failed⟩ :=
    (stocked.linkless linkless).copyFile stocked.orderly plain some_name (stocked.find finds outside) apart
  · rw [copied]
    exact ⟨stocked.put under writable put, put.get?_beside beside⟩
  · rw [failed]
    exact ⟨stocked, rfl⟩

end Beside

/-! ## Links -/

/-- All is in order, and links stand at some places only, but for those that stood there at first. -/
structure Strung (base : FileSystem) (links : Set Location) (fs : FileSystem) : Prop where
  orderly : fs.Orderly
  linked : ∀ {place target}, fs.get? place = some (.link target) →
    base.get? place = some (.link target) ∨ place ∈ links

theorem Stocked.strung (stocked : Stocked base output fs) (links : Set Location) : Strung base links fs :=
  ⟨stocked.orderly, fun link => .inl (stocked.unlinked link)⟩

/-- A path at whose end links stand, but not before. -/
structure Hangs (base : FileSystem) (links : Set Location) (location : Location) : Prop where
  plain : Plain location
  some_name : location ≠ []
  listed : location ∈ links
  free : ∀ above, above <+: location → above ≠ location → ∀ target, base.get? above ≠ some (.link target)
  own : ∀ link ∈ links, link <+: location → link = location

namespace Hangs

variable (hangs : Hangs base links location) (beside : ¬place <+: location)

include hangs

theorem exists_above (strung : Strung base links fs) :
    ∃ above name, location = above ++ [name] ∧ Plain (above ++ [name]) ∧ fs.Linkless above := by
  obtain ⟨above, name, rfl⟩ := (List.eq_nil_or_concat location).resolve_left hangs.some_name
  rw [List.concat_eq_append] at *
  refine ⟨above, name, rfl, hangs.plain, fun other inside target link => ?_⟩
  have strict : other ≠ above ++ [name] := ne_concat_of_inside inside
  have inside : other <+: above ++ [name] := inside.trans (List.prefix_append _ _)
  obtain before | among := strung.linked link
  · exact hangs.free other inside strict target before
  · exact strict (hangs.own other among inside)

include beside

theorem leaves_makeParent :
    Within (Strung base links) (Leaves (Strung base links) place) (makeParent (Location.path location)) := by
  intro fs _ strung
  have orderly := keepsOrder_makeParent (Location.path location) fs strung.orderly
  obtain ⟨above, name, rfl, plain, linkless⟩ := hangs.exists_above strung
  obtain unchanged | paved : (makeParent (Location.path (above ++ [name])) fs).2 = fs ∨
      Paved above fs (makeParent (Location.path (above ++ [name])) fs).2 :=
    strung.orderly.route.makeParent_cases plain linkless
  · rw [unchanged]
    exact ⟨strung, rfl⟩
  · exact ⟨⟨orderly, fun link => strung.linked (paved.link link)⟩,
      paved.get?_beside fun inside => beside (inside.trans (List.prefix_append _ _))⟩

theorem leaves_makeLink (target : Path) :
    Within (Strung base links) (Leaves (Strung base links) place) (makeLink target (Location.path location)) := by
  intro fs _ strung
  have orderly := keepsOrder_makeLink target (Location.path location) fs strung.orderly
  obtain ⟨above, name, rfl, plain, linkless⟩ := hangs.exists_above strung
  obtain unchanged | ⟨-, put⟩ : (makeLink target (Location.path (above ++ [name])) fs).2 = fs ∨
      fs.get? (above ++ [name]) = none ∧ PutAt (above ++ [name]) (.link target) fs
        (makeLink target (Location.path (above ++ [name])) fs).2 :=
    strung.orderly.route.makeLink_below plain linkless target
  · rw [unchanged]
    exact ⟨strung, rfl⟩
  · refine ⟨⟨orderly, fun {other target'} link => ?_⟩, put.get?_beside beside⟩
    by_cases same : other = above ++ [name]
    · exact .inr (same ▸ hangs.listed)
    · exact strung.linked (put.link same link)

theorem leaves_removeFile :
    Within (Strung base links) (Leaves (Strung base links) place) (removeFile (Location.path location)) := by
  intro fs _ strung
  obtain ⟨above, name, rfl, plain, linkless⟩ := hangs.exists_above strung
  obtain unchanged | ⟨solid, erased⟩ : (removeFile (Location.path (above ++ [name])) fs).2 = fs ∨
      ¬fs.IsDirectory (above ++ [name]) ∧
        (removeFile (Location.path (above ++ [name])) fs).2 = fs.erase (above ++ [name]) :=
    strung.orderly.route.removeFile_below plain linkless
  · rw [unchanged]
    exact ⟨strung, rfl⟩
  · rw [erased]
    have different : place ≠ above ++ [name] := by
      rintro rfl
      exact beside (List.prefix_refl _)
    exact ⟨⟨strung.orderly.erase solid, fun link => strung.linked (get?_of_erase link)⟩, get?_erase_of_ne different⟩

/-- A link is recreated beside a place. -/
theorem leaves_copyLink (source : Path) :
    Within (Strung base links) (Leaves (Strung base links) place) (copyLink source (Location.path location)) :=
  (composes_leaves (Strung base links) place).copyLink (hangs.leaves_makeLink beside)
    (hangs.leaves_removeFile beside) (hangs.leaves_makeParent beside) source

end Hangs

end StaticSite.FileSystem
