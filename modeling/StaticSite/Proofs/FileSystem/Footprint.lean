import Mathlib.Data.Set.Insert
import StaticSite.Proofs.FileSystem.Straight

/-!
What file operations change. An operation on a place changes that place and makes missing directories above
it; everything else stays as it is, whether the operation succeeds or not.
-/

namespace StaticSite.FileSystem

open Location (Plain)

variable {α β : Type} {fs mid after : FileSystem} {follow : Bool} {location place : Location}
  {entry : Entry}
  {files links files' links' : Set Location}

/-! ## Changes -/

/-- An entry that is new at a place, where files and links are put at some places and directories above
them. -/
inductive Made (files links : Set Location) (now : Time) (place : Location) : Entry → Prop
  | directory {target : Location} (there : target ∈ files ∨ target ∈ links) (above : place <+: target)
      (strict : place ≠ target) : Made files links now place (.directory now)
  | file (content : Bytes) (there : place ∈ files) : Made files links now place (.file content now)
  | link (target : Path) (there : place ∈ links) : Made files links now place (.link target)

/-- From one file system to a later one files and links are put at some places and directories above
them. -/
structure Alters (files links : Set Location) (fs after : FileSystem) : Prop where
  now : after.now = fs.now
  orderly : Orderly fs → Orderly after
  keeps : ∀ {place entry}, fs.get? place = some entry → place ∉ files → place ∉ links →
    after.get? place = some entry
  makes : ∀ {place entry}, after.get? place = some entry →
    fs.get? place = some entry ∨ Made files links fs.now place entry

theorem Made.mono {now : Time} (made : Made files links now place entry) (more : files ⊆ files')
    (more' : links ⊆ links') : Made files' links' now place entry := by
  cases made with
  | directory there above strict =>
      exact .directory (there.imp (fun member => more member) fun member => more' member) above strict
  | file content there => exact .file content (more there)
  | link target there => exact .link target (more' there)

namespace Alters

theorem refl (files links : Set Location) (fs : FileSystem) : Alters files links fs fs :=
  ⟨rfl, id, fun known _ _ => known, .inl⟩

theorem trans (first : Alters files links fs mid) (second : Alters files links mid after) :
    Alters files links fs after where
  now := second.now.trans first.now
  orderly := second.orderly ∘ first.orderly
  keeps known unwritten unlinked := second.keeps (first.keeps known unwritten unlinked) unwritten unlinked
  makes known := by
    obtain known | made := second.makes known
    · exact first.makes known
    · exact .inr (first.now ▸ made)

theorem mono (alters : Alters files links fs after) (more : files ⊆ files') (more' : links ⊆ links') :
    Alters files' links' fs after where
  now := alters.now
  orderly := alters.orderly
  keeps known unwritten unlinked :=
    alters.keeps known (fun member => unwritten (more member)) fun member => unlinked (more' member)
  makes known := (alters.makes known).imp id fun made => made.mono more more'

/-- Where nothing is put and nothing is put below, nothing comes to be. -/
theorem absent (alters : Alters files links fs after) (free : fs.get? place = none)
    (unwritten : ∀ target ∈ files, ¬place <+: target) (unlinked : ∀ target ∈ links, ¬place <+: target) :
    after.get? place = none := by
  cases known : after.get? place with
  | none => rfl
  | some entry =>
      obtain before | made := alters.makes known
      · rw [free] at before
        cases before
      · cases made with
        | directory there above strict =>
            exact absurd above (there.elim (unwritten _) (unlinked _))
        | file content there => exact absurd (List.prefix_refl _) (unwritten _ there)
        | link target there => exact absurd (List.prefix_refl _) (unlinked _ there)

/-- Nothing happens where nothing is put and nothing is put below. -/
theorem get?_eq (alters : Alters files links fs after) (unwritten : ∀ target ∈ files, ¬place <+: target)
    (unlinked : ∀ target ∈ links, ¬place <+: target) : after.get? place = fs.get? place := by
  cases known : fs.get? place with
  | none => exact alters.absent known unwritten unlinked
  | some entry =>
      exact alters.keeps known (fun inside => unwritten _ inside (List.prefix_refl _))
        fun inside => unlinked _ inside (List.prefix_refl _)

/-- A file or a link where none is put was there before. -/
theorem before (alters : Alters files links fs after) (known : after.get? place = some entry)
    (solid : ∀ time, entry ≠ .directory time) (unwritten : place ∉ files) (unlinked : place ∉ links) :
    fs.get? place = some entry := by
  obtain before | made := alters.makes known
  · exact before
  · cases made with
    | directory => exact absurd rfl (solid _)
    | file content there => exact absurd there unwritten
    | link target there => exact absurd there unlinked

theorem put (some_name : place ≠ [])
    (free : ∀ found, fs.get? place = some found → place ∈ files ∨ place ∈ links)
    (made : Made files links fs.now place entry) (order : Orderly fs → Orderly (fs.put place entry)) :
    Alters files links fs (fs.put place entry) where
  now := rfl
  orderly := order
  keeps {other found} known unwritten unlinked := by
    rw [get?_put]
    split
    case isTrue root =>
      rw [root, get?, if_pos rfl] at known
      exact known
    case isFalse =>
      rw [if_neg, known]
      rintro rfl
      exact (free found known).elim unwritten unlinked
  makes {other found} known := by
    rw [get?_put] at known
    split at known
    case isTrue root =>
      left
      rw [root, get?, if_pos rfl]
      exact known
    case isFalse =>
      split at known
      case isTrue same =>
        cases known
        exact .inr (same ▸ made)
      case isFalse => exact .inl known

end Alters

/-! ## Places that are ready -/

/-- The way to a location is free of links, and all is in order. -/
structure Ready (follow : Bool) (location : Location) (fs : FileSystem) : Prop where
  orderly : Orderly fs
  straight : fs.Straight follow location

theorem Alters.straight (alters : Alters files links fs after)
    (own : ∀ link ∈ links, link <+: location → follow = false ∧ link = location)
    (straight : fs.Straight follow location) : after.Straight follow location := by
  intro place target inside link
  obtain before | made := alters.makes link
  · exact straight place target inside before
  · cases made with
    | link target there => exact own place there inside

theorem Alters.ready (alters : Alters files links fs after)
    (own : ∀ link ∈ links, link <+: location → follow = false ∧ link = location)
    (ready : Ready follow location fs) : Ready follow location after :=
  ⟨alters.orderly ready.orderly, alters.straight own ready.straight⟩

theorem composes_alters (own : ∀ link ∈ links, link <+: location → follow = false ∧ link = location) :
    Composes (Ready follow location) (Alters files links) :=
  ⟨.refl files links, .trans, fun ready alters => alters.ready own ready⟩

/-! ## Directories -/

/-- From one file system to a later one directories are made above a location. -/
structure Paves (location : Location) (fs after : FileSystem) : Prop where
  now : after.now = fs.now
  orderly : Orderly fs → Orderly after
  keeps : ∀ {place entry}, fs.get? place = some entry → after.get? place = some entry
  makes : ∀ {place entry}, after.get? place = some entry →
    fs.get? place = some entry ∨ entry = .directory fs.now ∧ place <+: location ∧ place ≠ location

namespace Paves

theorem refl (location : Location) (fs : FileSystem) : Paves location fs fs := ⟨rfl, id, id, .inl⟩

theorem trans (first : Paves location fs mid) (second : Paves location mid after) :
    Paves location fs after where
  now := second.now.trans first.now
  orderly := second.orderly ∘ first.orderly
  keeps known := second.keeps (first.keeps known)
  makes known := by
    obtain known | made := second.makes known
    · exact first.makes known
    · exact .inr (first.now ▸ made)

theorem alters (paves : Paves location fs after) (there : location ∈ files ∨ location ∈ links) :
    Alters files links fs after where
  now := paves.now
  orderly := paves.orderly
  keeps known _ _ := paves.keeps known
  makes known := by
    obtain before | ⟨rfl, above, strict⟩ := paves.makes known
    · exact .inl before
    · exact .inr (.directory there above strict)

theorem get?_eq (paves : Paves location fs after) : after.get? location = fs.get? location := by
  cases known : after.get? location with
  | none =>
      cases before : fs.get? location with
      | none => rfl
      | some entry =>
          rw [paves.keeps before] at known
          cases known
  | some entry =>
      obtain before | ⟨-, -, strict⟩ := paves.makes known
      · exact before.symm
      · exact absurd rfl strict

/-- One directory is made where nothing was. -/
theorem put (free : fs.get? place = none) (order : Orderly fs → Orderly (fs.put place (.directory fs.now)))
    (inside : place <+: location) (strict : place ≠ location) :
    Paves location fs (fs.put place (.directory fs.now)) := by
  have fills : Fills (.directory fs.now) (fs.get? place) := by
    rw [free]
    trivial
  refine ⟨rfl, order, fun {other entry} known => ?_, fun {other entry} known => ?_⟩
  · rw [get?_put_fills fills, if_neg, known]
    rintro rfl
    rw [free] at known
    cases known
  · rw [get?_put_fills fills] at known
    split at known
    case isTrue same =>
      cases known
      exact .inr ⟨rfl, same ▸ inside, same ▸ strict⟩
    case isFalse => exact .inl known

theorem ready (paves : Paves location fs after) (ready : Ready follow location fs) :
    Ready follow location after :=
  (paves.alters (.inl (Set.mem_singleton location)) : Alters {location} ∅ fs after).ready (by simp) ready

end Paves

theorem composes_paves (follow : Bool) (location : Location) :
    Composes (Ready follow location) (Paves location) :=
  ⟨.refl location, .trans, fun ready paves => paves.ready ready⟩

theorem Straight.above (straight : fs.Straight follow location) (inside : place <+: location)
    (strict : place ≠ location) (follow' : Bool) : fs.Straight follow' place := by
  intro other target before link
  obtain ⟨-, rfl⟩ := straight other target (before.trans inside) link
  exact absurd (inside.eq_of_length_le before.length_le) strict

theorem within_makeDirectory (plain : Plain location) (inside : place <+: location)
    (strict : place ≠ location) :
    Within (Ready follow location) (Paves location) (makeDirectory (Location.path place)) := by
  intro fs ready
  have order := keepsOrder_makeDirectory (Location.path place) fs ready.orderly
  -- no link stands at the place, so the walk that does not follow a last link ends there
  have ends (there : Location)
      (walked : fs.walk false (if (withoutEndSlash (Location.path place)).text.isEmpty
        then Location.path place else withoutEndSlash (Location.path place)) = .ok there) :
      there = place := by
    by_cases some_name : place = []
    · subst some_name
      have root : (if (withoutEndSlash (Location.path [])).text.isEmpty
        then Location.path [] else withoutEndSlash (Location.path [])) = Location.path [] := by
        decide
      rw [root, walk_root] at walked
      exact (Except.ok.inj walked).symm
    · have plain' := plain.of_prefix inside
      rw [Location.withoutEndSlash_path plain' some_name, Location.isEmpty_path, if_neg (by simp)] at walked
      exact eq_of_walk_straight plain' some_name (ready.straight.above inside strict false) walked
  rw [makeDirectory_apply] at order ⊢
  revert order
  split
  case h_1 => exact fun _ => .refl location fs
  case h_2 there walked =>
    obtain rfl := ends there walked
    split
    case isTrue => exact fun _ => .refl location fs
    case isFalse absent =>
      intro order
      exact .put (by simpa using absent) (fun _ => order) inside strict

theorem within_makeLevels (plain : Plain location) (fuel : Nat) (inside : place <+: location)
    (strict : place ≠ location) :
    Within (Ready follow location) (Paves location) (makeLevels fuel (Location.path place)) := by
  let tried (p : Path) : Prop := ∃ place, p = Location.path place ∧ place <+: location ∧ place ≠ location
  have climbs {p above : Path} (start : tried p) (parent : p.parent? = some above) : tried above := by
    obtain ⟨place, rfl, inside, strict⟩ := start
    rcases List.eq_nil_or_concat place with rfl | ⟨front, name, rfl⟩
    · rw [Location.parent?_root] at parent
      cases parent
    · rw [List.concat_eq_append] at inside strict parent
      rw [Location.parent?_path (plain.of_prefix inside)] at parent
      cases parent
      refine ⟨front, rfl, (List.prefix_append _ _).trans inside, ?_⟩
      rintro rfl
      have longer := inside.length_le
      rw [List.length_append, List.length_singleton] at longer
      omega
  refine (composes_paves follow location).makeLevels climbs (fun start _ => ?_) fuel ⟨place, rfl, inside, strict⟩
  obtain ⟨place, rfl, inside, strict⟩ := start
  exact within_makeDirectory plain inside strict

theorem within_makeParent (plain : Plain location) :
    Within (Ready follow location) (Paves location) (makeParent (Location.path location)) := by
  have done := (composes_paves follow location).pure ()
  unfold makeParent
  rcases List.eq_nil_or_concat location with rfl | ⟨above, name, rfl⟩
  · rw [Location.parent?_root]
    exact done
  · rw [List.concat_eq_append] at plain done ⊢
    rw [Location.parent?_path plain]
    dsimp only
    split
    · exact done
    · exact within_makeLevels plain _ (List.prefix_append _ _) (by simp)

end StaticSite.FileSystem
