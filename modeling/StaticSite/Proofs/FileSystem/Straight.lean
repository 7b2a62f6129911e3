import Mathlib.Data.List.Induction
import StaticSite.Proofs.Path.Naming

/-!
Locations whose names stand for themselves, and the walks to them. A walk on which no link stands ends at
the location that its path spells, or fails.
-/

namespace StaticSite

open Path (Proper ofNames leading)

namespace Location

/-- A location whose names stand for themselves in a path. -/
def Plain (location : Location) : Prop := ∀ name ∈ location, Proper name

instance (location : Location) : Decidable (Plain location) :=
  inferInstanceAs (Decidable (∀ name ∈ location, Proper name))

variable {location above below : Location} {name : String}

theorem Plain.append (plain : Plain above) (plain' : Plain below) : Plain (above ++ below) := by
  intro name member
  exact (List.mem_append.mp member).elim (plain name) (plain' name)

theorem Plain.of_prefix (plain : Plain location) (inside : above <+: location) : Plain above :=
  fun name member => plain name (inside.subset member)

theorem Plain.front (plain : Plain (above ++ [name])) : Plain above :=
  plain.of_prefix (List.prefix_append _ _)

theorem Plain.last (plain : Plain (above ++ [name])) : Proper name := plain name (by simp)

/-! ## Their paths -/

theorem toList_path (location : Location) :
    (Location.path location).text.toList = '/' :: (ofNames location).text.toList := by
  simp [Location.path, ofNames]

theorem toList_path_append (above : Location) (name : String) :
    (Location.path (above ++ [name])).text.toList = '/' :: (leading above ++ name.toList) := by
  rw [toList_path, Path.toList_ofNames_append]

theorem opening_path (plain : Plain location) :
    Path.opening (Location.path location) = '/' :: leading location := by
  rcases List.eq_nil_or_concat location with rfl | ⟨above, name, rfl⟩
  · simp [Path.opening, Location.path, leading]
  · rw [List.concat_eq_append] at plain ⊢
    have text : (Location.path (above ++ [name])).text.toList = ('/' :: leading above) ++ name.toList :=
      toList_path_append above name
    rw [Path.opening_of_name plain.last text, text]
    simp [leading]

/-- Names below a location. -/
theorem path_join (plain : Plain above) (some_name : below ≠ []) (plain' : Plain below) :
    (Location.path above).join (ofNames below) = Location.path (above ++ below) := by
  rcases List.eq_nil_or_concat below with rfl | ⟨front, name, rfl⟩
  · exact absurd rfl some_name
  · rw [Path.mk.injEq, ← String.toList_inj, Path.toList_join _ (Path.isAbsolute_ofNames plain'),
      opening_path plain, List.concat_eq_append, ← List.append_assoc, toList_path_append,
      Path.toList_ofNames_append]
    simp [leading]

theorem path_join_name (plain : Plain above) (proper : Proper name) :
    (Location.path above).join ⟨name⟩ = Location.path (above ++ [name]) := by
  rw [← path_join plain (List.cons_ne_nil name []) (by simpa [Plain] using proper), ofNames,
    String.intercalate_singleton]

theorem path_injective (some_name : location ≠ []) (some_other : below ≠ []) (plain : Plain location)
    (plain' : Plain below) (same : Location.path location = Location.path below) : location = below := by
  refine Path.ofNames_injective some_name some_other plain plain' ?_
  rw [Path.mk.injEq, ← String.toList_inj] at same ⊢
  rw [toList_path, toList_path] at same
  exact (List.cons.inj same).2

theorem splitLast_path (proper : Proper name) (above : Location) :
    Path.splitLast (Location.path (above ++ [name])) =
      (name.toList.reverse, (leading above).reverse ++ ['/']) := by
  have absent : ∀ c ∈ name.toList.reverse, (c != '/') = true := by
    intro c member
    rw [bne_iff_ne]
    rintro rfl
    exact proper.whole (by simpa using member)
  have stops : ((leading above).reverse ++ ['/']).takeWhile (· != '/') = [] ∧
      ((leading above).reverse ++ ['/']).dropWhile (· != '/') = (leading above).reverse ++ ['/'] := by
    obtain ⟨-, empty⟩ | ⟨front, ends⟩ := Path.leading_cases above
    · simp [empty]
    · simp [ends]
  rw [Path.splitLast, toList_path_append, List.reverse_cons, List.reverse_append, List.append_assoc,
    Path.trimTail_of_proper proper, List.takeWhile_append_of_pos absent,
    List.dropWhile_append_of_pos absent,
    stops.1, stops.2, List.append_nil]

theorem fileName?_path (proper : Proper name) (above : Location) :
    (Location.path (above ++ [name])).fileName? = some name := by
  have distinct := proper.toList_ne
  have undotted : name.toList.reverse ≠ ['.'] := fun same =>
    distinct.2.1 (by simpa using congrArg List.reverse same)
  have lower : name.toList.reverse ≠ ['.', '.'] := fun same =>
    distinct.2.2 (by simpa using congrArg List.reverse same)
  rw [Path.fileName?, splitLast_path proper]
  dsimp only
  rw [if_neg (by simp [distinct, undotted, lower]), List.reverse_reverse, String.ofList_toList]

theorem parent?_path (plain : Plain (above ++ [name])) :
    (Location.path (above ++ [name])).parent? = some (Location.path above) := by
  rw [Path.parent?, splitLast_path plain.last]
  dsimp only
  rw [if_neg (by simp [Path.isEmpty_reverse_toList plain.last]), Option.some.injEq, Path.mk.injEq,
    ← String.toList_inj, String.toList_ofList]
  rcases List.eq_nil_or_concat above with rfl | ⟨front, last, rfl⟩
  · simp [leading, Path.trimTail, Location.path]
  · rw [List.concat_eq_append] at plain ⊢
    have proper : Proper last := Plain.last plain.front
    have text : (leading (front ++ [last])).reverse ++ ['/'] =
        '/' :: (last.toList.reverse ++ ((leading front).reverse ++ ['/'])) := by simp [leading]
    rw [text, Path.trimTail, if_neg (by simp), Path.trimTail_of_proper proper, toList_path_append]
    simp

theorem parent?_root : (Location.path []).parent? = none := by
  simp [Location.path, Path.parent?, Path.splitLast, Path.trimTail]

theorem isEmpty_path (location : Location) : (Location.path location).text.isEmpty = false :=
  FileSystem.isEmpty_text (Path.isAbsolute_location location)

theorem getLast?_path (plain : Plain location) (some_name : location ≠ []) :
    ∃ c, (Location.path location).text.toList.getLast? = some c ∧ c ≠ '/' := by
  rcases List.eq_nil_or_concat location with rfl | ⟨above, name, rfl⟩
  · exact absurd rfl some_name
  · rw [List.concat_eq_append] at plain ⊢
    have some_char := plain.last.toList_ne.1
    refine ⟨name.toList.getLast some_char, ?_, ?_⟩
    · rw [toList_path_append, ← List.cons_append, List.getLast?_append_of_ne_nil _ some_char,
        List.getLast?_eq_some_getLast some_char]
    · exact fun same => plain.last.whole (same ▸ List.getLast_mem some_char)

theorem endsInSlash_path (plain : Plain location) (some_name : location ≠ []) :
    FileSystem.endsInSlash (Location.path location) = false := by
  obtain ⟨c, last, different⟩ := getLast?_path plain some_name
  simp [FileSystem.endsInSlash, last, different]

theorem withoutEndSlash_path (plain : Plain location) (some_name : location ≠ []) :
    FileSystem.withoutEndSlash (Location.path location) = Location.path location := by
  obtain ⟨c, last, different⟩ := getLast?_path plain some_name
  obtain ⟨front, text⟩ := List.getLast?_eq_some_iff.mp last
  rw [FileSystem.withoutEndSlash, Path.mk.injEq, ← String.toList_inj, String.toList_ofList, text]
  simp [different]

theorem todo_path (plain : Plain location) (some_name : location ≠ []) :
    FileSystem.todo (Location.path location) = location := by
  have split : (Path.pieces (Location.path location).text.toList).map String.ofList = "" :: location := by
    rw [toList_path, Path.pieces, Path.pieces_ofNames some_name plain]
    simp
  have nonempty : ("" :: location).filter (· != "") = location := by
    rw [List.filter_cons_of_neg (by simp), List.filter_eq_self]
    exact fun name member => by simpa using (plain name member).nonempty
  have last : (("" :: location).getLast? == some "") = false := by
    rw [List.getLast?_cons, List.getLast?_eq_some_getLast some_name, Option.getD_some]
    simpa using (plain _ (List.getLast_mem some_name)).nonempty
  rw [FileSystem.todo, split, last, nonempty]
  simp

end Location

namespace FileSystem

open Location (Plain)

variable {fs : FileSystem} {follow : Bool} {location above place : Location} {name : String}

/-! ## Walks without links -/

/-- No link stands on the way to a location, nor at it if links are followed. -/
def Straight (fs : FileSystem) (follow : Bool) (location : Location) : Prop :=
  ∀ place target, place <+: location → fs.get? place = some (.link target) →
    follow = false ∧ place = location

theorem Straight.unfollowed (straight : fs.Straight true location) (follow : Bool) :
    fs.Straight follow location := by
  intro place target before link
  cases (straight place target before link).1

/-- Something other than a directory stands above a location. -/
def Blocked (fs : FileSystem) (location : Location) : Prop :=
  ∃ place, place <+: location ∧ place ≠ location ∧ ¬fs.IsDirectory place

theorem blocked_of_get? {front rest : List String} (whole : front ++ rest = location) (goesOn : rest ≠ [])
    (other : ∀ time, fs.get? front ≠ some (.directory time)) : fs.Blocked location :=
  ⟨front, ⟨rest, whole⟩, by simpa [← whole] using goesOn, not_exists.mpr other⟩

theorem leg_straight (plain : Plain location) (straight : fs.Straight follow location) :
    ∀ {front rest : List String}, front ++ rest = location →
      fs.leg follow front rest = .reached location ∨
        (∃ error, fs.leg follow front rest = .failed error) ∧ fs.Blocked location := by
  intro front rest whole
  induction rest generalizing front with
  | nil =>
      rw [List.append_nil] at whole
      exact .inl (by rw [leg, whole])
  | cons name rest ih =>
      have proper : Proper name := plain name (by simp [← whole])
      have next : (front ++ [name]) ++ rest = location := by simpa using whole
      have final (ends : rest = []) : front ++ [name] = location := by rw [← next, ends, List.append_nil]
      rw [leg]
      cases known : fs.get? front with
      | none => exact .inr ⟨⟨_, rfl⟩, blocked_of_get? whole (by simp) (by simp [known])⟩
      | some entry =>
          cases entry with
          | file content time => exact .inr ⟨⟨_, rfl⟩, blocked_of_get? whole (by simp) (by simp [known])⟩
          | link target => exact .inr ⟨⟨_, rfl⟩, blocked_of_get? whole (by simp) (by simp [known])⟩
          | directory time =>
              dsimp only
              rw [if_neg proper.apart, if_neg proper.below]
              cases found : fs.get? (front ++ [name]) with
              | none =>
                  dsimp only
                  split
                  case isTrue ends => exact .inl (by rw [final ends])
                  case isFalse goesOn =>
                    exact .inr ⟨⟨_, rfl⟩, blocked_of_get? next goesOn (by simp [found])⟩
              | some entry =>
                  cases entry with
                  | directory time => exact ih next
                  | file content time =>
                      dsimp only
                      split
                      case isTrue ends => exact .inl (by rw [final ends])
                      case isFalse goesOn =>
                        exact .inr ⟨⟨_, rfl⟩, blocked_of_get? next goesOn (by simp [found])⟩
                  | link target =>
                      obtain ⟨unfollowed, last⟩ := straight _ target ⟨rest, next⟩ found
                      have ends : rest = [] := by simpa [last] using next
                      exact .inl (by simp [ends, unfollowed, last])

/-- A walk to a location on which no link stands ends there, unless something else than a directory stands
in the way. -/
theorem walk_straight (plain : Plain location) (some_name : location ≠ [])
    (straight : fs.Straight follow location) :
    fs.walk follow (Location.path location) = .ok location ∨
      (∃ error, fs.walk follow (Location.path location) = .error error) ∧ fs.Blocked location := by
  rw [walk, Location.isEmpty_path, if_neg (by simp), if_pos (Path.isAbsolute_location location),
    Location.todo_path plain some_name, walkFrom.eq_def]
  obtain reached | ⟨⟨error, failed⟩, blocked⟩ := leg_straight plain straight (List.nil_append location)
  · exact .inl (by rw [reached])
  · exact .inr ⟨⟨error, by rw [failed]⟩, blocked⟩

theorem eq_of_walk_straight (plain : Plain location) (some_name : location ≠ [])
    (straight : fs.Straight follow location)
    (walked : fs.walk follow (Location.path location) = .ok place) : place = location := by
  obtain reached | ⟨⟨error, failed⟩, -⟩ := walk_straight plain some_name straight
  · exact (Except.ok.inj (reached.symm.trans walked)).symm
  · rw [walked] at failed
    cases failed

/-! ## Walks through directories -/

theorem walk_root (follow : Bool) (fs : FileSystem) : fs.walk follow (Location.path []) = .ok [] := by
  have absolute : (Location.path []).isAbsolute = true := rfl
  rw [walk, Location.isEmpty_path, if_neg (by simp), if_pos absolute, walkFrom.eq_def]
  rfl

theorem Orderly.isDirectory_of_prefix (orderly : Orderly fs) (known : fs.IsDirectory location)
    (inside : above <+: location) : fs.IsDirectory above := by
  obtain ⟨rest, rfl⟩ := inside
  induction rest using List.reverseRecOn with
  | nil => simpa using known
  | append_singleton rest name ih =>
      obtain ⟨time, known⟩ := known
      rw [← List.append_assoc] at known
      exact ih (orderly _ _ _ known)

/-- Whatever there is lies below directories only. -/
theorem Orderly.isDirectory_above (orderly : Orderly fs) {entry : Entry}
    (known : fs.get? location = some entry) (inside : above <+: location) (strict : above ≠ location) :
    fs.IsDirectory above := by
  rcases List.eq_nil_or_concat location with rfl | ⟨front, name, rfl⟩
  · exact absurd (List.prefix_nil.mp inside) strict
  · rw [List.concat_eq_append] at known inside strict
    obtain same | before := List.prefix_concat_iff.mp inside
    · exact absurd same strict
    · exact orderly.isDirectory_of_prefix (orderly _ _ _ known) before

/-- Below a place where there is nothing there is nothing. -/
theorem Orderly.absent_below (orderly : Orderly fs) (absent : fs.get? above = none)
    (under : above <+: location) : fs.get? location = none := by
  cases known : fs.get? location with
  | none => rfl
  | some entry =>
      by_cases same : above = location
      · rw [← same, absent] at known
        cases known
      · obtain ⟨time, there⟩ := orderly.isDirectory_above known under same
        rw [absent] at there
        cases there

theorem Orderly.straight (orderly : Orderly fs) {entry : Entry} (known : fs.get? location = some entry)
    (unlinked : follow = true → ∀ target, entry ≠ .link target) : fs.Straight follow location := by
  intro place target inside link
  by_cases same : place = location
  · refine ⟨?_, same⟩
    cases follow with
    | false => rfl
    | true =>
        rw [same, known] at link
        exact absurd (Option.some.inj link) (unlinked rfl target)
  · obtain ⟨time, directory⟩ := orderly.isDirectory_above known inside same
    rw [directory] at link
    cases link

/-- The path of whatever there is leads to it. -/
theorem Orderly.find_path (orderly : Orderly fs) (plain : Plain location) (some_name : location ≠ [])
    {entry : Entry} (known : fs.get? location = some entry)
    (unlinked : follow = true → ∀ target, entry ≠ .link target) :
    fs.find follow (Location.path location) = .ok (location, entry) := by
  refine find_eq_ok_iff.mpr ⟨?_, known⟩
  obtain reached | ⟨-, place, inside, strict, other⟩ :=
    walk_straight plain some_name (orderly.straight known unlinked)
  · exact reached
  · exact absurd (orderly.isDirectory_above known inside strict) other

end FileSystem

end StaticSite
