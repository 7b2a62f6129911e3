import StaticSite.Proofs.FileSystem.Copying

/-!
File systems that list each place once. No operation lists a place again.
-/

namespace StaticSite.FileSystem

variable {fs : FileSystem} {location : Location}

/-- Each place is listed once, and the root is not listed. -/
def Distinct (fs : FileSystem) : Prop := ([] :: fs.entries.map (·.1)).Nodup

instance (fs : FileSystem) : Decidable fs.Distinct := inferInstanceAs (Decidable (List.Nodup _))

theorem Distinct.erase (distinct : fs.Distinct) (location : Location) : (fs.erase location).Distinct :=
  distinct.sublist (List.Sublist.cons_cons _ (List.filter_sublist.map _))

theorem Distinct.put (distinct : fs.Distinct) (some_name : location ≠ []) (entry : Entry) :
    (fs.put location entry).Distinct := by
  obtain ⟨unlisted, once⟩ := List.nodup_cons.mp (distinct.erase location)
  refine List.nodup_cons.mpr ⟨?_, List.nodup_cons.mpr ⟨?_, once⟩⟩
  · rw [FileSystem.put, List.map_cons, List.mem_cons]
    exact not_or.mpr ⟨some_name.symm, unlisted⟩
  · simp

theorem ne_nil_of_placeToWrite {p : Path} (placed : fs.placeToWrite p = .ok location) : location ≠ [] := by
  rintro rfl
  unfold placeToWrite at placed
  split at placed
  · split at placed
    · cases placed
    next solid =>
      split at placed
      · cases placed
      · cases placed
        exact solid 0 rfl
  · split at placed <;> cases placed

theorem ne_nil_of_get?_eq_none (absent : ¬(fs.get? location).isSome) : location ≠ [] := by
  rintro rfl
  exact absent rfl

theorem distinct_write (p : Path) (content : Bytes) : Preserves Distinct (write p content) := by
  intro fs distinct
  rw [write_apply]
  cases placed : fs.placeToWrite p with
  | error error => exact distinct
  | ok location => exact distinct.put (ne_nil_of_placeToWrite placed) _

theorem distinct_makeDirectory (p : Path) : Preserves Distinct (makeDirectory p) := by
  intro fs distinct
  rw [makeDirectory_apply]
  cases fs.walk false (if (withoutEndSlash p).text.isEmpty then p else withoutEndSlash p) with
  | error error => exact distinct
  | ok location =>
      dsimp only
      split
      · exact distinct
      next absent => exact distinct.put (ne_nil_of_get?_eq_none absent) _

theorem distinct_makeLink (target p : Path) : Preserves Distinct (makeLink target p) := by
  intro fs distinct
  rw [makeLink_apply]
  split
  · exact distinct
  cases fs.walk false p with
  | error error => exact distinct
  | ok location =>
      dsimp only
      split
      · exact distinct
      next absent => exact distinct.put (ne_nil_of_get?_eq_none absent) _

theorem distinct_removeFile (p : Path) : Preserves Distinct (removeFile p) := by
  intro fs distinct
  rw [removeFile_apply]
  split
  · exact distinct
  · exact distinct
  · exact distinct.erase _

end StaticSite.FileSystem
