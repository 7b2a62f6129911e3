import Mathlib.Tactic.Common
import StaticSite.FileSystem.Basic

/-!
What a path leads to, and what its content and its time then are.
-/

namespace StaticSite

/-- When something was made. A link has no time of its own. -/
def Entry.time? : Entry → Option Time
  | .directory time => some time
  | .file _ time => some time
  | .link _ => none

namespace FileSystem

variable {fs : FileSystem} {follow : Bool} {p : Path} {location : Location} {entry : Entry}
  {content : Bytes} {time : Time}

theorem find_eq_ok_iff :
    fs.find follow p = .ok (location, entry) ↔
      fs.walk follow p = .ok location ∧ fs.get? location = some entry := by
  unfold find
  cases fs.walk follow p with
  | error error => simp [bind, Except.bind]
  | ok there =>
      simp only [bind, Except.bind, Except.ok.injEq]
      cases known : fs.get? there with
      | none =>
          simp only [reduceCtorEq, false_iff, not_and]
          rintro rfl
          simp [known]
      | some entry =>
          simp only [Except.ok.injEq, Prod.mk.injEq]
          constructor
          · rintro ⟨rfl, rfl⟩
            exact ⟨rfl, known⟩
          · rintro ⟨rfl, same⟩
            exact ⟨rfl, Option.some.inj (known.symm.trans same)⟩

theorem get?_of_find (found : fs.find follow p = .ok (location, entry)) :
    fs.get? location = some entry :=
  (find_eq_ok_iff.mp found).2

theorem walk_of_find (found : fs.find follow p = .ok (location, entry)) :
    fs.walk follow p = .ok location :=
  (find_eq_ok_iff.mp found).1

/-! ## Content and time of a file -/

theorem modified_of_find (found : fs.find true p = .ok (location, .file content time)) :
    fs.modified p = .ok time := by
  simp [modified, found, bind, Except.bind]

theorem read_of_find (found : fs.find true p = .ok (location, .file content time)) :
    fs.read p = .ok content := by
  simp [read, found, bind, Except.bind]

theorem read_of_walk (walked : fs.walk true p = .ok location)
    (known : fs.get? location = some (.file content time)) : fs.read p = .ok content :=
  read_of_find (find_eq_ok_iff.mpr ⟨walked, known⟩)

theorem readText_of_read {source : String} (reads : fs.read p = .ok content)
    (decoded : Text.Utf8.decode? content = some source) : fs.readText p = .ok source := by
  simp [readText, reads, decoded, bind, Except.bind]

theorem exists_find_of_modified (timed : fs.modified p = .ok time) :
    ∃ found, fs.find true p = .ok found := by
  unfold modified at timed
  cases found : fs.find true p with
  | error error => simp [found, bind, Except.bind] at timed
  | ok entry => exact ⟨entry, rfl⟩

theorem exists_get?_of_modified (timed : fs.modified p = .ok time) :
    ∃ location, fs.get? location = some (.directory time) ∨
      ∃ content, fs.get? location = some (.file content time) := by
  obtain ⟨⟨location, entry⟩, found⟩ := exists_find_of_modified timed
  have known := get?_of_find found
  cases entry <;> simp [modified, found, bind, Except.bind] at timed <;> subst timed
  · exact ⟨location, .inl known⟩
  · exact ⟨location, .inr ⟨_, known⟩⟩

theorem exists_find_of_read (reads : fs.read p = .ok content) :
    ∃ location time, fs.find true p = .ok (location, .file content time) := by
  unfold read at reads
  cases found : fs.find true p with
  | error error => simp [found, bind, Except.bind] at reads
  | ok entry =>
      obtain ⟨location, entry⟩ := entry
      cases entry with
      | directory time => simp [found, bind, Except.bind] at reads
      | link target => simp [found, bind, Except.bind] at reads
      | file content' time =>
          simp only [found, bind, Except.bind, Except.ok.injEq] at reads
          exact ⟨location, time, by rw [reads]⟩

theorem exists_find_of_readText {source : String} (reads : fs.readText p = .ok source) :
    ∃ location content time, fs.find true p = .ok (location, .file content time) ∧
      Text.Utf8.decode? content = some source := by
  unfold readText at reads
  cases bytes : fs.read p with
  | error error => simp [bytes, bind, Except.bind] at reads
  | ok content =>
      obtain ⟨location, time, found⟩ := exists_find_of_read bytes
      refine ⟨location, content, time, found, ?_⟩
      simp only [bytes, bind, Except.bind] at reads
      cases decoded : Text.Utf8.decode? content with
      | none => simp [decoded] at reads
      | some text => simpa [decoded] using reads

end FileSystem

end StaticSite
