import StaticSite.Proofs.FileSystem.Putting

/-!
File systems that grow. Things are put at places below an output directory, none of them at or below the
place of another. What there is in the end is a matter of what was put where, not of the order; what one more
thing needs stays as it was at the beginning, and so does what a path leads to that keeps off the places.
-/

namespace StaticSite

open Location (Plain)

namespace Location

/-- Neither of two places is the other one or above it. -/
def Apart (first second : Location) : Prop := ¬first <+: second ∧ ¬second <+: first

theorem Apart.symm {first second : Location} (apart : Apart first second) : Apart second first :=
  ⟨apart.2, apart.1⟩

/-- Different names in one directory. -/
theorem apart_of_ne (directory : Location) {name other : String} (different : name ≠ other) :
    Apart (directory ++ [name]) (directory ++ [other]) := by
  rw [Apart, List.prefix_append_right_inj, List.prefix_append_right_inj]
  simp [different, different.symm]

end Location

namespace FileSystem

open Location (Apart)

variable {base fs fs' after : FileSystem} {puts puts' : List (Location × Entry)} {path output place : Location}
  {below : List String} {entry : Entry} {content : Bytes} {time : Time} {p : Path}

/-- Things were put at places of a file system, with directories where they were missing above them. -/
structure Grown (base : FileSystem) (puts : List (Location × Entry)) (fs : FileSystem) : Prop where
  now : fs.now = base.now
  workingDirectory : fs.workingDirectory = base.workingDirectory
  orderly : fs.Orderly
  fits : ∀ put ∈ puts, ∀ entry, base.get? put.1 = some entry →
    (∃ content time, entry = .file content time) ∧ ∃ content time, put.2 = .file content time
  there : ∀ put ∈ puts, fs.get? put.1 = some put.2
  above : ∀ put ∈ puts, ∀ place, place <+: put.1 → place ≠ put.1 →
    fs.get? place = (base.get? place).or (some (.directory base.now))
  elsewhere : ∀ place, (∀ put ∈ puts, ¬place <+: put.1) → fs.get? place = base.get? place

/-- Nothing was put at a place, above it or below it, but for a file at the place itself. -/
def Spares (puts : List (Location × Entry)) (place : Location) : Prop :=
  ∀ put ∈ puts, (put.1 = place ∧ ∃ content time, put.2 = .file content time) ∨ Apart place put.1

theorem Spares.of_apart (apart : ∀ put ∈ puts, Apart place put.1) : Spares puts place :=
  fun put member => .inr (apart put member)

namespace Grown

theorem nil (orderly : base.Orderly) : Grown base [] base :=
  ⟨rfl, rfl, orderly, by simp, by simp, by simp, fun _ _ => rfl⟩

/-- What there is depends on what was put where, not on the order. -/
theorem get?_eq (grown : Grown base puts fs) (grown' : Grown base puts' fs')
    (same : ∀ put, put ∈ puts ↔ put ∈ puts') (place : Location) : fs.get? place = fs'.get? place := by
  by_cases there : ∃ put ∈ puts, place = put.1
  · obtain ⟨put, member, rfl⟩ := there
    rw [grown.there put member, grown'.there put ((same put).mp member)]
  by_cases above : ∃ put ∈ puts, place <+: put.1
  · obtain ⟨put, member, inside⟩ := above
    have strict : place ≠ put.1 := fun equal => there ⟨put, member, equal⟩
    rw [grown.above put member place inside strict, grown'.above put ((same put).mp member) place inside strict]
  · simp only [not_exists, not_and] at above
    rw [grown.elsewhere place above, grown'.elsewhere place fun put member => above put ((same put).mpr member)]

theorem get?_or (grown : Grown base puts fs) (unwritten : ∀ put ∈ puts, put.1 ≠ place) :
    fs.get? place = base.get? place ∨ base.get? place = none ∧ fs.get? place = some (.directory base.now) := by
  by_cases above : ∃ put ∈ puts, place <+: put.1
  · obtain ⟨put, member, inside⟩ := above
    rw [grown.above put member place inside fun same => unwritten put member same.symm]
    cases base.get? place with
    | none => exact .inr ⟨rfl, rfl⟩
    | some entry => exact .inl rfl
  · simp only [not_exists, not_and] at above
    exact .inl (grown.elsewhere place above)

theorem get?_known (grown : Grown base puts fs) (unwritten : ∀ put ∈ puts, put.1 ≠ place)
    (known : base.get? place = some entry) : fs.get? place = some entry := by
  obtain same | ⟨missing, -⟩ := grown.get?_or unwritten
  · rw [same, known]
  · rw [known] at missing
    cases missing

theorem keeps (grown : Grown base puts fs) : Keeps base fs where
  workingDirectory := grown.workingDirectory
  passable {place entry} known solid := by
    refine grown.get?_known (fun put member same => ?_) known
    obtain ⟨⟨content, time, file⟩, -⟩ := grown.fits put member entry (same ▸ known)
    exact solid content time file
  file {place content time} known := by
    by_cases there : ∃ put ∈ puts, put.1 = place
    · obtain ⟨put, member, rfl⟩ := there
      obtain ⟨-, content', time', file⟩ := grown.fits put member _ known
      exact ⟨content', time', by rw [grown.there put member, file]⟩
    · simp only [not_exists, not_and] at there
      exact ⟨content, time, grown.get?_known there known⟩

/-! ## One more thing -/

section Spares

variable (spares : Spares puts place)

include spares

theorem get?_above (grown : Grown base puts fs) {above : Location} (inside : above <+: place)
    (strict : above ≠ place) :
    fs.get? above = base.get? above ∨
      base.get? above = none ∧ fs.get? above = some (.directory base.now) := by
  refine grown.get?_or fun put member same => ?_
  obtain ⟨own, -⟩ | apart := spares put member
  · exact strict (same.symm.trans own)
  · exact apart.2 (same ▸ inside)

/-- At the place there is what there was, or a file in the place of a file or of nothing. -/
theorem get?_spared (grown : Grown base puts fs) :
    fs.get? place = base.get? place ∨ (∃ content time, fs.get? place = some (.file content time)) ∧
      ∀ entry, base.get? place = some entry → ∃ content time, entry = .file content time := by
  by_cases there : ∃ put ∈ puts, put.1 = place
  · obtain ⟨put, member, rfl⟩ := there
    have known := grown.there put member
    obtain ⟨-, content, time, file⟩ | apart := spares put member
    · rw [file] at known
      exact .inr ⟨⟨content, time, known⟩, fun entry before => (grown.fits put member entry before).1⟩
    · exact absurd (List.prefix_refl _) apart.1
  · simp only [not_exists, not_and] at there
    refine .inl (grown.elsewhere place fun put member => ?_)
    exact ((spares put member).resolve_left fun own => there put member own.1).1

theorem writable_iff (grown : Grown base puts fs) : fs.Writable place ↔ base.Writable place := by
  have same := grown.get?_spared spares
  constructor
  · intro writable
    refine ⟨fun above inside strict entry known => ?_, fun entry known => ?_⟩
    · obtain equal | ⟨missing, -⟩ := grown.get?_above spares inside strict
      · exact writable.above above inside strict entry (equal ▸ known)
      · rw [missing] at known
        cases known
    · obtain equal | ⟨-, file⟩ := same
      · exact writable.fills entry (equal ▸ known)
      · exact file entry known
  · intro writable
    refine ⟨fun above inside strict entry known => ?_, fun entry known => ?_⟩
    · obtain equal | ⟨-, made⟩ := grown.get?_above spares inside strict
      · exact writable.above above inside strict entry (equal ▸ known)
      · rw [made] at known
        exact ⟨_, (Option.some.inj known).symm⟩
    · obtain equal | ⟨⟨content, time, file⟩, -⟩ := same
      · exact writable.fills entry (equal ▸ known)
      · rw [file] at known
        exact ⟨content, time, (Option.some.inj known).symm⟩

theorem linkless (grown : Grown base puts fs) (linkless : base.Linkless place) : fs.Linkless place := by
  intro above inside target link
  by_cases last : above = place
  · subst last
    obtain equal | ⟨⟨content, time, file⟩, -⟩ := grown.get?_spared spares
    · exact linkless above inside target (equal ▸ link)
    · rw [file] at link
      cases link
  · obtain equal | ⟨-, made⟩ := grown.get?_above spares inside last
    · exact linkless above inside target (equal ▸ link)
    · rw [made] at link
      cases link

end Spares

section Apart

variable (apart : ∀ put ∈ puts, Apart place put.1)

include apart

theorem get?_apart (grown : Grown base puts fs) : fs.get? place = base.get? place :=
  grown.elsewhere place fun put member => (apart put member).1

theorem cons (grown : Grown base puts fs) (put : PutAt place entry fs after) (orderly : after.Orderly)
    (fits : ∀ found, base.get? place = some found →
      (∃ content time, found = .file content time) ∧ ∃ content time, entry = .file content time) :
    Grown base ((place, entry) :: puts) after where
  now := put.now.trans grown.now
  workingDirectory := put.workingDirectory.trans grown.workingDirectory
  orderly := orderly
  fits := List.forall_mem_cons.mpr ⟨fits, grown.fits⟩
  there := by
    refine List.forall_mem_cons.mpr ⟨by rw [put.get?, if_pos rfl], fun other member => ?_⟩
    obtain ⟨before, behind⟩ := apart other member
    have different : other.1 ≠ place := fun same => behind (same ▸ List.prefix_refl _)
    rw [put.get?, if_neg different, if_neg behind, grown.there other member]
  above := by
    refine List.forall_mem_cons.mpr ⟨fun above inside strict => ?_, fun other member above inside strict => ?_⟩
    · rw [put.get?, if_neg strict, if_pos inside, grown.now]
      obtain same | ⟨missing, made⟩ := grown.get?_above (.of_apart apart) inside strict
      · rw [same]
      · rw [missing, made]
        rfl
    · have different : above ≠ place := by
        rintro rfl
        exact (apart other member).1 inside
      rw [put.get?, if_neg different, grown.above other member above inside strict, grown.now,
        Option.or_assoc, Option.or_self, ite_self]
  elsewhere := by
    intro other outside
    obtain ⟨first, others⟩ := List.forall_mem_cons.mp outside
    have different : other ≠ place := by
      rintro rfl
      exact first (List.prefix_refl _)
    rw [put.get?, if_neg different, if_neg first, grown.elsewhere other others]

end Apart

end Grown

/-- Directories are made on the way to what is put, and nowhere else. -/
theorem Grown.outside (grown : Grown base puts fs) (under : ∀ put ∈ puts, output <+: put.1)
    (outside : ¬output <+: place) : fs.get? place = base.get? place ∨
      base.get? place = none ∧ place <+: output ∧ ∃ time, fs.get? place = some (.directory time) := by
  by_cases above : ∃ put ∈ puts, place <+: put.1
  · obtain ⟨put, member, inside⟩ := above
    have strict : place ≠ put.1 := by
      rintro rfl
      exact outside (under put member)
    have there := grown.above put member place inside strict
    cases known : base.get? place with
    | none =>
        rw [known] at there
        exact .inr ⟨rfl, (List.prefix_or_prefix_of_prefix inside (under put member)).resolve_right outside, _, there⟩
    | some entry =>
        rw [known] at there
        exact .inl there
  · simp only [not_exists, not_and] at above
    exact .inl (grown.elsewhere place above)

/-- Names stay plain where plain names are put. -/
theorem Grown.plain (grown : Grown base puts fs) (plain : ∀ put ∈ puts, Plain put.1)
    (known : ∀ {entry}, base.get? place = some entry → Plain place) (there : fs.get? place = some entry) :
    Plain place := by
  by_cases above : ∃ put ∈ puts, place <+: put.1
  · obtain ⟨put, member, inside⟩ := above
    have whole := plain put member
    exact whole.of_prefix inside
  · simp only [not_exists, not_and] at above
    rw [grown.elsewhere place above] at there
    exact known there

/-! ## Paths that keep off -/

/-- A path leads to nothing at or below a place, and it does not break off there or above it. -/
structure KeepsOff (fs : FileSystem) (output : Location) (p : Path) : Prop where
  found : ∀ place entry, fs.find true p = .ok (place, entry) → ¬output <+: place
  gap : ∀ place, fs.gap? p = some place → Apart output place

theorem keepsOff_of_find {entry : Entry} (finds : base.find true p = .ok (place, entry))
    (outside : ¬output <+: place) : base.KeepsOff output p where
  found other entry' finds' := by
    rw [finds] at finds'
    cases finds'
    exact outside
  gap other gap := by
    rw [gap?_of_find finds] at gap
    cases gap

section Off

variable (grown : Grown base puts fs) (under : ∀ put ∈ puts, output <+: put.1)

include grown under

theorem Grown.absent_apart (missing : base.get? place = none) (apart : Apart output place) :
    fs.get? place = none := by
  rw [grown.elsewhere place, missing]
  intro put member inside
  exact (List.prefix_or_prefix_of_prefix inside (under put member)).elim apart.2 apart.1

variable (off : base.KeepsOff output p)

include off

theorem Grown.absent_gap (gap : base.gap? p = some place) : fs.get? place = none :=
  grown.absent_apart under (gap?_missing gap) (off.gap place gap)

theorem Grown.find_eq : fs.find true p = base.find true p := by
  have walks : fs.walk true p = base.walk true p :=
    walk_keeps grown.keeps fun place gap => grown.absent_gap under off gap
  unfold find
  rw [walks]
  cases walked : base.walk true p with
  | error error => rfl
  | ok place =>
      simp only [bind, Except.bind]
      have ends := gap?_of_walk walked
      cases known : base.get? place with
      | none =>
          rw [known] at ends
          rw [grown.absent_gap under off ends]
      | some entry =>
          have outside := off.found place entry (find_eq_ok_iff.mpr ⟨walked, known⟩)
          have unwritten : ∀ put ∈ puts, put.1 ≠ place := by
            rintro put member rfl
            exact outside (under put member)
          rw [grown.get?_known unwritten known]

/-- A path that kept off does so still. -/
theorem Grown.keepsOff : fs.KeepsOff output p where
  found place entry finds := off.found place entry ((grown.find_eq under off).symm.trans finds)
  gap place gap := by
    refine off.gap place ?_
    rwa [gap?_keeps grown.keeps fun place gap => grown.absent_gap under off gap] at gap

end Off

theorem writable_later {now : Time} : (fs.later now).Writable place ↔ fs.Writable place :=
  ⟨fun writable => ⟨writable.above, writable.fills⟩, fun writable => ⟨writable.above, writable.fills⟩⟩

theorem KeepsOff.later (off : fs.KeepsOff output p) (now : Time) : (fs.later now).KeepsOff output p where
  found place entry finds := off.found place entry (by rwa [find_later] at finds)
  gap place gap := off.gap place (by rwa [gap?_later] at gap)

/-! ## The place of an output directory -/

/-- Where a path leads to, or would lead to if what is missing of it were made. -/
def Lies (fs : FileSystem) (path place : Location) : Prop :=
  ∃ front rest directory, path = front ++ rest ∧ place = directory ++ rest ∧
    fs.walk true (Location.path front) = .ok directory ∧ fs.IsDirectory directory ∧
    ∀ name behind, rest = name :: behind → fs.isDirectory (Location.path (front ++ [name])) = false

theorem exists_lies (plain : Plain path) (fs : FileSystem) : ∃ place, fs.Lies path place := by
  induction path using List.reverseRecOn with
  | nil => exact ⟨[], [], [], [], rfl, rfl, walk_root true fs, isDirectory_root fs, by simp⟩
  | append_singleton above name ih =>
      obtain ⟨place, front, rest, directory, rfl, rfl, walked, known, stops⟩ := ih plain.front
      by_cases whole : rest = []
      · subst whole
        rw [List.append_nil] at *
        by_cases further : fs.isDirectory (Location.path (front ++ [name])) = true
        · unfold isDirectory at further
          split at further
          · rename_i next time finds
            exact ⟨next, front ++ [name], [], next, by simp, by simp, walk_of_find finds,
              ⟨_, get?_of_find finds⟩, by simp⟩
          · cases further
        · refine ⟨directory ++ [name], front, [name], directory, rfl, rfl, walked, known, ?_⟩
          rintro other behind ⟨⟩
          simpa using further
      · obtain ⟨first, others, rfl⟩ := List.exists_cons_of_ne_nil whole
        refine ⟨directory ++ (first :: others ++ [name]), front, first :: others ++ [name], directory,
          by simp, rfl, walked, known, ?_⟩
        rintro other behind ⟨⟩
        exact stops first others rfl

/-- No link stands at a place or above it, unless nothing can be put there at all. -/
def Clear (base : FileSystem) (path place : Location) : Prop := ¬base.Shut path → base.Linkless place

/-- Nothing is shut behind a link if there is none. -/
theorem Linkless.unshut (linkless : base.Linkless path) : ¬base.Shut path := by
  intro shut
  obtain ⟨front, name, behind, rfl, -, directory, target, route, link⟩ := shut.exists_link
  have straight : base.Straight true front := fun place target inside known =>
    absurd known (linkless place (inside.trans (List.prefix_append _ _)) target)
  have same : directory = front := by
    by_cases root : front = []
    · have walked := route.walked
      rw [root, walk_root] at walked
      rw [root, ← Except.ok.inj walked]
    · exact eq_of_walk_straight route.plain root straight route.walked
  rw [same] at link
  exact linkless _ ⟨behind, by simp⟩ target link

/-- The footing of an output directory: its path leads past links only, or nothing can be put there. -/
structure Footing (base : FileSystem) (path output : Location) : Prop where
  orderly : base.Orderly
  plain : Plain path
  exists_route : ¬base.Shut path → ∃ front rest directory, path = front ++ rest ∧
    output = directory ++ rest ∧ base.Route front directory

/-- The ground that an output directory without links stands on. -/
structure Ground (base : FileSystem) (path output : Location) : Prop extends Footing base path output where
  clear : ∀ below, base.Clear path (output ++ below)

theorem Lies.footing (lies : base.Lies path output) (orderly : base.Orderly) (plain : Plain path) :
    base.Footing path output := by
  obtain ⟨front, rest, directory, rfl, rfl, walked, known, -⟩ := lies
  exact ⟨orderly, plain, fun _ => ⟨front, rest, directory, rfl, rfl, orderly,
    plain.of_prefix (List.prefix_append _ _), walked, known⟩⟩

/-- An output directory that holds no links. -/
theorem Lies.ground (lies : base.Lies path output) (orderly : base.Orderly) (plain : Plain path)
    (linkless : ∀ place target, output <+: place → place ≠ output → base.get? place ≠ some (.link target)) :
    base.Ground path output := by
  refine ⟨lies.footing orderly plain, fun below unshut above inside target link => ?_⟩
  obtain ⟨front, rest, directory, rfl, rfl, walked, known, stops⟩ := lies
  have route : base.Route front directory := ⟨orderly, plain.of_prefix (List.prefix_append _ _), walked, known⟩
  obtain before | behind := List.prefix_or_prefix_of_prefix inside
    ((List.prefix_append directory rest).trans (List.prefix_append _ below))
  · obtain ⟨time, there⟩ := orderly.isDirectory_of_prefix known before
    rw [link] at there
    cases there
  · cases rest with
    | nil =>
        refine linkless above target (by simpa using behind) ?_ link
        rintro rfl
        obtain ⟨time, there⟩ := known
        rw [List.append_nil, there] at link
        cases link
    | cons name others =>
        have nowhere := stops name others rfl
        obtain ⟨way, rfl⟩ := behind
        rw [List.append_assoc, List.prefix_append_right_inj] at inside
        cases way with
        | nil =>
            obtain ⟨time, there⟩ := known
            rw [List.append_nil, there] at link
            cases link
        | cons first more =>
            obtain rfl : first = name := (List.cons_prefix_cons.mp inside).1
            by_cases last : more = []
            · subst last
              exact unshut ⟨plain, front, first, others, rfl, nowhere, directory, target, route, link⟩
            -- what has something below it is a directory, and then the path would lead further
            · have whole : directory ++ first :: more = directory ++ [first] ++ more := by simp
              rw [whole] at link
              obtain ⟨time, there⟩ := orderly.isDirectory_above link (List.prefix_append _ _)
                (by simpa using last)
              have proper : Path.Proper first := plain first (by simp)
              obtain ⟨time', known⟩ := known
              have reached := route.walk_reached (by simpa [Plain] using proper : Plain ([] ++ [first]))
                (by rw [List.append_nil]; exact ⟨time', known⟩) (by simp [there]) true
              rw [List.nil_append] at reached
              rw [Route.isDirectory_of_walk reached ⟨time, there⟩] at nowhere
              cases nowhere

/-! ## Building below an output directory -/

/-- Whether a file can be put at a place below the output directory. -/
def Accepts (base : FileSystem) (path place : Location) : Prop := ¬base.Shut path ∧ base.Writable place

/-- Where there is nothing yet, all depends on what stands above. -/
theorem Orderly.accepts_below (orderly : base.Orderly) (absent : base.get? output = none) (below : List String) :
    base.Accepts path (output ++ below) ↔ base.Accepts path output := by
  have nothing {entry : Entry} {place : Location} (under : output <+: place) : base.get? place ≠ some entry := by
    rw [orderly.absent_below absent under]
    simp
  refine and_congr_right fun _ => ⟨fun writable => ?_, fun writable => ?_⟩
  · refine ⟨fun above inside strict => ?_, fun entry known => absurd known (nothing (List.prefix_refl _))⟩
    refine writable.above above (inside.trans (List.prefix_append _ _)) ?_
    rintro rfl
    exact strict (inside.eq_of_length_le (List.prefix_append _ _).length_le)
  · refine ⟨fun above inside strict entry known => ?_,
      fun entry known => absurd known (nothing (List.prefix_append _ _))⟩
    obtain before | under := List.prefix_or_prefix_of_prefix inside (List.prefix_append output below)
    · refine writable.above above before ?_ entry known
      rintro rfl
      exact nothing (List.prefix_refl _) known
    · exact absurd known (nothing under)

/-- What the files below an output directory have become. -/
structure Built (base : FileSystem) (path output : Location) (puts : List (Location × Entry))
    (fs : FileSystem) : Prop extends Grown base puts fs where
  under : ∀ put ∈ puts, output <+: put.1
  shut : base.Shut path → fs = base

theorem Built.put {entry : Entry} (built : Built base path output puts fs) (under : output <+: place)
    (apart : ∀ put ∈ puts, Apart place put.1) (unshut : ¬base.Shut path) (writable : base.Writable place)
    (put : PutAt place entry fs after)
    (fits : ∀ found, base.get? place = some found → ∃ content time, entry = .file content time) :
    Built base path output ((place, entry) :: puts) after where
  toGrown := built.toGrown.cons apart put (put.orderly built.orderly ((built.writable_iff (.of_apart apart)).mpr writable))
    fun found known => ⟨writable.fills found known, fits found known⟩
  under := List.forall_mem_cons.mpr ⟨under, built.under⟩
  shut := fun shut => absurd shut unshut

section Building

variable (footing : base.Footing path output) (some_name : below ≠ []) (plain : Plain below)
  (clear : base.Clear path (output ++ below))

include footing

theorem Footing.nil : Built base path output [] base := ⟨.nil footing.orderly, by simp, fun _ => rfl⟩

include some_name plain clear

/-- The way to a place below the output directory, in a file system that has grown elsewhere. -/
theorem Built.exists_route (built : Built base path output puts fs)
    (apart : ∀ put ∈ puts, Apart (output ++ below) put.1) (unshut : ¬base.Shut path) :
    ∃ front directory inner name, front ++ (inner ++ [name]) = path ++ below ∧
      directory ++ inner ++ [name] = output ++ below ∧ fs.Route front directory ∧
      Plain (inner ++ [name]) ∧ fs.Linkless (directory ++ inner ++ [name]) := by
  obtain ⟨front, rest, directory, rfl, rfl, route⟩ := footing.exists_route unshut
  have free := built.linkless (.of_apart apart) (clear unshut)
  obtain ⟨inner, name, rfl⟩ := (List.eq_nil_or_concat below).resolve_left some_name
  rw [List.concat_eq_append] at plain free ⊢
  refine ⟨front, directory, rest ++ inner, name, by simp, by simp, route.keeps built.keeps built.orderly, ?_,
    by simpa using free⟩
  intro other member
  simp only [List.mem_append] at member
  obtain (among | among) | among := member
  · exact footing.plain other (by simp [among])
  · exact plain other (by simp [among])
  · exact plain other (by simp [among])

/-- A file is put at its place, or nothing happens, as it was to be told from the beginning. -/
theorem Built.writeFile (built : Built base path output puts fs)
    (apart : ∀ put ∈ puts, Apart (output ++ below) put.1) (content : Bytes) :
    (base.Accepts path (output ++ below) ∧ ∃ after,
      FileSystem.writeFile (Location.path (path ++ below)) content fs = (.ok (), after) ∧
        Built base path output ((output ++ below, .file content base.now) :: puts) after) ∨
    ¬base.Accepts path (output ++ below) ∧ ∃ error,
      FileSystem.writeFile (Location.path (path ++ below)) content fs = (.error error, fs) := by
  by_cases shut : base.Shut path
  · refine .inr ⟨fun accepts => accepts.1 shut, ?_⟩
    obtain ⟨inner, name, rfl⟩ := (List.eq_nil_or_concat below).resolve_left some_name
    rw [List.concat_eq_append] at plain ⊢
    rw [built.shut shut]
    exact shut.writeFile plain content
  · obtain ⟨front, directory, inner, name, same, there, route, plain', linkless⟩ :=
      built.exists_route footing some_name plain clear apart shut
    have wrote := route.writeFile_below plain' linkless content
    rw [same, there] at wrote
    obtain ⟨writable, after, wrote, put⟩ | ⟨refused, failed⟩ := wrote
    · have writable := (built.writable_iff (.of_apart apart)).mp writable
      rw [built.now] at put
      exact .inl ⟨⟨shut, writable⟩, after, wrote,
        built.put (by simp) apart shut writable put fun _ _ => ⟨_, _, rfl⟩⟩
    · exact .inr ⟨fun accepts => refused ((built.writable_iff (.of_apart apart)).mpr accepts.2), failed⟩

/-- The content of a file that lies elsewhere is put at its place, or nothing happens. -/
theorem Built.copyFile (built : Built base path output puts fs)
    (apart : ∀ put ∈ puts, Apart (output ++ below) put.1) {source : Path}
    (finds : fs.find true source = .ok (place, .file content time)) (outside : ¬output <+: place) :
    (base.Accepts path (output ++ below) ∧ ∃ size after,
      FileSystem.copyFile source (Location.path (path ++ below)) fs = (.ok size, after) ∧
        Built base path output ((output ++ below, .file content base.now) :: puts) after) ∨
    ¬base.Accepts path (output ++ below) ∧ ∃ error,
      FileSystem.copyFile source (Location.path (path ++ below)) fs = (.error error, fs) := by
  by_cases shut : base.Shut path
  · refine .inr ⟨fun accepts => accepts.1 shut, ?_⟩
    obtain ⟨inner, name, rfl⟩ := (List.eq_nil_or_concat below).resolve_left some_name
    rw [List.concat_eq_append] at plain ⊢
    rw [built.shut shut] at finds ⊢
    exact shut.copyFile plain finds
  · have different : place ≠ output ++ below := by
      rintro rfl
      exact outside (by simp)
    obtain ⟨front, directory, inner, name, same, there, route, plain', linkless⟩ :=
      built.exists_route footing some_name plain clear apart shut
    have copied := route.copyFile_below plain' linkless finds (there ▸ different)
    rw [same, there] at copied
    obtain ⟨writable, size, after, copied, put⟩ | ⟨refused, failed⟩ := copied
    · have writable := (built.writable_iff (.of_apart apart)).mp writable
      rw [built.now] at put
      exact .inl ⟨⟨shut, writable⟩, size, after, copied,
        built.put (by simp) apart shut writable put fun _ _ => ⟨_, _, rfl⟩⟩
    · exact .inr ⟨fun accepts => refused ((built.writable_iff (.of_apart apart)).mpr accepts.2), failed⟩

/-- What stands at the place is as old as it was at the beginning. -/
theorem Built.modified_below (built : Built base path output puts fs)
    (apart : ∀ put ∈ puts, Apart (output ++ below) put.1) (unshut : ¬base.Shut path) :
    (fs.modified (Location.path (path ++ below))).toOption =
      (base.get? (output ++ below)).bind Entry.time? := by
  obtain ⟨front, directory, inner, name, same, there, route, plain', linkless⟩ :=
    built.exists_route footing some_name plain clear apart unshut
  have told := route.modified_below plain' linkless
  rwa [same, there, built.get?_apart apart] at told

theorem Built.modified (built : Built base path output puts fs)
    (apart : ∀ put ∈ puts, Apart (output ++ below) put.1) :
    (fs.modified (Location.path (path ++ below))).toOption =
      (base.modified (Location.path (path ++ below))).toOption := by
  by_cases shut : base.Shut path
  · rw [built.shut shut]
  · rw [built.modified_below footing some_name plain clear apart shut,
      footing.nil.modified_below footing some_name plain clear (by simp) shut]

end Building

end FileSystem

end StaticSite
