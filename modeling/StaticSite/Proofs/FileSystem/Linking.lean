import StaticSite.Proofs.FileSystem.Growth

/-!
Recreating links. Where nothing stands yet a link comes to be, with directories above it where they are missing;
where it stands already nothing happens.
-/

namespace StaticSite.FileSystem

open Location (Plain Apart)

variable {base fs mid after : FileSystem} {puts : List (Location × Entry)}
  {path output front directory origin place : Location} {below : List String} {name : String}
  {source p target : Path} {error : IoError}

/-! ## Attempts -/

theorem copyLink_apply (reads : fs.readLink source = .ok target) (p : Path) :
    copyLink source p fs =
      attemptLink target p (fun error => do
        clearWay p error
        attemptLink target p throw) fs := by
  unfold copyLink
  rw [fileM_get_bind_apply, reads]
  rfl

theorem clearWay_apply (p : Path) (error : IoError) (next : FileM Path) (fs : FileSystem) :
    (do clearWay p error; next : FileM Path) fs =
      if error == .alreadyExists then next (removeFile p fs).2
      else if error == .notFound then
        match makeParent p fs with
        | (.ok _, after) => next after
        | (.error error, after) => (.error error, after)
      else (.error error, fs) := by
  by_cases standing : (error == .alreadyExists) = true
  · simp only [clearWay, standing, if_true]
    rw [fileM_bind_apply, tryCatch_apply]
    rcases removeFile p fs with ⟨error | _, after⟩ <;> rfl
  by_cases missing : (error == .notFound) = true
  · simp only [clearWay, standing, missing, if_true, if_false, Bool.false_eq_true]
    rw [fileM_bind_apply]
    rcases makeParent p fs with ⟨error | _, after⟩ <;> rfl
  · simp only [clearWay, standing, missing, if_false, Bool.false_eq_true]
    rfl

theorem copyLink_made (reads : fs.readLink source = .ok target) (made : makeLink target p fs = (.ok (), after)) :
    copyLink source p fs = (.ok target, after) := by
  rw [copyLink_apply reads, attemptLink_apply, made]

/-- A link that stands already is left alone. -/
theorem copyLink_standing {existing : Path} (reads : fs.readLink source = .ok target)
    (reads' : fs.readLink p = .ok existing) (same : existing.same target = true)
    (made : makeLink target p fs = (.error .alreadyExists, fs)) : copyLink source p fs = (.ok target, fs) := by
  have same : (fs.readLink p).toOption.any (·.same target) = true := by
    rw [reads']
    exact same
  rw [copyLink_apply reads, attemptLink_apply, made]
  dsimp only
  rw [same, if_pos (by decide)]

theorem copyLink_paved (reads : fs.readLink source = .ok target)
    (failed : makeLink target p fs = (.error .notFound, fs)) (paved : makeParent p fs = (.ok (), mid))
    (made : makeLink target p mid = (.ok (), after)) : copyLink source p fs = (.ok target, after) := by
  rw [copyLink_apply reads, attemptLink_apply, failed]
  dsimp only
  rw [if_neg (by simp), clearWay_apply, if_neg (by decide), if_pos (by decide), paved]
  dsimp only
  rw [attemptLink_apply, made]

/-- If no walk leads to the place of a link and no directory can be made above it, nothing happens. -/
theorem copyLink_nowhere (reads : fs.readLink source = .ok target) (some_target : target.text.isEmpty = false)
    (failed : fs.walk false p = .error error) (stuck : error = .notFound → (makeParent p fs).2 = fs) :
    ∃ error, copyLink source p fs = (.error error, fs) := by
  have made : makeLink target p fs = (.error error, fs) := by
    rw [makeLink_apply, if_neg (by simp [some_target]), failed]
  have unread : (fs.readLink p).toOption = none := by
    rw [readLink, find, failed]
    rfl
  have removed : (removeFile p fs).2 = fs := by
    rw [removeFile_apply, find, failed]
    rfl
  have again : attemptLink target p throw fs = (.error error, fs) := by
    rw [attemptLink_apply, made]
    dsimp only
    rw [unread, if_neg (by simp)]
    rfl
  rw [copyLink_apply reads, attemptLink_apply, made]
  dsimp only
  rw [unread, if_neg (by simp), clearWay_apply]
  split
  · rw [removed]
    exact ⟨error, again⟩
  split
  case isTrue missing =>
    have stuck := stuck (by simpa using missing)
    generalize makeParent p fs = outcome at stuck ⊢
    obtain ⟨error' | done, mid⟩ := outcome
    · exact ⟨error', by rw [← stuck]⟩
    · obtain rfl : mid = fs := stuck
      exact ⟨error, again⟩
  case isFalse => exact ⟨error, rfl⟩

/-! ## Behind a route -/

/-- The link that stands at a place can be read. -/
theorem readLink_path (orderly : fs.Orderly) (plain : Plain place) (some_name : place ≠ [])
    (known : fs.get? place = some (.link target)) : fs.readLink (Location.path place) = .ok target := by
  rw [readLink, orderly.find_path plain some_name known (by simp)]
  rfl

namespace Route

theorem makeLink_reached (route : fs.Route front directory) (plain : Plain (below ++ [name]))
    (above : fs.IsDirectory (directory ++ below)) (absent : fs.get? (directory ++ below ++ [name]) = none)
    (some_target : target.text.isEmpty = false) :
    makeLink target (Location.path (front ++ (below ++ [name]))) fs =
      (.ok (), fs.put (directory ++ below ++ [name]) (.link target)) := by
  rw [makeLink_apply, if_neg (by simp [some_target]), route.walk_unfollowed plain above]
  dsimp only
  rw [absent, if_neg (by simp)]

/-- A link comes to be at its place, or nothing happens. -/
theorem copyLink_below (route : fs.Route front directory) (plain : Plain (below ++ [name]))
    (linkless : fs.Linkless (directory ++ below)) (absent : fs.get? (directory ++ below ++ [name]) = none)
    (reads : fs.readLink source = .ok target) (some_target : target.text.isEmpty = false) :
    (fs.Writable (directory ++ below ++ [name]) ∧ ∃ after,
      copyLink source (Location.path (front ++ (below ++ [name]))) fs = (.ok target, after) ∧
        PutAt (directory ++ below ++ [name]) (.link target) fs after) ∨
    ¬fs.Writable (directory ++ below ++ [name]) ∧ ∃ error,
      copyLink source (Location.path (front ++ (below ++ [name]))) fs = (.error error, fs) := by
  by_cases pavable : fs.Pavable (directory ++ below)
  · have writable : fs.Writable (directory ++ below ++ [name]) := by
      refine ⟨fun above inside strict => ?_, fun entry known => ?_⟩
      · exact pavable above ((prefix_append_singleton_iff.mp inside).resolve_left strict)
      · rw [absent] at known
        cases known
    refine .inl ⟨writable, ?_⟩
    by_cases above : fs.IsDirectory (directory ++ below)
    · rw [copyLink_made reads (route.makeLink_reached plain above absent some_target)]
      exact ⟨_, rfl, route.orderly.putAt above _⟩
    · have missing := pavable.missing above
      have failed : makeLink target (Location.path (front ++ (below ++ [name]))) fs = (.error .notFound, fs) := by
        rw [makeLink_apply, if_neg (by simp [some_target]), route.walk_unready plain pavable missing]
      obtain ⟨mid, made, paved, route'⟩ := route.makeParent_below plain pavable
      have above := paved.isDirectory pavable
      have absent' : mid.get? (directory ++ below ++ [name]) = none := by
        rw [paved.get?, absent, if_neg]
        intro inside
        exact ne_concat_of_inside inside rfl
      rw [copyLink_paved reads failed made (route'.makeLink_reached plain above absent' some_target)]
      exact ⟨_, rfl, paved.putAt (route'.orderly.putAt above _)⟩
  · refine .inr ⟨fun writable => pavable writable.pavable, ?_⟩
    exact copyLink_nowhere reads some_target (route.walk_refused plain linkless pavable false) (by simp)

theorem copyLink_again (route : fs.Route front directory) (plain : Plain (below ++ [name]))
    (there : fs.get? (directory ++ below ++ [name]) = some (.link target))
    (reads : fs.readLink source = .ok target) (some_target : target.text.isEmpty = false) :
    copyLink source (Location.path (front ++ (below ++ [name]))) fs = (.ok target, fs) := by
  have walked := route.walk_unfollowed plain (route.orderly _ _ _ there)
  refine copyLink_standing reads ?_ (beq_self_eq_true _) ?_
  · rw [readLink, find, walked]
    simp only [bind, Except.bind, there]
  · rw [makeLink_apply, if_neg (by simp [some_target]), walked]
    dsimp only
    rw [there, if_pos (by simp)]

end Route

theorem Shut.copyLink (shut : fs.Shut path) (plain : Plain (below ++ [name]))
    (reads : fs.readLink source = .ok target) (some_target : target.text.isEmpty = false) :
    ∃ error, FileSystem.copyLink source (Location.path (path ++ (below ++ [name]))) fs = (.error error, fs) := by
  obtain ⟨error, failed⟩ := shut.walk (by simp) plain false
  exact copyLink_nowhere reads some_target failed fun _ => shut.makeParent plain

/-! ## Below an output directory -/

section Building

variable (footing : base.Footing path output) (some_name : below ≠ []) (plain : Plain below)
  (built : Built base path output puts fs) (apart : ∀ put ∈ puts, Apart (output ++ below) put.1)
  (plain_origin : Plain origin) (some_origin : origin ≠ []) (stands : base.get? origin = some (.link target))
  (outside : ¬output <+: origin) (some_target : target.text.isEmpty = false)

include built plain_origin some_origin stands outside in
/-- A link that lies elsewhere can be read at any time. -/
theorem Built.readLink : fs.readLink (Location.path origin) = .ok target := by
  refine readLink_path built.orderly plain_origin some_origin (built.get?_known (fun put member same => ?_) stands)
  exact outside (same ▸ built.under put member)

include footing some_name plain built apart plain_origin some_origin stands outside some_target

/-- A link is recreated at its place, or nothing happens, as it was to be told from the beginning. -/
theorem Built.copyLink (clear : base.Clear path (output ++ below))
    (absent : base.get? (output ++ below) = none) :
    (base.Accepts path (output ++ below) ∧ ∃ after,
      FileSystem.copyLink (Location.path origin) (Location.path (path ++ below)) fs = (.ok target, after) ∧
        Built base path output ((output ++ below, .link target) :: puts) after) ∨
    ¬base.Accepts path (output ++ below) ∧ ∃ error,
      FileSystem.copyLink (Location.path origin) (Location.path (path ++ below)) fs = (.error error, fs) := by
  have reads := built.readLink plain_origin some_origin stands outside
  by_cases shut : base.Shut path
  · refine .inr ⟨fun accepts => accepts.1 shut, ?_⟩
    obtain ⟨inner, name, rfl⟩ := (List.eq_nil_or_concat below).resolve_left some_name
    rw [List.concat_eq_append] at plain ⊢
    rw [built.shut shut] at reads ⊢
    exact shut.copyLink plain reads some_target
  · have free : fs.get? (output ++ below) = none := (built.get?_apart apart).trans absent
    obtain ⟨front, directory, inner, name, same, there, route, plain', linkless⟩ :=
      built.exists_route footing some_name plain clear apart shut
    rw [← there] at free
    have copied := route.copyLink_below plain'
      (fun above inside => linkless above (inside.trans (List.prefix_append _ _))) free reads some_target
    rw [same, there] at copied
    obtain ⟨writable, after, copied, put⟩ | ⟨refused, failed⟩ := copied
    · have writable := (built.writable_iff (.of_apart apart)).mp writable
      refine .inl ⟨⟨shut, writable⟩, after, copied,
        built.put (by simp) apart shut writable put fun found known => ?_⟩
      rw [absent] at known
      cases known
    · exact .inr ⟨fun accepts => refused ((built.writable_iff (.of_apart apart)).mpr accepts.2), failed⟩

/-- A link that was recreated is left alone. -/
theorem Built.copyLink_again (unshut : ¬base.Shut path)
    (there : base.get? (output ++ below) = some (.link target)) :
    FileSystem.copyLink (Location.path origin) (Location.path (path ++ below)) fs = (.ok target, fs) := by
  have reads := built.readLink plain_origin some_origin stands outside
  have kept : fs.get? (output ++ below) = some (.link target) := (built.get?_apart apart).trans there
  obtain ⟨front, rest, directory, rfl, rfl, route⟩ := footing.exists_route unshut
  obtain ⟨inner, name, rfl⟩ := (List.eq_nil_or_concat below).resolve_left some_name
  rw [List.concat_eq_append] at plain kept ⊢
  have plain' : Plain (rest ++ inner ++ [name]) := by
    rw [List.append_assoc]
    exact Plain.append (fun other member => footing.plain other (by simp [member])) plain
  have again := (route.keeps built.keeps built.orderly).copyLink_again plain' (by simpa using kept) reads
    some_target
  simpa using again

end Building

end StaticSite.FileSystem
