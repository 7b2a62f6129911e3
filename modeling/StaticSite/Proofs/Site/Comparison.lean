import StaticSite.Proofs.Site.Unchanged

/-!
Two builds side by side, of trees that differ in nothing but the content of one file. Their steps put the same, but
for what they put at the places of that file, and so the trees that they leave resemble each other.
-/

namespace StaticSite

namespace FileSystem

variable {fs other base base' fs' : FileSystem} {puts puts' : List (Location × Entry)} {origin place : Location}
  {entry : Entry} {content : Bytes} {time : Time}

/-! ## Trees that grow alike -/

theorem alike_put_file (file : fs.get? origin = some (.file content time)) (content' : Bytes) (time' : Time) :
    Alike fs (fs.put origin (.file content' time')) origin where
  workingDirectory := rfl
  elsewhere place different := by rw [get?_put_file file, if_neg different]
  file := ⟨content, time, file⟩
  file' := ⟨content', time', by rw [get?_put_file file, if_pos rfl]⟩

/-- A path that led to the file leads to it with its new content. -/
theorem find_put_file_self {p : Path} (finds : fs.find true p = .ok (origin, .file content time)) (content' : Bytes)
    (time' : Time) : (fs.put origin (.file content' time')).find true p = .ok (origin, .file content' time') := by
  rw [find_put_file (get?_of_find finds), finds, Except.map, if_pos rfl]

theorem Alike.tidy (alike : Alike fs other origin) (tidy : fs.Tidy) : other.Tidy where
  orderly above name entry there := by
    obtain ⟨entry', known⟩ := (alike.exists_get?_iff _).mp ⟨entry, there⟩
    exact alike.isDirectory (tidy.orderly above name entry' known)
  plain {place entry} there := by
    obtain ⟨entry', known⟩ := (alike.exists_get?_iff place).mp ⟨entry, there⟩
    exact tidy.plain known

/-- Where nothing was put, only directories are new. -/
theorem Grown.get?_solid_iff (grown : Grown base puts fs) (unwritten : ∀ put ∈ puts, put.1 ≠ place)
    (solid : ∀ made, entry ≠ .directory made) : fs.get? place = some entry ↔ base.get? place = some entry := by
  obtain same | ⟨missing, made⟩ := grown.get?_or unwritten
  · rw [same]
  · rw [missing, made]
    exact iff_of_false (fun same => solid _ (Option.some.inj same).symm) (by simp)

section Grown

variable {own : Location → Prop} (alike : Alike base base' origin) (grown : Grown base puts fs)
  (grown' : Grown base' puts' fs') (same : ∀ put, ¬own put.1 → (put ∈ puts ↔ put ∈ puts'))
  (foreign : ¬own place) (beside : place ≠ origin)

include alike grown grown' same foreign beside

/-- If the same was put in both trees but for some places, then everywhere else they have the same files and
links. -/
theorem Alike.get?_solid_iff (solid : ∀ made, entry ≠ .directory made) :
    fs.get? place = some entry ↔ fs'.get? place = some entry := by
  by_cases there : ∃ put ∈ puts, put.1 = place
  · obtain ⟨put, member, rfl⟩ := there
    rw [grown.there put member, grown'.there put ((same put foreign).mp member)]
  · simp only [not_exists, not_and] at there
    have there' : ∀ put ∈ puts', put.1 ≠ place := by
      rintro put member rfl
      exact there put ((same put foreign).mpr member) rfl
    rw [grown.get?_solid_iff there solid, grown'.get?_solid_iff there' solid, alike.elsewhere place beside]

/-- They have the same directories as well where there is something to make them for. -/
theorem Alike.get?_eq (now : base'.now = base.now)
    (leads : (∃ put ∈ puts, place <+: put.1) ↔ ∃ put ∈ puts', place <+: put.1) :
    fs.get? place = fs'.get? place := by
  by_cases there : ∃ put ∈ puts, put.1 = place
  · obtain ⟨put, member, rfl⟩ := there
    rw [grown.there put member, grown'.there put ((same put foreign).mp member)]
  by_cases above : ∃ put ∈ puts, place <+: put.1
  · -- either tree has a directory above something, though it need not be the same thing
    obtain ⟨put, member, inside⟩ := above
    obtain ⟨put', member', inside'⟩ := leads.mp ⟨put, member, inside⟩
    have strict : place ≠ put.1 := fun equal => there ⟨put, member, equal.symm⟩
    have strict' : place ≠ put'.1 := by
      rintro rfl
      exact there ⟨put', (same put' foreign).mpr member', rfl⟩
    rw [grown.above put member place inside strict, grown'.above put' member' place inside' strict',
      alike.elsewhere place beside, now]
  · have above' := leads.not.mp above
    simp only [not_exists, not_and] at above above'
    rw [grown.elsewhere place above, grown'.elsewhere place above', alike.elsewhere place beside]

end Grown

end FileSystem

namespace Site

open Json (Fields)
open FileSystem (Alike Tidy)
open Template (Filled)

/-! ## Steps that resemble each other -/

/-- Two steps put the same, but for what they put at their own places. If both come in time, they also put it in the
same directories. -/
structure Step.Resembles (own : Location → Prop) (timely : Prop) (step other : Step) : Prop where
  puts_iff : ∀ put, ¬own put.1 → (put ∈ step.effect.puts ↔ put ∈ other.effect.puts)
  leads_iff : timely → ∀ place, ¬own place →
    ((∃ put ∈ step.effect.puts, place <+: put.1) ↔ ∃ put ∈ other.effect.puts, place <+: put.1)

namespace Step

variable {own : Location → Prop} {timely : Prop} {step other : Step} {steps others : List Step}

theorem resembles_of_eq (same : step.effect.puts = other.effect.puts) : Resembles own timely step other :=
  ⟨fun put _ => by rw [same], fun _ place _ => by rw [same]⟩

theorem resembles_of_own (mine : ∀ put ∈ step.effect.puts, own put.1)
    (mine' : ∀ put ∈ other.effect.puts, own put.1)
    (leads : timely → ∀ place, ¬own place →
      ((∃ put ∈ step.effect.puts, place <+: put.1) ↔ ∃ put ∈ other.effect.puts, place <+: put.1)) :
    Resembles own timely step other :=
  ⟨fun put foreign => iff_of_false (fun member => foreign (mine put member)) fun member =>
    foreign (mine' put member), leads⟩

section Lists

variable (resemble : List.Forall₂ (Resembles own timely) steps others)

include resemble

theorem mem_allPuts_iff (put : Location × Entry) (foreign : ¬own put.1) :
    put ∈ allPuts steps ↔ put ∈ allPuts others := by
  simp only [mem_allPuts]
  induction resemble with
  | nil => simp
  | cons first rest ih => simp only [List.mem_cons, exists_eq_or_imp, first.puts_iff put foreign, ih]

theorem leads_allPuts_iff (time : timely) (place : Location) (foreign : ¬own place) :
    (∃ put ∈ allPuts steps, place <+: put.1) ↔ ∃ put ∈ allPuts others, place <+: put.1 := by
  have turned (steps : List Step) : (∃ put ∈ allPuts steps, place <+: put.1) ↔
      ∃ step ∈ steps, ∃ put ∈ step.effect.puts, place <+: put.1 := by
    simp only [mem_allPuts]
    exact ⟨fun ⟨put, ⟨step, member, among⟩, inside⟩ => ⟨step, member, put, among, inside⟩,
      fun ⟨step, member, put, among, inside⟩ => ⟨put, ⟨step, member, among⟩, inside⟩⟩
  rw [turned, turned]
  induction resemble with
  | nil => simp
  | cons first rest ih => simp only [List.mem_cons, exists_eq_or_imp, first.leads_iff time place foreign, ih]

end Lists

end Step

/-! ## What steps put where nothing is yet -/

section Puts

variable {forecast : Forecast} {path origin place : Location} {below : List String} {content : Bytes} {time : Time}
  {file : Path}

/-- A page is written if it can be evaluated and put at its place, and copied if not. -/
theorem Effect.puts_ofPage_eq (output : Option Bytes) (accepts : Bool) (place : Location) (now : Time)
    (loaded : List Path) (instead : Effect) :
    (Effect.ofPage output accepts place now loaded instead).puts =
      ((if accepts then output else none).elim instead.puts fun bytes => [(place, .file bytes now)]) := by
  cases output <;> cases accepts <;> rfl

variable (footing : forecast.files.Footing path forecast.output)
  (absent : forecast.files.get? forecast.output = none)

include footing absent

theorem Forecast.Copies.puts_copy (copies : forecast.Copies path file below content time origin) :
    (forecast.copy file).effect.puts =
      if forecast.accepts && decide (0 < time) then
        [(forecast.output.down (forecast.site.within file), .file content forecast.files.now)] else [] := by
  rw [copies.down, copies.copy_eq]
  dsimp only
  cases accepts : forecast.accepts with
  | false =>
      cases forecast.files.isStale file (forecast.site.placeOf file) with
      | error error => rfl
      | ok stale => cases stale <;> rfl
  | true =>
      have nothing : forecast.files.get? (forecast.output ++ below) = none :=
        footing.orderly.absent_below absent (List.prefix_append _ _)
      rw [copies.isStale_eq footing (copies.decides.mp accepts).1, nothing, Effect.puts_ofCopy, Bool.and_comm]
      rfl

/-- A copy leads to whatever is above its place. -/
theorem Forecast.Copies.leads_iff (copies : forecast.Copies path file below content time origin) (timely : 0 < time) :
    (∃ put ∈ (forecast.copy file).effect.puts, place <+: put.1) ↔
      forecast.accepts = true ∧ place <+: forecast.output.down (forecast.site.within file) := by
  rw [copies.puts_copy footing absent, decide_eq_true timely, Bool.and_true]
  cases forecast.accepts <;> simp

/-- A page ends in the same directory whether it is written or copied. -/
theorem Forecast.Renders.leads_iff {job : Page × Fields} {directories : List String} {name target : String}
    (renders : forecast.Renders path job directories name target content time origin) (timely : 0 < time)
    (other : place ≠ forecast.output.down job.1.outputFile)
    (other' : place ≠ forecast.output.down (forecast.site.within job.1.sourceFile)) :
    (∃ put ∈ (forecast.page job).effect.puts, place <+: put.1) ↔
      forecast.accepts = true ∧ place <+: (forecast.output.down job.1.outputFile).dropLast := by
  have copied : (∃ put ∈ (forecast.copy job.1.sourceFile).effect.puts, place <+: put.1) ↔
      forecast.accepts = true ∧ place <+: forecast.output.down (forecast.site.within job.1.sourceFile) :=
    renders.copies.leads_iff footing absent timely
  have puts : (forecast.page job).effect.puts = _ := Effect.puts_ofPage_eq _ _ _ _ _ _
  have instead : (forecast.copyInstead job.1.sourceFile).effect.puts =
    (forecast.copy job.1.sourceFile).effect.puts := rfl
  rw [renders.copies.down] at copied other'
  rw [renders.down] at other puts ⊢
  rw [← List.append_assoc] at copied other other' puts ⊢
  rw [List.prefix_concat_iff, or_iff_right other'] at copied
  rw [List.dropLast_concat, puts, instead]
  cases accepts : forecast.accepts with
  | false =>
      rw [accepts] at copied
      exact copied
  | true =>
      rw [accepts] at copied
      cases (forecast.site.pageOutput job.1 job.2 forecast.base).1.toOption with
      | none => exact copied
      | some bytes =>
          have told : (∃ put ∈ [(forecast.output ++ directories ++ [target], Entry.file bytes forecast.files.now)],
              place <+: put.1) ↔ place <+: forecast.output ++ directories ++ [target] := by
            simp only [List.mem_singleton, exists_eq_left]
          rw [if_pos rfl, Option.elim_some, told, List.prefix_concat_iff, or_iff_right other, and_iff_right rfl]

theorem Forecast.Relinks.puts_link {link target : Path} (relinks : forecast.Relinks path link below target origin) :
    (forecast.link link).effect.puts =
      if forecast.accepts then [(forecast.output.down (forecast.site.within link), .link target)] else [] := by
  have nothing : forecast.files.get? (forecast.output ++ below) = none :=
    footing.orderly.absent_below absent (List.prefix_append _ _)
  rw [relinks.down, relinks.link_eq footing, nothing]
  cases forecast.accepts <;> rfl

end Puts

/-! ## Two trees -/

/-- A build is told of another workspace. -/
def Forecast.retell (forecast : Forecast) (other : Workspace) (accepts : Bool)
    (loaded : Page × Fields → List Path) : Forecast :=
  { forecast with files := other.fs, base := other, accepts, loaded }

/-- Where a source may end up below the output directory. -/
def Forecast.Own (forecast : Forecast) (scan : Scan) (file : Path) (place : Location) : Prop :=
  place = forecast.output.down (forecast.site.within file) ∨
    ∃ job ∈ forecast.site.jobsOf forecast.files scan,
      job.1.sourceFile = file ∧ place = forecast.output.down job.1.outputFile

/-- Two builds of trees that differ in nothing but the content of one source, whose header stays as it was. Nothing
else is made from that source. -/
structure Compared (forecast : Forecast) (other : Workspace) (accepts : Bool) (loaded : Page × Fields → List Path)
    (path origin : Location) (scan : Scan) (file : Path) (time time' : Time) : Prop where
  sound : forecast.Sound path scan
  sound' : (forecast.retell other accepts loaded).Sound path scan
  start : forecast.files = forecast.base.fs
  alike : Alike forecast.files other.fs origin
  now : other.fs.now = forecast.files.now
  cached : other.cache = forecast.base.cache
  absent : forecast.files.get? forecast.output = none
  read : forecast.site.readPages other.fs scan.pages = forecast.site.readPages forecast.files scan.pages
  finds : ∃ content, forecast.files.find true file = .ok (origin, .file content time)
  finds' : ∃ content, other.fs.find true file = .ok (origin, .file content time')
  alone : ∀ source ∈ scan.pages.map (·.1) ++ scan.files, source ≠ file →
    ∀ entry, forecast.files.find true source ≠ .ok (origin, entry)
  asked : ∀ job ∈ forecast.site.jobsOf forecast.files scan, ∀ asked,
    forecast.site.Asks forecast.base job.1 job.2 asked →
      ∀ entry, forecast.files.find true (asked.absolute forecast.files.here) ≠ .ok (origin, entry)

namespace Compared

variable {forecast : Forecast} {other : Workspace} {accepts : Bool} {loaded : Page × Fields → List Path}
  {path origin place place' : Location} {scan : Scan} {file source : Path} {time time' sourceTime sourceTime' : Time}
  {below below' : List String} {content content' : Bytes}
  (compared : Compared forecast other accepts loaded path origin scan file time time')

include compared

theorem absent' : (forecast.retell other accepts loaded).files.get? (forecast.retell other accepts loaded).output =
    none :=
  compared.alike.absent compared.absent

theorem unread_eq : forecast.site.unread other.fs scan = forecast.site.unread forecast.files scan := by
  rw [Site.unread, Site.unread, compared.read]

theorem jobsOf_eq : forecast.site.jobsOf other.fs scan = forecast.site.jobsOf forecast.files scan := by
  rw [jobsOf, jobsOf, compared.read]

theorem find_eq (member : source ∈ scan.pages.map (·.1) ++ scan.files) (different : source ≠ file) :
    other.fs.find true source = forecast.files.find true source :=
  compared.alike.find_eq fun _ entry finds same => compared.alone source member different entry (same ▸ finds)

theorem accepts_eq (decides : forecast.accepts ↔ forecast.files.Accepts path (forecast.output ++ below))
    (decides' : accepts ↔ other.fs.Accepts path (forecast.output ++ below)) : accepts = forecast.accepts := by
  rw [Bool.eq_iff_iff, decides, decides']
  exact compared.alike.accepts_iff compared.sound.footing.orderly compared.sound'.footing.orderly

section Copies

variable (copies : forecast.Copies path source below content sourceTime place)
  (copies' : (forecast.retell other accepts loaded).Copies path source below' content' sourceTime' place')

include copies copies'

theorem accepts_of_copies : accepts = forecast.accepts := by
  have same : forecast.output ++ below' = forecast.output ++ below := copies'.down.symm.trans copies.down
  have decides' := copies'.decides
  rw [List.append_cancel_left same] at decides'
  exact compared.accepts_eq copies.decides decides'

/-- Another source is copied as it would be. -/
theorem puts_copy (member : source ∈ scan.pages.map (·.1) ++ scan.files) (different : source ≠ file) :
    (forecast.copy source).effect.puts = ((forecast.retell other accepts loaded).copy source).effect.puts := by
  have same := compared.find_eq member different
  have finds : forecast.files.find true source = _ := copies.copying.finds
  have finds' : other.fs.find true source = _ := copies'.copying.finds
  rw [same, finds] at finds'
  cases finds'
  rw [copies.puts_copy compared.sound.footing compared.absent,
    copies'.puts_copy compared.sound'.footing compared.absent']
  simp only [Forecast.retell, compared.accepts_of_copies copies copies', compared.now]

/-- The source itself is copied to its own place. -/
theorem resembles_own (same : source = file) : Step.Resembles (forecast.Own scan file) (0 < time ∧ 0 < time')
    (forecast.copy source) ((forecast.retell other accepts loaded).copy source) := by
  subst same
  refine Step.resembles_of_own (fun put member => .inl ?_) (fun put member => .inl ?_) fun timely place _ => ?_
  · rw [Effect.mem_ofCopy member]
  · rw [Effect.mem_ofCopy member]
    rfl
  · obtain ⟨content, finds⟩ := compared.finds
    obtain ⟨content', finds'⟩ := compared.finds'
    have found : forecast.files.find true source = _ := copies.copying.finds
    have found' : other.fs.find true source = _ := copies'.copying.finds
    rw [finds] at found
    rw [finds'] at found'
    cases found
    cases found'
    rw [copies.leads_iff compared.sound.footing compared.absent timely.1,
      copies'.leads_iff compared.sound'.footing compared.absent' timely.2]
    simp only [Forecast.retell, compared.accepts_of_copies copies copies']

end Copies

theorem resembles_copy (member : source ∈ scan.files ++ forecast.site.unread forecast.files scan) :
    Step.Resembles (forecast.Own scan file) (0 < time ∧ 0 < time') (forecast.copy source)
      ((forecast.retell other accepts loaded).copy source) := by
  obtain ⟨below, content, sourceTime, place, copies⟩ := compared.sound.copies source member
  have member' : source ∈ scan.files ++ forecast.site.unread other.fs scan := by rwa [compared.unread_eq]
  obtain ⟨below', content', sourceTime', place', copies'⟩ := compared.sound'.copies source member'
  by_cases same : source = file
  · exact compared.resembles_own copies copies' same
  · refine Step.resembles_of_eq (compared.puts_copy copies copies' ?_ same)
    obtain copied | fallen := List.mem_append.mp member
    · exact List.mem_append_right _ copied
    · exact List.mem_append_left _ (source_of_mem_unread fallen)

/-- What another page is built from is where it was. -/
theorem staysFor {job : Page × Fields} (member : job ∈ forecast.site.jobsOf forecast.files scan)
    (different : job.1.sourceFile ≠ file) : forecast.site.StaysFor forecast.base job.1 job.2 other.fs where
  source := by
    rw [FileSystem.read, FileSystem.read, ← compared.start,
      compared.find_eq (List.mem_append_left _ (source_of_mem_jobs member)) different]
  asked asked asks := by
    rw [Template.Stays, ← compared.start]
    exact compared.alike.find_eq fun _ entry finds same => compared.asked job member asked asks entry (same ▸ finds)

theorem resembles_page {job : Page × Fields} (member : job ∈ forecast.site.jobsOf forecast.files scan) :
    Step.Resembles (forecast.Own scan file) (0 < time ∧ 0 < time') (forecast.page job)
      ((forecast.retell other accepts loaded).page job) := by
  obtain ⟨directories, name, target, content, sourceTime, place, renders⟩ := compared.sound.renders job member
  have member' : job ∈ forecast.site.jobsOf other.fs scan := by rwa [compared.jobsOf_eq]
  obtain ⟨directories', name', target', content', sourceTime', place', renders'⟩ :=
    compared.sound'.renders job member'
  have accepted := compared.accepts_of_copies renders.copies renders'.copies
  by_cases same : job.1.sourceFile = file
  · -- whatever is put is put at one of the two places of the page
    have output (place : Location) (foreign : ¬forecast.Own scan file place) :
        place ≠ forecast.output.down job.1.outputFile ∧
          place ≠ forecast.output.down (forecast.site.within job.1.sourceFile) :=
      ⟨fun equal => foreign (.inr ⟨job, member, same, equal⟩), fun equal => foreign (.inl (same ▸ equal))⟩
    refine Step.resembles_of_own (fun put putting => ?_) (fun put putting => ?_) fun timely place foreign => ?_
    · by_contra foreign
      obtain ⟨written, -⟩ | copied := Effect.mem_ofPage putting
      · exact (output put.1 foreign).1 written
      · exact (output put.1 foreign).2 (congrArg Prod.fst (Effect.mem_ofCopy copied))
    · by_contra foreign
      obtain ⟨written, -⟩ | copied := Effect.mem_ofPage putting
      · exact (output put.1 foreign).1 written
      · exact (output put.1 foreign).2 (congrArg Prod.fst (Effect.mem_ofCopy copied))
    · obtain ⟨other, other'⟩ := output place foreign
      obtain ⟨content, finds⟩ := compared.finds
      obtain ⟨content', finds'⟩ := compared.finds'
      have found := renders.copies.copying.finds
      have found' := renders'.copies.copying.finds
      rw [same] at found found'
      cases finds.symm.trans found
      cases finds'.symm.trans found'
      rw [renders.leads_iff compared.sound.footing compared.absent timely.1 other other',
        renders'.leads_iff compared.sound'.footing compared.absent' timely.2 other other']
      simp only [Forecast.retell, accepted]
  · refine Step.resembles_of_eq ?_
    have copied := compared.puts_copy renders.copies renders'.copies
      (List.mem_append_left _ (source_of_mem_jobs member)) same
    obtain ⟨evaluated, -⟩ := @renders.again other [] (compared.staysFor member same) (compared.cached ▸ .nil)
    have puts : (forecast.page job).effect.puts = _ := Effect.puts_ofPage_eq _ _ _ _ _ _
    have puts' : ((forecast.retell other accepts loaded).page job).effect.puts = _ :=
      Effect.puts_ofPage_eq _ _ _ _ _ _
    have instead : (forecast.copyInstead job.1.sourceFile).effect.puts =
      ((forecast.retell other accepts loaded).copyInstead job.1.sourceFile).effect.puts := copied
    rw [puts, puts', instead]
    simp only [Forecast.retell, accepted, evaluated, compared.now]

theorem resembles_link {link : Path} (member : link ∈ scan.links) :
    Step.Resembles (forecast.Own scan file) (0 < time ∧ 0 < time') (forecast.link link)
      ((forecast.retell other accepts loaded).link link) := by
  obtain ⟨below, target, place, relinks⟩ := compared.sound.relinks link member
  obtain ⟨below', target', place', relinks'⟩ := compared.sound'.relinks link member
  refine Step.resembles_of_eq ?_
  have missing : forecast.files.get? (forecast.output ++ below) = none :=
    compared.sound.footing.orderly.absent_below compared.absent (List.prefix_append _ _)
  have same : forecast.output ++ below' = forecast.output ++ below := relinks'.down.symm.trans relinks.down
  obtain rfl := List.append_cancel_left same
  have accepted := compared.accepts_eq (relinks.decides missing) (relinks'.decides (compared.alike.absent missing))
  have place_eq : place' = place := Location.path_injective relinks'.linking.some_origin relinks.linking.some_origin
    relinks'.linking.plain_origin relinks.linking.plain_origin
    (relinks'.linking.path_eq.symm.trans relinks.linking.path_eq)
  have stands := compared.alike.keeps.link relinks.linking.stands
  have stands' : other.fs.get? place' = some (.link target') := relinks'.linking.stands
  rw [place_eq, stands] at stands'
  cases stands'
  rw [relinks.puts_link compared.sound.footing compared.absent,
    relinks'.puts_link compared.sound'.footing compared.absent']
  simp only [Forecast.retell, accepted]

theorem resembles : List.Forall₂ (Step.Resembles (forecast.Own scan file) (0 < time ∧ 0 < time'))
    (forecast.steps scan) ((forecast.retell other accepts loaded).steps scan) := by
  have steps : (forecast.retell other accepts loaded).steps scan =
      scan.files.map (forecast.retell other accepts loaded).copy ++
        (forecast.site.unread forecast.files scan).map (forecast.retell other accepts loaded).copyInstead ++
        (forecast.site.jobsOf forecast.files scan).map (forecast.retell other accepts loaded).page ++
        scan.links.map (forecast.retell other accepts loaded).link := by
    rw [← compared.unread_eq, ← compared.jobsOf_eq]
    rfl
  have each {α : Type} {items : List α} {told told' : α → Step}
      (resemble : ∀ item ∈ items,
        Step.Resembles (forecast.Own scan file) (0 < time ∧ 0 < time') (told item) (told' item)) :
      List.Forall₂ (Step.Resembles (forecast.Own scan file) (0 < time ∧ 0 < time')) (items.map told)
        (items.map told') := by
    rw [List.forall₂_map_left_iff, List.forall₂_map_right_iff, List.forall₂_same]
    exact resemble
  rw [steps, Forecast.steps]
  refine List.rel_append (List.rel_append (List.rel_append (each fun source member => ?_)
    (each fun source member => ?_)) (each fun job member => compared.resembles_page member))
    (each fun link member => compared.resembles_link member)
  · exact compared.resembles_copy (List.mem_append_left _ member)
  · -- a copy that stands for a page puts the same
    obtain ⟨puts, leads⟩ := compared.resembles_copy (List.mem_append_right _ member)
    exact ⟨puts, leads⟩

/-- What the builds leave differs at the places of the source only, and in directories above them if the source is as
old as the epoch. -/
theorem get?_after {first second : Workspace} {keys keys' : List Path}
    (after : After forecast.files forecast.base path forecast.output keys (forecast.steps scan) first)
    (after' : After other.fs other path forecast.output keys'
      ((forecast.retell other accepts loaded).steps scan) second)
    (foreign : ¬forecast.Own scan file place) (beside : place ≠ origin) :
    (∀ entry, (∀ made, entry ≠ .directory made) →
      (first.fs.get? place = some entry ↔ second.fs.get? place = some entry)) ∧
      (0 < time → 0 < time' → first.fs.get? place = second.fs.get? place) := by
  have grown := after.moment.built.toGrown
  have grown' := after'.moment.built.toGrown
  have same := Step.mem_allPuts_iff compared.resembles
  exact ⟨fun entry solid => compared.alike.get?_solid_iff grown grown' same foreign beside solid,
    fun timely timely' => compared.alike.get?_eq grown grown' same foreign beside compared.now
      (Step.leads_allPuts_iff compared.resembles ⟨timely, timely'⟩ place foreign)⟩

end Compared

end Site

end StaticSite
