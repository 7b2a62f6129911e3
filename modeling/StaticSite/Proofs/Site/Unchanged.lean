import Mathlib.Data.List.Forall2
import Mathlib.Data.List.Pairwise
import StaticSite.Proofs.Site.Forecast
import StaticSite.Proofs.Site.Rescanning

/-!
Building an unchanged site again. What the first build puts below an output directory that was not there is what
the second build puts there, if it puts anything; nothing is copied a second time.
-/

namespace StaticSite

open Location (Plain Apart)

/-- An entry without the time at which it was made. -/
def Entry.undated : Entry → Entry
  | .directory _ => .directory 0
  | .file content _ => .file content 0
  | .link target => .link target

/-- What becomes of something that is dealt with a second time. -/
def Outcome.again : Outcome → Outcome
  | .copied => .unchanged
  | outcome => outcome

namespace Site

open Json (Fields)
open FileSystem (Grown Spares Tidy)
open Path (ofNames)
open Template (Filled)

variable {forecast : Forecast} {path origin place : Location} {scan : Scan} {built : Workspace} {later time : Time}
  {below : List String} {content : Bytes}

/-! ## The second time -/

/-- What a step does the second time, as compared to the first time: it loads the same, and it puts nothing that
it did not put before. -/
structure Effect.Again (first second : Effect) : Prop where
  outcome : second.outcome = first.outcome.again
  loaded : second.loaded = first.loaded
  puts : ∀ put ∈ second.puts, ∃ earlier ∈ first.puts,
    earlier.1 = put.1 ∧ earlier.2.undated = put.2.undated

/-- What is put already is not put again. -/
theorem Effect.again_of_nil {first second : Effect} (outcome : second.outcome = first.outcome.again)
    (loaded : second.loaded = first.loaded) (nothing : second.puts = []) : first.Again second :=
  ⟨outcome, loaded, by simp [nothing]⟩

theorem Effect.Again.instead {first second : Effect} (again : first.Again second) :
    first.instead.Again second.instead := by
  refine ⟨?_, again.loaded, again.puts⟩
  have outcome := again.outcome
  simp only [Effect.instead, outcome]
  cases first.outcome <;> rfl

/-- A copy is not stale the second time, if the first one was made after its source was changed. -/
theorem Effect.again_ofCopy {accepts : Bool} {first second : Location × Entry} {standing : Option Time} {now : Time}
    (earlier : time ≤ now) (made : (0 < time ∧ accepts) → standing = some now)
    (missing : ¬(0 < time ∧ accepts) → standing = none) :
    (Effect.ofCopy (.ok (decide (0 < time))) accepts first).Again
      (.ofCopy (.ok (decide (standing.getD 0 < time))) accepts second) := by
  by_cases stale : 0 < time
  · cases accepts with
    | true =>
        rw [made ⟨stale, rfl⟩, Option.getD_some, decide_eq_true stale, decide_eq_false (not_lt.mpr earlier)]
        exact again_of_nil rfl rfl rfl
    | false =>
        rw [missing (by simp), Option.getD_none, decide_eq_true stale]
        exact again_of_nil rfl rfl rfl
  · rw [missing (fun both => stale both.1), Option.getD_none, decide_eq_false stale]
    exact again_of_nil rfl rfl rfl

theorem Effect.again_ofPage {output : Option Bytes} {accepts : Bool} {now : Time} {loaded : List Path}
    {first second : Effect} (again : (∀ bytes, output = some bytes → accepts = false) → first.Again second) :
    (Effect.ofPage output accepts place now loaded first).Again
      (.ofPage output accepts place later loaded second) := by
  cases output with
  | none =>
      obtain ⟨outcome, -, puts⟩ := again (by simp)
      exact ⟨outcome, rfl, puts⟩
  | some bytes =>
      cases accepts with
      | true => exact ⟨rfl, rfl, by simp [Effect.ofPage, Entry.undated]⟩
      | false =>
          obtain ⟨outcome, -, puts⟩ := again (by simp)
          exact ⟨outcome, rfl, puts⟩

theorem Effect.again_ofLink {accepts : Bool} {put : Location × Entry} {standing : Option Entry}
    (made : accepts = true → standing = some put.2) (missing : accepts = false → standing = none) :
    (Effect.ofLink none accepts put).Again (.ofLink standing accepts put) := by
  cases accepts with
  | true =>
      rw [made rfl]
      exact again_of_nil (by simp [Effect.ofLink, Outcome.again]) (by simp [Effect.ofLink])
        (by simp [Effect.ofLink])
  | false =>
      rw [missing rfl]
      exact again_of_nil rfl rfl rfl

/-! ## After the first build -/

/-- A build is told again, of other files. -/
def Forecast.again (forecast : Forecast) (files : FileSystem) : Forecast := { forecast with files }

/-- A build into an output directory that was not there and whose path goes through no link. -/
structure First (forecast : Forecast) (scan : Scan) (built : Workspace) : Prop where
  sound : forecast.Sound forecast.output scan
  absent : forecast.files.get? forecast.output = none
  linkless : forecast.files.Linkless forecast.output
  targets : (forecast.site.entryTargets forecast.files scan).Pairwise fun targets others =>
    ∀ target ∈ targets, ∀ elsewhere ∈ others, target.Apart elsewhere
  after : After forecast.files forecast.base forecast.output forecast.output [] (forecast.steps scan) built
  /-- No source is from the future. -/
  dated : ∀ file ∈ scan.pages.map (·.1) ++ scan.files, ∀ time, forecast.files.modified file = .ok time →
    time ≤ forecast.files.now

namespace First

variable (first : First forecast scan built)

include first

theorem grown : Grown forecast.files (Step.allPuts (forecast.steps scan)) built.fs :=
  first.after.moment.built.toGrown

theorem apart : (forecast.steps scan).Pairwise Step.Apart := first.sound.apart first.targets

theorem unshut : ¬forecast.files.Shut forecast.output := first.linkless.unshut

theorem missing_below (below : List String) : forecast.files.get? (forecast.output ++ below) = none :=
  first.sound.footing.orderly.absent_below first.absent (List.prefix_append _ _)

theorem linkless_later : (built.fs.later later).Linkless forecast.output := by
  intro above inside target link
  have other : ∀ put ∈ Step.allPuts (forecast.steps scan), put.1 ≠ above := by
    rintro put putting rfl
    obtain ⟨step, member, among⟩ := Step.mem_allPuts.mp putting
    obtain ⟨below, some_name, -, place⟩ :=
      first.sound.exists_below member (first.after.inside step member put among)
    rw [place] at inside
    have bound := inside.length_le
    rw [List.length_append] at bound
    exact some_name (List.length_eq_zero_iff.mp (by omega))
  obtain same | ⟨-, made⟩ := first.grown.get?_or other
  · exact first.linkless above inside target (same ▸ link)
  · rw [FileSystem.get?_later, made] at link
    cases link

theorem footing : (built.fs.later later).Footing forecast.output forecast.output where
  orderly := first.grown.orderly
  plain := first.sound.footing.plain
  exists_route _ := ⟨[], _, [], rfl, rfl, first.grown.orderly, by simp [Plain],
    FileSystem.walk_root true _, FileSystem.isDirectory_root _⟩

/-- What was put was put by the step itself, or elsewhere. -/
theorem own {step : Step} (member : step ∈ forecast.steps scan) {put : Location × Entry}
    (putting : put ∈ Step.allPuts (forecast.steps scan)) :
    put ∈ step.effect.puts ∨ ∀ place ∈ step.places, Apart place put.1 := by
  obtain ⟨other, member', among⟩ := Step.mem_allPuts.mp putting
  by_cases same : step = other
  · exact .inl (same ▸ among)
  · have away := first.apart.forall member member' same
    exact .inr fun place there => away place there put.1 (first.after.inside other member' put among)

theorem spares {step : Step} (member : step ∈ forecast.steps scan) (among : place ∈ step.places)
    (own : ∀ put ∈ step.effect.puts,
      (put.1 = place ∧ ∃ content time, put.2 = .file content time) ∨ Apart place put.1) :
    Spares (Step.allPuts (forecast.steps scan)) place := by
  intro put putting
  obtain mine | apart := first.own member putting
  · exact own put mine
  · exact .inr (apart place among)

theorem get?_put {step : Step} (member : step ∈ forecast.steps scan) {put : Location × Entry}
    (putting : put ∈ step.effect.puts) : built.fs.get? put.1 = some put.2 :=
  first.grown.there put (Step.mem_allPuts.mpr ⟨step, member, putting⟩)

theorem get?_idle {step : Step} (member : step ∈ forecast.steps scan) (idle : step.effect.puts = [])
    (among : place ∈ step.places) : built.fs.get? place = forecast.files.get? place := by
  refine first.grown.get?_apart fun put putting => ?_
  obtain mine | apart := first.own member putting
  · rw [idle] at mine
    cases mine
  · exact apart place among

theorem accepts_iff (spares : Spares (Step.allPuts (forecast.steps scan)) (forecast.output ++ below)) :
    (built.fs.later later).Accepts forecast.output (forecast.output ++ below) ↔
      forecast.files.Accepts forecast.output (forecast.output ++ below) :=
  and_congr (iff_of_true first.linkless_later.unshut first.unshut)
    (FileSystem.writable_later.trans (first.grown.writable_iff spares))

theorem find_eq {p : Path} (off : forecast.files.KeepsOff forecast.output p) :
    (built.fs.later later).find true p = forecast.files.find true p := by
  rw [FileSystem.find_later, first.grown.find_eq first.after.moment.built.under off]

/-- A file can be copied again. -/
theorem copies {file : Path} (copies : forecast.Copies forecast.output file below content time origin)
    (spares : Spares (Step.allPuts (forecast.steps scan)) (forecast.output ++ below)) :
    (forecast.again (built.fs.later later)).Copies forecast.output file below content time origin where
  copying := {
    copies.copying with
    clear := fun _ above inside target link =>
      first.grown.linkless spares (copies.copying.clear first.unshut) above inside target link
    finds := (first.find_eq copies.copying.keepsOff).trans copies.copying.finds }
  within := copies.within
  decides := copies.decides.trans (first.accepts_iff spares).symm

/-- A page can be built again. -/
theorem renders {job : Page × Fields} {directories : List String} {name target : String}
    (renders : forecast.Renders forecast.output job directories name target content time origin)
    (spares : Spares (Step.allPuts (forecast.steps scan)) (forecast.output ++ (directories ++ [target])))
    (spares' : Spares (Step.allPuts (forecast.steps scan)) (forecast.output ++ (directories ++ [name]))) :
    (forecast.again (built.fs.later later)).Renders forecast.output job directories name target content time
      origin where
  rendering := {
    renders.rendering with
    copying := (first.copies renders.copies spares').copying
    clear := fun _ above inside target link =>
      first.grown.linkless spares (renders.rendering.clear first.unshut) above inside target link
    stays := (renders.rendering.staysFor first.after.moment.built).later later
    asked := fun asked asks =>
      (first.grown.keepsOff first.after.moment.built.under (renders.rendering.asked asked asks)).later later }
  outputFile := renders.outputFile
  within := renders.within
  decides := renders.decides.trans (first.accepts_iff spares).symm
  decides' := renders.decides'.trans (first.accepts_iff spares').symm
  again := renders.again

/-- A link can be recreated again, which leaves it alone if it was made. -/
theorem relinks {link target : Path} (relinks : forecast.Relinks forecast.output link below target origin)
    (member : forecast.link link ∈ forecast.steps scan) :
    (forecast.again (built.fs.later later)).Relinks forecast.output link below target origin ∧
      (forecast.link link).effect.Again ((forecast.again (built.fs.later later)).link link).effect := by
  have absent := first.missing_below below
  have decides := relinks.decides absent
  have step := relinks.link_eq first.sound.footing
  have among : forecast.output ++ below ∈ (forecast.link link).places := by simp [step]
  have clear : forecast.files.Clear forecast.output (forecast.output ++ below) := by
    obtain ⟨-, clear⟩ | ⟨there, -⟩ := relinks.linking.free
    · exact clear
    · rw [absent] at there
      cases there
  have stands : built.fs.get? origin = some (.link target) := by
    refine first.grown.get?_known (fun put putting same => ?_) relinks.linking.stands
    exact relinks.linking.outside (same ▸ first.after.moment.built.under put putting)
  rw [absent] at step
  -- either nothing is put anywhere, or the link was put at its place
  have settled : forecast.accepts = true ∧ built.fs.get? (forecast.output ++ below) = some (.link target) ∨
      forecast.accepts = false ∧ built.fs.get? (forecast.output ++ below) = none ∧
        Spares (Step.allPuts (forecast.steps scan)) (forecast.output ++ below) := by
    cases accepts : forecast.accepts with
    | true =>
        have putting : (forecast.output ++ below, .link target) ∈ (forecast.link link).effect.puts := by
          simp [step, Effect.ofLink, accepts]
        exact .inl ⟨rfl, first.get?_put member putting⟩
    | false =>
        have idle : (forecast.link link).effect.puts = [] := by simp [step, Effect.ofLink, accepts]
        exact .inr ⟨rfl, (first.get?_idle member idle among).trans absent,
          first.spares member among (by simp [idle])⟩
  have again : (forecast.again (built.fs.later later)).Relinks forecast.output link below target origin := by
    refine ⟨{ relinks.linking with stands := stands, free := ?_ }, relinks.within, fun missing => ?_⟩
    · obtain ⟨-, there⟩ | ⟨-, missing, spares⟩ := settled
      · exact .inr ⟨there, first.linkless_later.unshut⟩
      · exact .inl ⟨missing, fun _ above inside target link =>
          first.grown.linkless spares (clear first.unshut) above inside target link⟩
    · obtain ⟨-, there⟩ | ⟨-, -, spares⟩ := settled
      · exact absurd (there.symm.trans missing) (by simp)
      · exact decides.trans (first.accepts_iff spares).symm
  refine ⟨again, ?_⟩
  rw [step, again.link_eq first.footing]
  refine Effect.again_ofLink (fun accepts => ?_) fun refused => ?_
  · obtain ⟨-, there⟩ | ⟨refused, -⟩ := settled
    · exact there
    · rw [accepts] at refused
      cases refused
  · obtain ⟨accepts, -⟩ | ⟨-, missing, -⟩ := settled
    · rw [refused] at accepts
      cases accepts
    · exact missing

theorem spares_copy {file : Path} {step : Step} (member : step ∈ forecast.steps scan)
    (copies : forecast.Copies forecast.output file below content time origin)
    (among : forecast.output ++ below ∈ step.places) (same : step.effect.puts = (forecast.copy file).effect.puts) :
    Spares (Step.allPuts (forecast.steps scan)) (forecast.output ++ below) := by
  refine first.spares member among fun put putting => .inl ?_
  rw [same, copies.copy_eq] at putting
  rw [Effect.mem_ofCopy putting]
  exact ⟨rfl, content, _, rfl⟩

/-- What is done with a file the second time. -/
theorem again_copy {file : Path} {step : Step} (member : step ∈ forecast.steps scan)
    (copies : forecast.Copies forecast.output file below content time origin)
    (among : forecast.output ++ below ∈ step.places) (same : step.effect.puts = (forecast.copy file).effect.puts)
    (spares : Spares (Step.allPuts (forecast.steps scan)) (forecast.output ++ below))
    (earlier : time ≤ forecast.files.now) :
    (forecast.copy file).effect.Again ((forecast.again (built.fs.later later)).copy file).effect := by
  have copies' : (forecast.again (built.fs.later later)).Copies forecast.output file below content time origin :=
    first.copies copies spares
  have stale := copies.isStale_eq first.sound.footing first.unshut
  have stale' := copies'.isStale_eq first.footing first.linkless_later.unshut
  rw [first.missing_below] at stale
  rw [copies.copy_eq, stale] at same ⊢
  rw [copies'.copy_eq, stale']
  have puts : step.effect.puts = if decide (0 < time) && forecast.accepts then
      [(forecast.output ++ below, .file content forecast.files.now)] else [] := by
    rw [same]
    exact Effect.puts_ofCopy _ _ _
  refine Effect.again_ofCopy earlier (fun both => ?_) fun neither => ?_
  · have putting : (forecast.output ++ below, .file content forecast.files.now) ∈ step.effect.puts := by
      rw [puts, if_pos (by simpa using both)]
      exact List.mem_singleton_self _
    have made := first.get?_put member putting
    have there : (forecast.again (built.fs.later later)).files.get? (forecast.output ++ below) =
        some (.file content forecast.files.now) := made
    exact congrArg (fun found => Option.bind found Entry.time?) there
  · have idle : step.effect.puts = [] := by rw [puts, if_neg (by simpa using neither)]
    have missing := (first.get?_idle member idle among).trans (first.missing_below below)
    have there : (forecast.again (built.fs.later later)).files.get? (forecast.output ++ below) = none := missing
    exact congrArg (fun found => Option.bind found Entry.time?) there

theorem again_file {file : Path} (member : file ∈ scan.files) :
    (∃ below content time origin,
      (forecast.again (built.fs.later later)).Copies forecast.output file below content time origin) ∧
      (forecast.copy file).effect.Again ((forecast.again (built.fs.later later)).copy file).effect := by
  obtain ⟨below, content, time, origin, copies⟩ := first.sound.copies file (List.mem_append_left _ member)
  have listed : forecast.copy file ∈ forecast.steps scan :=
    List.mem_append_left _ (List.mem_append_left _ (List.mem_append_left _ (List.mem_map_of_mem member)))
  have among : forecast.output ++ below ∈ (forecast.copy file).places := by simp [copies.copy_eq]
  have spares := first.spares_copy listed copies among rfl
  exact ⟨⟨below, content, time, origin, first.copies copies spares⟩, first.again_copy listed copies among rfl spares
    (first.dated file (List.mem_append_right _ member) time (FileSystem.modified_of_find copies.copying.finds))⟩

theorem again_unread {file : Path} (member : file ∈ forecast.site.unread forecast.files scan) :
    (∃ below content time origin,
      (forecast.again (built.fs.later later)).Copies forecast.output file below content time origin) ∧
      (forecast.copyInstead file).effect.Again
        ((forecast.again (built.fs.later later)).copyInstead file).effect := by
  obtain ⟨below, content, time, origin, copies⟩ := first.sound.copies file (List.mem_append_right _ member)
  have listed : forecast.copyInstead file ∈ forecast.steps scan :=
    List.mem_append_left _ (List.mem_append_left _ (List.mem_append_right _ (List.mem_map_of_mem member)))
  have among : forecast.output ++ below ∈ (forecast.copyInstead file).places := by
    simp [Forecast.copyInstead, copies.copy_eq]
  have spares := first.spares_copy listed copies among rfl
  have again : (forecast.copy file).effect.Again ((forecast.again (built.fs.later later)).copy file).effect :=
    first.again_copy listed copies among rfl spares (first.dated file
      (List.mem_append_left _ (source_of_mem_unread member)) time
      (FileSystem.modified_of_find copies.copying.finds))
  exact ⟨⟨below, content, time, origin, first.copies copies spares⟩, again.instead⟩

theorem again_page {job : Page × Fields} (member : job ∈ forecast.site.jobsOf forecast.files scan) :
    (∃ directories name target content time origin, (forecast.again (built.fs.later later)).Renders
      forecast.output job directories name target content time origin) ∧
      (forecast.page job).effect.Again ((forecast.again (built.fs.later later)).page job).effect := by
  obtain ⟨directories, name, target, content, time, origin, renders⟩ := first.sound.renders job member
  have listed : forecast.page job ∈ forecast.steps scan :=
    List.mem_append_left _ (List.mem_append_right _ (List.mem_map_of_mem member))
  have copies := renders.copies
  have places : (forecast.page job).places =
      [forecast.output ++ (directories ++ [target]), forecast.output ++ (directories ++ [name])] := by
    rw [Forecast.page, renders.down, copies.down]
  -- whatever is put is put at one of two places in one directory
  have putting (put : Location × Entry) (among : put ∈ (forecast.page job).effect.puts) :
      (put.1 = forecast.output ++ (directories ++ [target]) ∨ put.1 = forecast.output ++ (directories ++ [name])) ∧
        ∃ content time, put.2 = .file content time := by
    obtain ⟨there, file⟩ | copied := Effect.mem_ofPage among
    · exact ⟨.inl (there.trans renders.down), file⟩
    · rw [Forecast.copyInstead, copies.copy_eq] at copied
      rw [Effect.mem_ofCopy copied]
      exact ⟨.inr rfl, content, _, rfl⟩
  have spares (last : String) (among : forecast.output ++ (directories ++ [last]) ∈ (forecast.page job).places) :
      Spares (Step.allPuts (forecast.steps scan)) (forecast.output ++ (directories ++ [last])) := by
    refine first.spares listed among fun put mine => ?_
    obtain ⟨there, file⟩ := putting put mine
    obtain ⟨other, there⟩ : ∃ other, put.1 = forecast.output ++ (directories ++ [other]) :=
      there.elim (fun same => ⟨_, same⟩) fun same => ⟨_, same⟩
    by_cases same : other = last
    · exact .inl ⟨same ▸ there, file⟩
    · rw [there, ← List.append_assoc, ← List.append_assoc]
      exact .inr (Location.apart_of_ne _ (Ne.symm same))
  have spares_target := spares target (by simp [places])
  have spares_name := spares name (by simp [places])
  refine ⟨⟨directories, name, target, content, time, origin, first.renders renders spares_target spares_name⟩, ?_⟩
  refine Effect.again_ofPage fun unwritten => ?_
  have same : (forecast.page job).effect.puts = (forecast.copy job.1.sourceFile).effect.puts :=
    Effect.puts_ofPage _ _ _ unwritten
  have again : (forecast.copy job.1.sourceFile).effect.Again
      ((forecast.again (built.fs.later later)).copy job.1.sourceFile).effect :=
    first.again_copy listed copies (by simp [places]) same spares_name (first.dated _
      (List.mem_append_left _ (source_of_mem_jobs member)) time
      (FileSystem.modified_of_find copies.copying.finds))
  exact again.instead

theorem again_link {link : Path} (member : link ∈ scan.links) :
    (∃ below target origin,
      (forecast.again (built.fs.later later)).Relinks forecast.output link below target origin) ∧
      (forecast.link link).effect.Again ((forecast.again (built.fs.later later)).link link).effect := by
  obtain ⟨below, target, origin, relinks⟩ := first.sound.relinks link member
  obtain ⟨relinks, again⟩ := first.relinks relinks (List.mem_append_right _ (List.mem_map_of_mem member))
  exact ⟨⟨below, target, origin, relinks⟩, again⟩

section Read

variable (read : forecast.site.readPages (built.fs.later later) scan.pages =
  forecast.site.readPages forecast.files scan.pages)

include read

/-- The second build can be told as the first one. -/
theorem sound_again : (forecast.again (built.fs.later later)).Sound forecast.output scan where
  footing := first.footing
  copies file member := by
    obtain copied | fallen := List.mem_append.mp member
    · exact (first.again_file copied).1
    · have fallen : file ∈ (forecast.site.readPages (built.fs.later later) scan.pages).2.map (·.1) := fallen
      rw [read] at fallen
      exact (first.again_unread fallen).1
  renders job member := by
    have member : job ∈ forecast.site.jobs
      (.ofPages (forecast.site.readPages (built.fs.later later) scan.pages).1) := member
    rw [read] at member
    exact (first.again_page member).1
  relinks link member := (first.again_link member).1

/-- Each step is repeated. -/
theorem steps_again :
    List.Forall₂ (fun step step' => step.effect.Again step'.effect) (forecast.steps scan)
      ((forecast.again (built.fs.later later)).steps scan) := by
  have steps : (forecast.again (built.fs.later later)).steps scan =
      scan.files.map (forecast.again (built.fs.later later)).copy ++
        (forecast.site.unread forecast.files scan).map (forecast.again (built.fs.later later)).copyInstead ++
        (forecast.site.jobsOf forecast.files scan).map (forecast.again (built.fs.later later)).page ++
        scan.links.map (forecast.again (built.fs.later later)).link := by
    rw [Site.unread, jobsOf, ← read]
    rfl
  have each {α : Type} {items : List α} {told told' : α → Step}
      (again : ∀ item ∈ items, (told item).effect.Again (told' item).effect) :
      List.Forall₂ (fun step step' => step.effect.Again step'.effect) (items.map told) (items.map told') := by
    rw [List.forall₂_map_left_iff, List.forall₂_map_right_iff, List.forall₂_same]
    exact again
  rw [steps, Forecast.steps]
  exact List.rel_append (List.rel_append (List.rel_append (each fun file member => (first.again_file member).2)
    (each fun file member => (first.again_unread member).2)) (each fun job member => (first.again_page member).2))
    (each fun link member => (first.again_link member).2)

end Read

end First

/-! ## Twice the same -/

theorem summary_again (outcomes : List Outcome) (unvisited : Nat) :
    Summary.ofOutcomes (outcomes.map Outcome.again) unvisited =
      { Summary.ofOutcomes outcomes unvisited with copied := 0 } := by
  have counts (outcome : Outcome) (other : outcome ≠ .copied ∧ outcome ≠ .unchanged) :
      (outcomes.map Outcome.again).count outcome = outcomes.count outcome := by
    induction outcomes with
    | nil => rfl
    | cons first rest ih =>
        have same : (first.again == outcome) = (first == outcome) := by
          cases first <;> cases outcome <;> simp_all [Outcome.again]
        rw [List.map_cons, List.count_cons, List.count_cons, ih, same]
  have uncopied : (outcomes.map Outcome.again).count Outcome.copied = 0 := by
    refine List.count_eq_zero.mpr fun member => ?_
    obtain ⟨outcome, -, same⟩ := List.mem_map.mp member
    cases outcome <;> cases same
  simp only [Summary.ofOutcomes, uncopied, counts .written (by simp), counts .linked (by simp),
    counts .fallback (by simp), counts .failed (by simp)]

section Steps

variable {steps steps' : List Step}
  (again : List.Forall₂ (fun step step' => step.effect.Again step'.effect) steps steps')

include again

theorem outcomes_again : Step.outcomes steps' = (Step.outcomes steps).map Outcome.again := by
  induction again with
  | nil => rfl
  | cons first rest ih => exact congrArg₂ List.cons first.outcome ih

theorem mem_allLoaded_again (key : Path) : key ∈ Step.allLoaded steps' ↔ key ∈ Step.allLoaded steps := by
  simp only [Step.allLoaded, List.mem_flatMap, List.mem_reverse]
  induction again with
  | nil => rfl
  | cons first rest ih => simp only [List.mem_cons, exists_eq_or_imp, first.loaded, ih]

theorem exists_mem_allPuts_again {put : Location × Entry} (member : put ∈ Step.allPuts steps') :
    ∃ earlier ∈ Step.allPuts steps, earlier.1 = put.1 ∧ earlier.2.undated = put.2.undated := by
  simp only [Step.mem_allPuts] at member ⊢
  induction again with
  | nil => simp at member
  | cons first rest ih =>
      simp only [List.mem_cons, exists_eq_or_imp] at member ⊢
      obtain mine | later := member
      · obtain ⟨earlier, member, same⟩ := first.puts put mine
        exact ⟨earlier, .inl member, same⟩
      · obtain ⟨earlier, member, same⟩ := ih later
        exact ⟨earlier, .inr member, same⟩

end Steps

/-- If nothing is put but what was there already, all is as it was. -/
theorem undated_of_grown {base fs : FileSystem} {puts : List (Location × Entry)} (grown : Grown base puts fs)
    (orderly : base.Orderly)
    (again : ∀ put ∈ puts, ∃ entry, base.get? put.1 = some entry ∧ entry.undated = put.2.undated)
    (place : Location) : (fs.get? place).map Entry.undated = (base.get? place).map Entry.undated := by
  by_cases there : ∃ put ∈ puts, put.1 = place
  · obtain ⟨put, member, rfl⟩ := there
    obtain ⟨entry, known, same⟩ := again put member
    rw [grown.there put member, known, Option.map_some, Option.map_some, same]
  · simp only [not_exists, not_and] at there
    by_cases above : ∃ put ∈ puts, place <+: put.1
    · obtain ⟨put, member, inside⟩ := above
      obtain ⟨entry, known, -⟩ := again put member
      obtain ⟨time, directory⟩ := orderly.isDirectory_above known inside fun same => there put member same.symm
      rw [grown.get?_known there directory, directory]
    · simp only [not_exists, not_and] at above
      rw [grown.elsewhere place above]

/-- The second build finds what the first one found. -/
theorem First.regrown (first : First forecast scan built) (tidy : forecast.files.Tidy)
    (distinct : forecast.files.Distinct) (distinct' : built.fs.Distinct) {rule : WalkRule}
    (unfollowed : rule.follow = false) (skips : ∀ name, rule.skip name (Location.path forecast.output) = true) :
    Regrown forecast.files rule forecast.output (built.fs.later later) where
  tidy := tidy
  tidy' := by
    refine ⟨first.grown.orderly, fun {place entry} known => ?_⟩
    refine first.grown.plain (fun put member => ?_) tidy.plain known
    obtain ⟨step, member, among⟩ := Step.mem_allPuts.mp member
    obtain ⟨below, -, plain, there⟩ :=
      first.sound.exists_below member (first.after.inside step member put among)
    exact there ▸ first.sound.footing.plain.append plain
  distinct := distinct
  distinct' := distinct'
  unfollowed := unfollowed
  absent := first.absent
  outside place outside := first.grown.outside first.after.moment.built.under outside
  skips front name _ := skips name

/-- The second build does what the first one did. -/
theorem First.rebuild (first : First forecast scan built) (again : Workspace)
    (files : again.fs = built.fs.later later) (cached : again.cache = built.cache)
    (read : forecast.site.readPages (built.fs.later later) scan.pages =
      forecast.site.readPages forecast.files scan.pages) :
    (forecast.site.buildScan scan again).1 =
        { Summary.ofOutcomes (Step.outcomes (forecast.steps scan)) scan.failures.length with copied := 0 } ∧
      (∀ place, ((forecast.site.buildScan scan again).2.fs.get? place).map Entry.undated =
        (built.fs.get? place).map Entry.undated) ∧
      ∀ key, Option.Rel Template.Compiled.Twins (built.cache.get? key)
        ((forecast.site.buildScan scan again).2.cache.get? key) := by
  have sound := first.sound_again read
  have steps := first.steps_again read
  have targets : forecast.site.entryTargets (built.fs.later later) scan =
      forecast.site.entryTargets forecast.files scan := by
    rw [entryTargets, entryTargets, Site.unread, jobsOf, read]
  have start : After (built.fs.later later) forecast.base forecast.output forecast.output
      (Step.allLoaded (forecast.steps scan) ++ []) [] again :=
    ⟨by simp, files ▸ first.footing.nil, cached ▸ first.after.moment.filled⟩
  obtain ⟨summary, after⟩ := sound.buildScan files start (sound.apart (targets ▸ first.targets))
  refine ⟨?_, fun place => ?_, first.after.moment.filled.rel after.moment.filled fun key => ?_⟩
  · rw [outcomes_again steps, summary_again] at summary
    exact summary
  · refine undated_of_grown after.moment.built.toGrown first.grown.orderly (fun put member => ?_) place
    obtain ⟨earlier, member, place, same⟩ := exists_mem_allPuts_again steps member
    exact ⟨earlier.2, place ▸ first.grown.there earlier member, same⟩
  · simp only [List.mem_append, mem_allLoaded_again steps, List.not_mem_nil, or_false, or_self]

/-! ## Whole builds -/

section Whole

variable {site : Site} {config : Config} {source? output? : Option Path} {work : Workspace}

/-- The ground of an output directory that is not there. -/
theorem ground_of_absent {fs : FileSystem} {place : Location} (orderly : fs.Orderly) (plain : Plain place)
    (linkless : fs.Linkless place) (absent : fs.get? place = none) : fs.Ground place place where
  orderly := orderly
  plain := plain
  exists_route _ := ⟨[], place, [], rfl, rfl, orderly, by simp [Plain], FileSystem.walk_root true fs,
    FileSystem.isDirectory_root fs⟩
  clear below _ above inside target link := by
    obtain before | under := List.prefix_or_prefix_of_prefix inside (List.prefix_append place below)
    · exact linkless above before target link
    · rw [orderly.absent_below absent under] at link
      cases link

/-- A site is built into an output directory that was not there. If nothing changes, building it again counts the
same but for files that are copied, which are none, and all files, links and directories are left with what they
contain, as are the templates that are cached. -/
theorem rebuild_of_unchanged (tidy : work.fs.Tidy) (distinct : work.fs.Distinct)
    (prepared : Site.prepare work.fs config source? output? = .ok site) (scanned : site.scan work.fs = .ok scan)
    (verbatim : site.config.verbatimLinks = true) (grounded : work.cache.Grounded)
    (absent : work.fs.get? site.outputDirectory.names = none)
    (linkless : work.fs.Linkless site.outputDirectory.names)
    (links : ∀ place target, work.fs.get? place = some (.link target) → target.text.isEmpty = false)
    (dated : ∀ file ∈ scan.pages.map (·.1) ++ scan.files, ∀ time, work.fs.modified file = .ok time →
      time ≤ work.fs.now)
    (apart : (site.entryTargets work.fs scan).Pairwise fun targets others =>
      ∀ target ∈ targets, ∀ elsewhere ∈ others, target.Apart elsewhere)
    (asked : ∀ job ∈ site.jobsOf work.fs scan, ∀ asked, site.Asks work job.1 job.2 asked →
      work.fs.KeepsOff site.outputDirectory.names (asked.absolute work.fs.here))
    (later : Time) :
    let first := site.renderAll work
    let second := site.renderAll { first.2 with fs := first.2.fs.later later }
    ∃ summary, first.1 = .ok summary ∧ second.1 = .ok { summary with copied := 0 } ∧
      (∀ place, (second.2.fs.get? place).map Entry.undated = (first.2.fs.get? place).map Entry.undated) ∧
      ∀ key, Option.Rel Template.Compiled.Twins (first.2.cache.get? key) (second.2.cache.get? key) := by
  intro first second
  obtain ⟨source, path, rooted, known, templates⟩ := exists_rooted_of_prepare tidy prepared
  rw [rooted.names_outputDirectory] at absent linkless asked
  have ground := ground_of_absent tidy.orderly rooted.plain_output linkless absent
  obtain ⟨accepts, loaded, sound⟩ :=
    rooted.exists_sound tidy known scanned ground absent grounded templates links asked
  obtain ⟨summary, after⟩ :=
    sound.buildScan rfl ⟨by simp, ground.toFooting.nil, .nil⟩ (sound.apart apart)
  have standing : First ⟨site, work.fs, work, path, accepts, loaded⟩ scan (site.buildScan scan work).2 :=
    ⟨sound, absent, linkless, apart, after, dated⟩
  have ran : first = (.ok (site.buildScan scan work).1, (site.buildScan scan work).2) := renderAll_eq scanned
  have distinct' : first.2.fs.Distinct := distinct_renderAll site distinct
  clear_value first
  subst ran
  have regrown : Regrown work.fs site.rule path ((site.buildScan scan work).2.fs.later later) :=
    standing.regrown tidy distinct distinct' (by simp [rule, verbatim])
      (by simp [rule, leavesOut, rooted.outputDirectory, Path.same])
  have scanned' := (rooted.scan_regrown known regrown).trans scanned
  have read : site.readPages ((site.buildScan scan work).2.fs.later later) scan.pages =
      site.readPages work.fs scan.pages := by
    refine readPages_of_find fun file member => standing.find_eq ?_
    obtain ⟨origin, content, time, finds⟩ :=
      rooted.exists_find tidy known scanned (List.mem_append_left _ member)
    refine FileSystem.keepsOff_of_find finds fun under => ?_
    have there := FileSystem.get?_of_find finds
    rw [tidy.orderly.absent_below absent under] at there
    cases there
  have again : second = _ := renderAll_eq scanned'
  have rebuilt := standing.rebuild
    { (site.buildScan scan work).2 with fs := (site.buildScan scan work).2.fs.later later } rfl rfl read
  rw [again]
  rw [← summary] at rebuilt
  exact ⟨_, rfl, congrArg Except.ok rebuilt.1, rebuilt.2⟩

end Whole

/-! ## Twice the small site -/

section Sample

/-- The pages of the small site, without a header or with an empty one. -/
def bareScan : Scan :=
  ⟨[(⟨"/s/a.html"⟩, ".html", .markup), (⟨"/s/b.html"⟩, ".html", .markup)], [], [], []⟩

theorem entryTargets_bare {files : FileSystem}
    (first : Page.content files ⟨"/s/a.html"⟩ = Page.content barePages ⟨"/s/a.html"⟩)
    (second : Page.content files ⟨"/s/b.html"⟩ = Page.content barePages ⟨"/s/b.html"⟩) :
    roundaboutSite.entryTargets files
        ⟨[(⟨"/s/a.html"⟩, ".html", .markup), (⟨"/s/b.html"⟩, ".html", .markup)], [], [], []⟩ =
      (roundaboutSite.jobs bareLinks).map fun job => roundaboutSite.targets job.1 := by
  have read := @readPages_bare _ roundaboutSite rfl rfl first second
  simp only [entryTargets, Site.unread, jobsOf, read, ofPages_bare, List.map_nil, List.nil_append, List.append_nil]

theorem jobsOf_bare {files : FileSystem}
    (first : Page.content files ⟨"/s/a.html"⟩ = Page.content barePages ⟨"/s/a.html"⟩)
    (second : Page.content files ⟨"/s/b.html"⟩ = Page.content barePages ⟨"/s/b.html"⟩) :
    roundaboutSite.jobsOf files ⟨[(⟨"/s/a.html"⟩, ".html", .markup), (⟨"/s/b.html"⟩, ".html", .markup)], [], [], []⟩ =
      roundaboutSite.jobs bareLinks := by
  rw [jobsOf, readPages_bare rfl rfl first second, ofPages_bare]

theorem linkless_bare {fs : FileSystem} (solid : ∀ found ∈ fs.entries, ∀ target, found.2 ≠ .link target)
    (place : Location) : fs.Linkless place :=
  fun above _ target link => unlinked_of_entries solid above target link

theorem distinct_barePages : barePages.Distinct := by decide

theorem rebuild_of_unchanged_sample :
    let first := roundaboutSite.renderAll { fs := barePages }
    let second := roundaboutSite.renderAll { first.2 with fs := first.2.fs.later 20 }
    ∃ summary, first.1 = .ok summary ∧ second.1 = .ok { summary with copied := 0 } ∧
      (∀ place, (second.2.fs.get? place).map Entry.undated = (first.2.fs.get? place).map Entry.undated) ∧
      ∀ key, Option.Rel Template.Compiled.Twins (first.2.cache.get? key) (second.2.cache.get? key) := by
  have output := rooted_roundaboutSite.names_outputDirectory
  have solid : ∀ found ∈ barePages.entries, ∀ target, found.2 ≠ .link target := by simp [barePages]
  refine @rebuild_of_unchanged _ _ roundabout (some ⟨"/s"⟩) none { fs := barePages } tidy_barePages distinct_barePages
    prepare_barePages scan_barePages rfl (fun path template cached => by cases cached) (output ▸ rfl)
    (linkless_bare solid _) (fun place target link => absurd link (unlinked_of_entries solid place target))
    (fun file member time modified => ?_) ?_ (fun job member asked asks => ?_) 20
  · have dated : ∀ file ∈ [⟨"/s/a.html"⟩, ⟨"/s/b.html"⟩], barePages.modified file = .ok 1 := by decide
    rw [dated file (by simpa using member)] at modified
    cases modified
    decide
  · rw [entryTargets_bare rfl rfl, List.pairwise_map]
    exact apart_bare
  · rw [output]
    exact asked_barePages (listed_bare ▸ member) asks

theorem scan_dressedPages : roundaboutSite.scan dressedPages =
    .ok ⟨[(⟨"/s/a.html"⟩, ".html", .markup), (⟨"/s/b.html"⟩, ".html", .markup)], [], [], []⟩ := by
  have shown : roundaboutSite.shown dressedPages ["s"] ["_templates", "a.html", "b.html"] =
      [.file (Location.path ["s", "a.html"]), .file (Location.path ["s", "b.html"])] := by decide
  rw [rooted_roundaboutSite.scan_flat tidy_dressedPages ⟨0, rfl⟩ rfl names_dressedPages (by decide) (by decide),
    shown, ofFindings_bare rfl]

/-- What the first build leaves: the layout could not be found, as the output directory was not there. -/
def fallenPages : FileSystem :=
  { dressedPages with entries := [(["s", "_build", "b.html"], .file (Text.Utf8.encode "y") 9),
      (["s", "_build", "a.html"], .file (Text.Utf8.encode "---\n---\nx") 9), (["s", "_build"], .directory 9)] ++
      dressedPages.entries }

theorem tidy_fallenPages : fallenPages.Tidy := by
  refine FileSystem.tidy_of_entries ?_ (by decide)
  simp only [fallenPages, dressedPages, barePages, List.cons_append, List.nil_append, List.forall_mem_cons]
  exact ⟨⟨9, rfl⟩, ⟨9, rfl⟩, ⟨0, rfl⟩, ⟨0, rfl⟩, ⟨0, rfl⟩, ⟨0, rfl⟩, ⟨0, rfl⟩, ⟨0, rfl⟩, by simp⟩

theorem scan_fallenPages : roundaboutSite.scan fallenPages =
    .ok ⟨[(⟨"/s/a.html"⟩, ".html", .markup), (⟨"/s/b.html"⟩, ".html", .markup)], [], [], []⟩ := by
  have names : fallenPages.names ["s"] = ["_build", "_templates", "a.html", "b.html"] :=
    FileSystem.names_of_ordered rfl (by decide)
  have shown : roundaboutSite.shown fallenPages ["s"] ["_build", "_templates", "a.html", "b.html"] =
      [.file (Location.path ["s", "a.html"]), .file (Location.path ["s", "b.html"])] := by decide
  rw [rooted_roundaboutSite.scan_flat tidy_fallenPages ⟨0, rfl⟩ rfl names (by decide) (by decide), shown,
    ofFindings_bare rfl]

/-- What is noted before the two pages are built. -/
def announce (work : Workspace) : Workspace :=
  noting (noting (noting (noting work []) []) []) (bareLinks.tree?.toList.map .pageTree)

/-- Building the two pages, with what is noted before and after. -/
def buildBare (work : Workspace) : Summary × Workspace :=
  let ran := forEach (fun job => roundaboutSite.renderPage job.1 job.2) (roundaboutSite.jobs bareLinks) (announce work)
  let summary := Summary.ofOutcomes ran.1 0
  (summary, if 0 < summary.fallbacks then noting ran.2 [.fallbacks summary.fallbacks] else ran.2)

theorem buildScan_bare {work : Workspace}
    (first : Page.content work.fs ⟨"/s/a.html"⟩ = Page.content barePages ⟨"/s/a.html"⟩)
    (second : Page.content work.fs ⟨"/s/b.html"⟩ = Page.content barePages ⟨"/s/b.html"⟩) :
    roundaboutSite.buildScan
      ⟨[(⟨"/s/a.html"⟩, ".html", .markup), (⟨"/s/b.html"⟩, ".html", .markup)], [], [], []⟩ work =
      buildBare work := by
  obtain ⟨copied, fallen, rendered, linked, _, _, third, _, stages⟩ :=
    exists_stages roundaboutSite
      ⟨[(⟨"/s/a.html"⟩, ".html", .markup), (⟨"/s/b.html"⟩, ".html", .markup)], [], [], []⟩ work
  rw [stages.buildScan_apply]
  obtain ⟨copies, fallbacks, pages, links⟩ := stages
  dsimp only at copies fallbacks pages links
  rw [readPages_bare rfl rfl first second] at fallbacks pages
  rw [ofPages_bare] at pages
  cases copies
  cases fallbacks
  cases links
  have ran : forEach (fun job => roundaboutSite.renderPage job.1 job.2) (roundaboutSite.jobs bareLinks)
      (announce work) = (third, rendered) := pages
  rw [buildBare, ran, List.nil_append, List.nil_append, List.append_nil]
  rfl

/-- The variables of a page of the two. -/
def bareBindings (page : Page) : Fields :=
  (bareLinks.summary { page, parent? := none, children := [] }).insert "site" (roundaboutSite.value bareLinks)

/-- The first build with the page that it fails to build. -/
def missed : Except BuildError Unit × Workspace :=
  roundaboutSite.buildPage firstPage (bareBindings firstPage) (announce { fs := dressedPages })

/-- The files with a copy of the page. -/
def copiedPages : FileSystem :=
  { dressedPages with entries := [(["s", "_build", "a.html"], .file (Text.Utf8.encode "---\n---\nx") 9),
      (["s", "_build"], .directory 9)] ++ dressedPages.entries }

/-- The first build with a copy of the page. -/
def stranded : Workspace :=
  { missed.2 with
    fs := copiedPages
    log := (roundaboutSite.renderPage firstPage (bareBindings firstPage) (announce { fs := dressedPages })).2.log }

/-- The first build with both pages. -/
def fallen : Workspace :=
  noting (roundaboutSite.renderPage secondPage (bareBindings secondPage) stranded).2 [.fallbacks 1]

theorem missed_fails : missed.1.toOption = none ∧ missed.2.fs.entries = dressedPages.entries ∧
    missed.2.fs.now = 9 ∧ missed.2.fs.workingDirectory = [] := by
  decide +kernel

theorem renderPage_firstPage :
    roundaboutSite.renderPage firstPage (bareBindings firstPage) (announce { fs := dressedPages }) =
      (.fallback, stranded) := by
  obtain ⟨fails, entries, now, directory⟩ := missed_fails
  have files : missed.2.fs = dressedPages := by
    cases found : missed.2.fs
    simp only [found] at entries now directory
    rw [entries, now, directory]
    rfl
  have stale : dressedPages.isStale (Location.path ["s", "a.html"]) (Location.path ["s", "_build", "a.html"]) =
    .ok true := by decide
  have copied : FileSystem.copyFile (Location.path ["s", "a.html"]) (Location.path ["s", "_build", "a.html"])
      dressedPages = (.ok 9, copiedPages) := by
    rw [FileSystem.copyFile, makeParent_sample _ (by decide)]
    rfl
  have proper : Path.Proper "a.html" := by decide
  have place : roundaboutSite.placeOf (Location.path ["s", "a.html"]) = Location.path ["s", "_build", "a.html"] :=
    rooted_roundaboutSite.placeOf_path (List.cons_ne_nil "a.html" []) (by simpa [Plain] using proper)
  cases failed : missed with
  | mk result after =>
      rw [failed] at fails files
      cases result with
      | ok done => cases fails
      | error error =>
          have files : after.fs = dressedPages := files
          have rendered := renderPage_of_error failed
          have source : firstPage.sourceFile = Location.path ["s", "a.html"] := rfl
          rw [copyInstead_apply, source, place] at rendered
          simp only [files, stale, copied] at rendered
          rw [stranded, rendered, failed]

theorem buildBare_of_turns {work between after : Workspace} {one two : Outcome}
    (first : roundaboutSite.renderPage firstPage (bareBindings firstPage) (announce work) = (one, between))
    (second : roundaboutSite.renderPage secondPage (bareBindings secondPage) between = (two, after)) :
    buildBare work =
      let summary := Summary.ofOutcomes [one, two] 0
      (summary, if 0 < summary.fallbacks then noting after [.fallbacks summary.fallbacks] else after) := by
  have jobs : roundaboutSite.jobs bareLinks =
      [(firstPage, bareBindings firstPage), (secondPage, bareBindings secondPage)] := rfl
  have ran := @forEach_cons _ (fun job : Page × Fields => roundaboutSite.renderPage job.1 job.2)
    (firstPage, bareBindings firstPage) _ _ _ first [(secondPage, bareBindings secondPage)]
  rw [@forEach_cons _ (fun job : Page × Fields => roundaboutSite.renderPage job.1 job.2)
    (secondPage, bareBindings secondPage) _ _ _ second, forEach_nil] at ran
  rw [buildBare, jobs, ran]

/-- The first build copies the page whose layout it cannot find. -/
theorem buildBare_dressedPages : buildBare { fs := dressedPages } = (⟨1, 0, 0, 1, 0⟩, fallen) := by
  have written : (roundaboutSite.renderPage secondPage (bareBindings secondPage) stranded).1 = .written := by
    decide +kernel
  exact buildBare_of_turns renderPage_firstPage (Prod.ext written rfl)

theorem fallen_later : fallen.fs.later 9 = fallenPages := by
  have entries : fallen.fs.entries = fallenPages.entries ∧ fallen.fs.workingDirectory = [] := by decide +kernel
  rw [FileSystem.later, entries.1, entries.2]
  rfl

/-- The second build evaluates it. -/
theorem buildBare_fallenPages : (buildBare { fallen with fs := fallenPages }).1 = ⟨2, 0, 0, 0, 0⟩ := by
  decide +kernel

/-- Once the output directory is there, the layout is found by the way through it, and the second build evaluates a
page that the first one copied. -/
theorem rebuild_finds_way_through_output :
    ¬ ∀ (config : Config) (source? output? : Option Path) (site : Site) (scan : Scan) (work : Workspace)
        (later : Time),
      work.fs.Tidy → work.fs.Distinct → Site.prepare work.fs config source? output? = .ok site →
      site.scan work.fs = .ok scan → site.config.verbatimLinks = true → work.cache.Grounded →
      work.fs.get? site.outputDirectory.names = none → work.fs.Linkless site.outputDirectory.names →
      (∀ place target, work.fs.get? place = some (.link target) → target.text.isEmpty = false) →
      (∀ file ∈ scan.pages.map (·.1) ++ scan.files, ∀ time, work.fs.modified file = .ok time →
        0 < time ∧ time ≤ work.fs.now) →
      ((site.entryTargets work.fs scan).Pairwise fun targets others =>
        ∀ target ∈ targets, ∀ elsewhere ∈ others, target.Apart elsewhere) →
      (∀ job ∈ site.jobsOf work.fs scan, ∀ asked, site.Asks work job.1 job.2 asked →
        ¬site.outputDirectory.components <+: asked.components ∧
          ∀ place entry, work.fs.find true (asked.absolute work.fs.here) = .ok (place, entry) →
            ¬site.outputDirectory.names <+: place) →
      ∀ summary again, (site.renderAll work).1 = .ok summary →
        (site.renderAll { (site.renderAll work).2 with fs := (site.renderAll work).2.fs.later later }).1 =
          .ok again →
        again = { summary with copied := 0 } := by
  intro same
  have output := rooted_roundaboutSite.names_outputDirectory
  have solid : ∀ found ∈ dressedPages.entries, ∀ target, found.2 ≠ .link target := by
    simp [dressedPages, barePages]
  have missing : dressedPages.readText (roundaboutLayout.absolute dressedPages.here) = .error .notFound := rfl
  have finds : dressedPages.find true (roundaboutLayout.absolute dressedPages.here) = .error .notFound := rfl
  have reads : ∀ page ∈ [firstPage, secondPage],
      dressedPages.read page.sourceFile = barePages.read page.sourceFile := by decide
  have first : roundaboutSite.renderAll { fs := dressedPages } =
      (.ok ⟨1, 0, 0, 1, 0⟩, fallen) := by
    rw [renderAll_eq scan_dressedPages, buildScan_bare rfl rfl, buildBare_dressedPages]
  have second : (roundaboutSite.renderAll { fallen with fs := fallenPages }).1 = .ok ⟨2, 0, 0, 0, 0⟩ := by
    rw [renderAll_eq scan_fallenPages, buildScan_bare rfl rfl, buildBare_fallenPages]
  have summaries := same roundabout (some ⟨"/s"⟩) none roundaboutSite _ { fs := dressedPages } 9 tidy_dressedPages
    (by decide) (prepare_bare rfl rfl) scan_dressedPages rfl (fun path template cached => by cases cached)
    (output ▸ rfl) (linkless_bare solid _)
    (fun place target link => absurd link (unlinked_of_entries solid place target))
    (fun file member time modified => ?_) ?_ (fun job member asked asks => ?_) ⟨1, 0, 0, 1, 0⟩ ⟨2, 0, 0, 0, 0⟩
    (congrArg Prod.fst first) (by rw [first, fallen_later]; exact second)
  · cases summaries
  · have dated : ∀ file ∈ [⟨"/s/a.html"⟩, ⟨"/s/b.html"⟩], dressedPages.modified file = .ok 1 := by decide
    rw [dated file (by simpa using member)] at modified
    cases modified
    decide
  · rw [@entryTargets_bare dressedPages rfl rfl, List.pairwise_map]
    exact apart_bare
  · obtain rfl := asks_bare reads missing (@jobsOf_bare dressedPages rfl rfl ▸ member) asks
    refine ⟨by decide, fun place entry found => ?_⟩
    rw [finds] at found
    cases found

end Sample

end Site

end StaticSite
