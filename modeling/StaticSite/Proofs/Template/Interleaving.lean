import Mathlib.Logic.Relation
import StaticSite.Proofs.Template.Freshness

/-!
Loadings that take their turns. A loading looks at the time of its file, looks into the cache, reads the file if it must,
and stores the template, and between these steps files change and other loadings go on. What is stored is then what the
file read as later than it was dated, so an entry is never dated later than its content; a loading during which its
file stays the same gives what the file compiles to.
-/

namespace StaticSite.Template

/-! ## Loadings step by step -/

/-- How far a loading has come. -/
inductive Stage
  /-- The time of the file was looked at. -/
  | dated (stamp : Stamp)
  /-- The cache had nothing that is fresh enough. -/
  | missed (stamp : Stamp)
  /-- The file was read and compiled. -/
  | compiled (template : Compiled)
  | finished (outcome : Except Error Compiled)

structure Loading where
  /-- The path as seen from the root. -/
  path : Path
  filename : Option String
  stage : Stage

/-- A loading that looks at the time of its file. -/
def Loading.begin (files : FileSystem) (path : Path) (properties : Properties) : Loading where
  path := path.absolute files.here
  filename := properties.filename
  stage :=
    if path.text.isEmpty then .finished (.error (.io path.text .emptyPath))
    else .dated (stampOf files (path.absolute files.here) properties.reuse)

/-- The next step of a loading, with the files and the cache as they are by then. -/
def Loading.step (files : FileSystem) (cache : Cache) (loading : Loading) : Loading × Cache :=
  match loading.stage with
  | .dated stamp =>
    match cache.fresh? loading.path stamp with
    | some template => ({ loading with stage := .finished (.ok template) }, cache)
    | none => ({ loading with stage := .missed stamp }, cache)
  | .missed stamp =>
    match compileFile files loading.path loading.filename stamp 0 with
    | .ok template => ({ loading with stage := .compiled template }, cache)
    | .error error => ({ loading with stage := .finished (.error error) }, cache)
  | .compiled template =>
    let template := { template with serial := cache.compiledFiles + 1 }
    ({ loading with stage := .finished (.ok template) },
      { cache.put loading.path template with compiledFiles := cache.compiledFiles + 1 })
  | .finished _ => (loading, cache)

theorem compileFile_serial (files : FileSystem) (path : Path) (filename : Option String) (stamp : Stamp) (serial : Nat) :
    compileFile files path filename stamp serial =
      (compileFile files path filename stamp 0).map fun template => { template with serial } := by
  unfold compileFile
  cases files.readText path with
  | error error => rfl
  | ok source =>
      dsimp only
      cases compile source (filename.getD path.text) <;> rfl

/-- A loading with nothing in between is the loading of a file that may change before it is read. -/
theorem steps_eq_loadAcross (statted reading : FileSystem) (cache : Cache) (path : Path) (properties : Properties) :
    let first := (Loading.begin statted path properties).step reading cache
    let second := first.1.step reading first.2
    let third := second.1.step reading second.2
    third.1.stage = .finished ((loadAcross statted reading cache path properties).map (·.1)) ∧
      third.2 = ((loadAcross statted reading cache path properties).toOption.map (·.2)).getD cache := by
  unfold loadAcross Loading.begin
  by_cases empty : path.text.isEmpty
  · simp only [empty, if_true, Loading.step]
    exact ⟨rfl, rfl⟩
  · simp only [empty, Bool.false_eq_true, if_false, Loading.step]
    cases cache.fresh? (path.absolute statted.here) (stampOf statted (path.absolute statted.here) properties.reuse) with
    | some template => exact ⟨rfl, rfl⟩
    | none =>
        dsimp only
        rw [compileFile_serial _ _ _ _ (cache.compiledFiles + 1)]
        cases compileFile reading (path.absolute statted.here) properties.filename
          (stampOf statted (path.absolute statted.here) properties.reuse) 0 <;> exact ⟨rfl, rfl⟩

/-! ## What is stored -/

/-- A template is what its file read as at one of some moments, and it is not dated later than its file was then. -/
structure Backed (moments : List FileSystem) (key : Path) (template : Compiled) : Prop where
  absolute : key.isAbsolute
  known : ∃ moment ∈ moments, ∃ source time, moment.readText key = .ok source ∧ template.From source ∧
    moment.modified key = .ok time ∧ template.stamp ≤ stampOfTime time

/-- A stamp tells no time, or the time that a file had at one of some moments, or that the file had none. -/
def Dated (moments : List FileSystem) (key : Path) (stamp : Stamp) : Prop :=
  stamp = 0 ∨ stamp = unreadableStamp ∨ ∃ moment ∈ moments, ∃ time, moment.modified key = .ok time ∧
    stamp = stampOfTime time

/-- What holds of a loading under way. -/
def Stage.Backed (moments : List FileSystem) (key : Path) : Stage → Prop
  | .dated stamp => Dated moments key stamp
  | .missed stamp => Dated moments key stamp
  | .compiled template => Template.Backed moments key template
  | .finished _ => True

section Moments

variable {moments : List FileSystem} {key path : Path} {template : Compiled} {stamp : Stamp} {files : FileSystem}

theorem Backed.later (backed : Backed moments key template) (next : FileSystem) :
    Backed (next :: moments) key template := by
  obtain ⟨absolute, moment, seen, compiled⟩ := backed
  exact ⟨absolute, moment, List.mem_cons_of_mem next seen, compiled⟩

theorem Dated.later (dated : Dated moments key stamp) (next : FileSystem) : Dated (next :: moments) key stamp := by
  obtain none | unreadable | ⟨moment, seen, timed⟩ := dated
  · exact .inl none
  · exact .inr (.inl unreadable)
  · exact .inr (.inr ⟨moment, List.mem_cons_of_mem next seen, timed⟩)

theorem Stage.Backed.later {stage : Stage} (backed : stage.Backed moments key) (next : FileSystem) :
    stage.Backed (next :: moments) key := by
  cases stage with
  | dated stamp => exact Dated.later backed next
  | missed stamp => exact Dated.later backed next
  | compiled template => exact Template.Backed.later backed next
  | finished outcome => exact True.intro

theorem exists_modified_of_readText {source : String} (reads : files.readText key = .ok source) :
    ∃ time, files.modified key = .ok time := by
  obtain ⟨location, content, time, found, -⟩ := FileSystem.exists_find_of_readText reads
  exact ⟨time, FileSystem.modified_of_find found⟩

theorem readText_congr {other : FileSystem} (same : files.read key = other.read key) :
    files.readText key = other.readText key := by
  rw [FileSystem.readText, FileSystem.readText, same]

theorem dated_stampOf (seen : files ∈ moments) (reuse : Bool) : Dated moments key (stampOf files key reuse) := by
  unfold stampOf
  cases reuse with
  | true => exact .inl rfl
  | false =>
      cases timed : files.modified key with
      | error error => exact .inr (.inl rfl)
      | ok time => exact .inr (.inr ⟨files, seen, time, timed, rfl⟩)

/-- What is compiled now is backed, by now or by the moment when the time of its file was looked at: if the file read the
same then, by that moment, and otherwise it has a later time now. -/
theorem backed_of_compileFile {past : List FileSystem} (advances : ∀ earlier ∈ past, FileSystem.Advances earlier files)
    (absolute : key.isAbsolute) (dated : Dated (files :: past) key stamp) {filename : Option String} {serial : Nat}
    (readable : stamp ≠ unreadableStamp) (compiled : compileFile files key filename stamp serial = .ok template) :
    Backed (files :: past) key template := by
  obtain ⟨source, reads, made, stamped⟩ := compileFile_ok compiled
  obtain ⟨now, timedNow⟩ := exists_modified_of_readText reads
  refine ⟨absolute, ?_⟩
  rw [stamped]
  obtain rfl | unreadable | ⟨moment, seen, time, timed, rfl⟩ := dated
  · exact ⟨files, List.mem_cons_self, source, now, reads, made, timedNow, Nat.zero_le _⟩
  · exact absurd unreadable readable
  obtain rfl | earlier := List.mem_cons.mp seen
  · exact ⟨moment, seen, source, time, reads, made, timed, Nat.le_refl _⟩
  by_cases same : moment.read key = files.read key
  · exact ⟨moment, seen, source, time, (readText_congr same).trans reads, made, timed, Nat.le_refl _⟩
  · obtain ⟨positive, later⟩ := advances moment earlier key same now timedNow
    exact ⟨files, List.mem_cons_self, source, now, reads, made, timedNow,
      Nat.le_of_lt (stampOfTime_lt_stampOfTime positive (later time timed))⟩

theorem Backed.stamp_lt (backed : Backed moments key template)
    (representable : ∀ moment ∈ moments, moment.Representable) : template.stamp < unreadableStamp := by
  obtain ⟨-, moment, seen, source, time, -, -, timed, recent⟩ := backed
  exact Nat.lt_of_le_of_lt recent (stampOfTime_lt (representable moment seen) timed)

/-- An entry that is dated no earlier than a file is what the file compiles to, if the file has the time and the content
that it had at the last of the moments that may have been different. -/
theorem Backed.current {during past : List FileSystem} {base : FileSystem} {time : Time}
    (backed : Backed (during ++ base :: past) key template)
    (advances : ∀ earlier ∈ past, FileSystem.Advances earlier base) (same : key.same path)
    (absolute : path.isAbsolute) (timed : base.modified path = .ok time) (recent : stampOfTime time ≤ template.stamp)
    (undisturbed : ∀ moment ∈ during, moment.read path = base.read path ∧ moment.modified path = base.modified path) :
    ∃ source, base.readText path = .ok source ∧ template.From source := by
  obtain ⟨keyed, moment, seen, source, dated, reads, made, datedThen, stamped⟩ := backed
  have when : (moment.read path = base.read path ∧ moment.modified path = base.modified path) ∨ moment ∈ past := by
    obtain inside | rest := List.mem_append.mp seen
    · exact .inl (undisturbed moment inside)
    · obtain rfl | earlier := List.mem_cons.mp rest
      · exact .inl ⟨rfl, rfl⟩
      · exact .inr earlier
  obtain ⟨alike, timedAlike⟩ | earlier := when
  · obtain ⟨content, -, decoded, readThen, -, -, -, readNow⟩ :=
      FileSystem.plain_of_same keyed absolute same reads (timedAlike.trans timed)
    refine ⟨source, FileSystem.readText_of_read ?_ decoded, made⟩
    rw [← alike, ← readNow, readThen]
  · obtain ⟨content, before, decoded, readThen, timedPlainly, keyTimed, timedNow, readNow⟩ :=
      FileSystem.plain_of_same keyed absolute same reads timed
    by_cases unchanged : moment.read path.plain = base.read path.plain
    · refine ⟨source, FileSystem.readText_of_read ?_ decoded, made⟩
      rw [← readNow, ← unchanged, readThen]
    · obtain ⟨positive, later⟩ := advances moment earlier path.plain unchanged time timedNow
      have equal : before = dated := Except.ok.inj (keyTimed.symm.trans datedThen)
      have gained := stampOfTime_lt_stampOfTime positive (later dated (equal ▸ timedPlainly))
      exact absurd (Nat.le_trans recent stamped) (Nat.not_le_of_lt gained)

end Moments

/-! ## Loadings among each other -/

/-- Files, a cache, and the loadings that have begun. -/
structure System where
  /-- The files as they were, the latest first. -/
  past : List FileSystem := []
  files : FileSystem
  cache : Cache := {}
  loadings : List Loading := []

namespace System

def moments (system : System) : List FileSystem := system.files :: system.past

def change (system : System) (next : FileSystem) : System := { system with past := system.moments, files := next }

def begin (system : System) (path : Path) (properties : Properties) : System :=
  { system with loadings := system.loadings ++ [.begin system.files path properties] }

def proceed (system : System) (i : Nat) (loading : Loading) : System :=
  { system with
    cache := (loading.step system.files system.cache).2
    loadings := system.loadings.set i (loading.step system.files system.cache).1 }

end System

/-- What may happen next. Which changes there may be depends on how the files were, the latest first. -/
inductive Step (mayChange : List FileSystem → FileSystem → Prop) (mayProceed : FileSystem → Loading → Prop) :
    System → System → Prop
  | change {system : System} {next : FileSystem} : next.Representable → mayChange system.moments next →
    Step mayChange mayProceed system (system.change next)
  | begin {system : System} (path : Path) (properties : Properties) :
    Step mayChange mayProceed system (system.begin path properties)
  | proceed {system : System} {i : Nat} {loading : Loading} : system.loadings[i]? = some loading →
    mayProceed system.files loading → Step mayChange mayProceed system (system.proceed i loading)

/-- What may happen in any number of steps, where something holds after each. -/
def Reaches (mayChange : List FileSystem → FileSystem → Prop) (mayProceed : FileSystem → Loading → Prop)
    (meanwhile : System → Prop) : System → System → Prop :=
  Relation.ReflTransGen fun system next => Step mayChange mayProceed system next ∧ meanwhile next

/-- The file is not there when its time is looked at, and it is when it is read. -/
def Loading.Overtaken (files : FileSystem) (loading : Loading) : Prop :=
  loading.stage = .missed unreadableStamp ∧ ∃ source, files.readText loading.path = .ok source

/-- No file appears between the two times that a loading looks for it. -/
def InTime (files : FileSystem) (loading : Loading) : Prop := ¬ loading.Overtaken files

/-- A file is as it was in another system. -/
def Undisturbed (base : System) (path : Path) (system : System) : Prop :=
  system.files.read path = base.files.read path ∧ system.files.modified path = base.files.modified path

/-- What holds of all files, of the cache and of all loadings at any time. -/
structure System.Sound (system : System) : Prop where
  representable : ∀ moment ∈ system.moments, moment.Representable
  advances : ∀ earlier ∈ system.past, FileSystem.Advances earlier system.files
  kept : ∀ entry ∈ system.cache.entries, Backed system.moments entry.1 entry.2
  underWay : ∀ loading ∈ system.loadings,
    loading.path.isAbsolute ∧ loading.stage.Backed system.moments loading.path

section Sound

variable {system after : System} {loading : Loading} {i : Nat}

theorem Loading.begin_backed (files : FileSystem) (past : List FileSystem) (path : Path) (properties : Properties) :
    let loading := Loading.begin files path properties
    loading.path.isAbsolute ∧ loading.stage.Backed (files :: past) loading.path := by
  refine ⟨Path.isAbsolute_absolute path (Path.isAbsolute_location files.workingDirectory), ?_⟩
  dsimp only [Loading.begin]
  split
  · exact True.intro
  · exact dated_stampOf List.mem_cons_self properties.reuse

theorem Cache.mem_of_fresh? {cache : Cache} {path : Path} {stamp : Stamp} {template : Compiled}
    (fresh : cache.fresh? path stamp = some template) :
    ∃ key, (key, template) ∈ cache.entries ∧ key.same path ∧ stamp ≤ template.stamp := by
  obtain ⟨known, recent⟩ := Option.filter_eq_some_iff.mp fresh
  obtain ⟨⟨key, found⟩, picked, rfl⟩ := Option.map_eq_some_iff.mp known
  have same := List.find?_some picked
  exact ⟨key, List.mem_of_find?_eq_some picked, same, of_decide_eq_true recent⟩

/-- One step of a loading keeps the loading and the cache in order. -/
theorem System.Sound.step (sound : system.Sound) (absolute : loading.path.isAbsolute)
    (backed : loading.stage.Backed system.moments loading.path) (inTime : InTime system.files loading) :
    let after := loading.step system.files system.cache
    (after.1.path.isAbsolute ∧ after.1.stage.Backed system.moments after.1.path) ∧
      ∀ entry ∈ after.2.entries, Backed system.moments entry.1 entry.2 := by
  obtain ⟨path, filename, stage⟩ := loading
  cases stage with
  | dated stamp =>
      dsimp only [Loading.step]
      cases fresh : system.cache.fresh? path stamp with
      | some template => exact ⟨⟨absolute, True.intro⟩, sound.kept⟩
      | none => exact ⟨⟨absolute, backed⟩, sound.kept⟩
  | missed stamp =>
      dsimp only [Loading.step]
      cases compiled : compileFile system.files path filename stamp 0 with
      | error error => exact ⟨⟨absolute, True.intro⟩, sound.kept⟩
      | ok template =>
          have readable : stamp ≠ unreadableStamp := by
            rintro rfl
            obtain ⟨source, reads, -, -⟩ := compileFile_ok compiled
            exact inTime ⟨rfl, source, reads⟩
          exact ⟨⟨absolute, backed_of_compileFile sound.advances absolute backed readable compiled⟩, sound.kept⟩
  | compiled template =>
      refine ⟨⟨absolute, True.intro⟩, ?_⟩
      simp only [Loading.step, Cache.put]
      refine List.forall_mem_cons.mpr ⟨?_, fun entry member => sound.kept entry ((List.mem_filter.mp member).1)⟩
      obtain ⟨keyed, moment, seen, source, time, reads, made, timed, recent⟩ := backed
      exact ⟨keyed, moment, seen, source, time, reads, ⟨made.parsed, made.lines⟩, timed, recent⟩
  | finished outcome => exact ⟨⟨absolute, True.intro⟩, sound.kept⟩

theorem System.Sound.preserved (sound : system.Sound) (step : Step AlwaysGains InTime system after) : after.Sound := by
  cases step with
  | change representable gains =>
      refine ⟨List.forall_mem_cons.mpr ⟨representable, sound.representable⟩, gains, ?_, ?_⟩
      · exact fun entry member => (sound.kept entry member).later _
      · exact fun loading member => ⟨(sound.underWay loading member).1, (sound.underWay loading member).2.later _⟩
  | begin path properties =>
      refine ⟨sound.representable, sound.advances, sound.kept, ?_⟩
      refine List.forall_mem_append.mpr ⟨sound.underWay, List.forall_mem_singleton.mpr ?_⟩
      exact Loading.begin_backed system.files system.past path properties
  | @proceed i loading found inTime =>
      obtain ⟨absolute, backed⟩ := sound.underWay loading (List.mem_of_getElem? found)
      obtain ⟨underWay, kept⟩ := sound.step absolute backed inTime
      refine ⟨sound.representable, sound.advances, kept, fun other member => ?_⟩
      obtain member | rfl := List.mem_or_eq_of_mem_set member
      · exact sound.underWay other member
      · exact underWay

theorem System.Sound.reaches {meanwhile : System → Prop} (sound : system.Sound)
    (reaches : Reaches AlwaysGains InTime meanwhile system after) : after.Sound := by
  induction reaches with
  | refl => exact sound
  | tail _ step ih => exact ih.preserved step.1

theorem System.sound_start {files : FileSystem} (representable : files.Representable) :
    System.Sound { files } where
  representable := List.forall_mem_cons.mpr ⟨representable, fun _ member => absurd member List.not_mem_nil⟩
  advances _ member := absurd member List.not_mem_nil
  kept _ member := absurd member List.not_mem_nil
  underWay _ member := absurd member List.not_mem_nil

end Sound

/-! ## A loading whose file stays as it is -/

/-- What holds of a loading as long as its file stays as it is. -/
def Stage.Right (files : FileSystem) (key : Path) : Stage → Prop
  | .dated stamp => stamp = stampOf files key false
  | .missed stamp => stamp = stampOf files key false
  | .compiled template => ∃ source, files.readText key = .ok source ∧ template.From source
  | .finished (.ok template) => ∃ source, files.readText key = .ok source ∧ template.From source
  | .finished (.error _) => True

/-- A loading that began in a system, and how its file was since. -/
structure Tracked (base : System) (path : Path) (i : Nat) (system : System) : Prop where
  sound : system.Sound
  during : ∃ during, system.moments = during ++ base.moments ∧ ∀ moment ∈ during,
    moment.read path = base.files.read path ∧ moment.modified path = base.files.modified path
  loading : ∃ loading, system.loadings[i]? = some loading ∧ loading.path = path ∧
    loading.stage.Right base.files path

section Tracked

variable {base system after : System} {path : Path} {i : Nat} {loading : Loading}

theorem Tracked.undisturbed (tracked : Tracked base path i system) : Undisturbed base path system := by
  obtain ⟨during, moments, undisturbed⟩ := tracked.during
  cases during with
  | nil =>
      rw [Undisturbed, (List.cons.inj moments).1]
      exact ⟨rfl, rfl⟩
  | cons moment rest =>
      rw [Undisturbed, (List.cons.inj moments).1]
      exact undisturbed moment List.mem_cons_self

/-- What the cache gives out is right, as the entry was dated no earlier than the file. -/
theorem Tracked.right_of_fresh (tracked : Tracked base path i system) (sound : base.Sound) (absolute : path.isAbsolute)
    {template : Compiled} (fresh : system.cache.fresh? path (stampOf base.files path false) = some template) :
    ∃ source, base.files.readText path = .ok source ∧ template.From source := by
  obtain ⟨key, member, same, recent⟩ := Cache.mem_of_fresh? fresh
  obtain ⟨during, moments, undisturbed⟩ := tracked.during
  have backed := tracked.sound.kept _ member
  rw [stampOf, if_neg Bool.false_ne_true] at recent
  cases timed : base.files.modified path with
  | ok time =>
      rw [timed] at recent
      rw [moments] at backed
      exact backed.current sound.advances same absolute timed recent undisturbed
  | error error =>
      rw [timed] at recent
      exact absurd recent (Nat.not_le_of_lt (backed.stamp_lt tracked.sound.representable))

theorem Tracked.step_right (tracked : Tracked base path i system) (sound : base.Sound) (absolute : path.isAbsolute)
    (same : loading.path = path) (right : loading.stage.Right base.files path) :
    (loading.step system.files system.cache).1.path = path ∧
      (loading.step system.files system.cache).1.stage.Right base.files path := by
  obtain ⟨path', filename, stage⟩ := loading
  dsimp only at same right
  subst same
  cases stage with
  | dated stamp =>
      obtain rfl : stamp = stampOf base.files path' false := right
      dsimp only [Loading.step]
      cases fresh : system.cache.fresh? path' (stampOf base.files path' false) with
      | some template => exact ⟨rfl, tracked.right_of_fresh sound absolute fresh⟩
      | none => exact ⟨rfl, rfl⟩
  | missed stamp =>
      dsimp only [Loading.step]
      cases compiled : compileFile system.files path' filename stamp 0 with
      | error error => exact ⟨rfl, True.intro⟩
      | ok template =>
          obtain ⟨source, reads, made, -⟩ := compileFile_ok compiled
          exact ⟨rfl, source, (readText_congr tracked.undisturbed.1).symm.trans reads, made⟩
  | compiled template =>
      obtain ⟨source, reads, made⟩ := right
      exact ⟨rfl, source, reads, ⟨made.parsed, made.lines⟩⟩
  | finished outcome => exact ⟨rfl, right⟩

theorem Tracked.preserved (tracked : Tracked base path i system) (sound : base.Sound) (absolute : path.isAbsolute)
    (step : Step AlwaysGains InTime system after) (undisturbed : Undisturbed base path after) :
    Tracked base path i after := by
  have sound' := tracked.sound.preserved step
  obtain ⟨during, moments, since⟩ := tracked.during
  obtain ⟨loading, found, same, right⟩ := tracked.loading
  cases step with
  | @change next _ _ =>
      refine ⟨sound', ⟨next :: during, congrArg (next :: ·) moments, ?_⟩, loading, found, same, right⟩
      exact List.forall_mem_cons.mpr ⟨undisturbed, since⟩
  | begin path' properties =>
      refine ⟨sound', ⟨during, moments, since⟩, loading, ?_, same, right⟩
      rw [System.begin, List.getElem?_append_left (List.getElem?_eq_some_iff.mp found).1, found]
  | @proceed j other proceeding _ =>
      refine ⟨sound', ⟨during, moments, since⟩, ?_⟩
      by_cases own : j = i
      · subst own
        obtain rfl := Option.some.inj (found.symm.trans proceeding)
        refine ⟨_, List.getElem?_set_self (List.getElem?_eq_some_iff.mp found).1, ?_⟩
        exact tracked.step_right sound absolute same right
      · exact ⟨loading, (List.getElem?_set_ne own).trans found, same, right⟩

/-- A loading that begins in a system, that does look at the time of its file, and that is tracked from then on. -/
theorem System.Sound.tracked_begin (sound : base.Sound) (path : Path) {properties : Properties}
    (checks : properties.reuse = false) :
    Tracked base (path.absolute base.files.here) base.loadings.length (base.begin path properties) := by
  refine ⟨sound.preserved (.begin path properties), ⟨[], rfl, fun _ member => absurd member List.not_mem_nil⟩, _,
    List.getElem?_concat_length, rfl, ?_⟩
  dsimp only [Loading.begin]
  split
  · exact True.intro
  · rw [checks]
    exact rfl

theorem Tracked.reaches (tracked : Tracked base path i system) (sound : base.Sound) (absolute : path.isAbsolute)
    (ran : Reaches AlwaysGains InTime (Undisturbed base path) system after) : Tracked base path i after := by
  induction ran with
  | refl => exact tracked
  | tail _ step ih => exact ih.preserved sound absolute step.1 step.2

end Tracked

/-- A loading during which its file stays as it is gives what the file compiles to, whatever changed before and whatever
other loadings do meanwhile. -/
theorem undisturbed_loading_current {files : FileSystem} (representable : files.Representable) {system later : System}
    (reached : Reaches AlwaysGains InTime (fun _ => True) { files } system) (path : Path) {properties : Properties}
    (checks : properties.reuse = false)
    (ran : Reaches AlwaysGains InTime (Undisturbed system (path.absolute system.files.here))
      (system.begin path properties) later)
    {loading : Loading} (found : later.loadings[system.loadings.length]? = some loading) {template : Compiled}
    (gives : loading.stage = .finished (.ok template)) :
    ∃ source, later.files.readText (path.absolute system.files.here) = .ok source ∧ template.From source := by
  have sound := (System.sound_start representable).reaches reached
  have absolute := Path.isAbsolute_absolute path (Path.isAbsolute_location system.files.workingDirectory)
  have tracked := (sound.tracked_begin path checks).reaches sound absolute ran
  obtain ⟨loading', found', -, right⟩ := tracked.loading
  obtain rfl := Option.some.inj (found.symm.trans found')
  rw [gives] at right
  obtain ⟨source, reads, made⟩ := right
  exact ⟨source, (readText_congr tracked.undisturbed.1).trans reads, made⟩

/-- A template that was read after its file had no time stays in the cache for ever: it is dated later than any file. -/
theorem load_of_unreadableStamp {files : FileSystem} (representable : files.Representable) {cache : Cache} {path : Path}
    (some_text : path.text.isEmpty = false) {template : Compiled}
    (known : cache.get? (path.absolute files.here) = some template) (undated : template.stamp = unreadableStamp)
    (properties : Properties) : load files cache path properties = .ok (template, cache) := by
  have at_most : stampOf files (path.absolute files.here) properties.reuse ≤ template.stamp := by
    rw [undated, stampOf]
    cases properties.reuse with
    | true => exact Nat.zero_le _
    | false =>
        cases timed : files.modified (path.absolute files.here) with
        | error error => exact Nat.le_refl _
        | ok time => exact Nat.le_of_lt (stampOfTime_lt representable timed)
  have fresh : cache.fresh? (path.absolute files.here) (stampOf files (path.absolute files.here) properties.reuse) =
      some template := by
    rw [Cache.fresh?, known, Option.filter_some, if_pos (decide_eq_true at_most)]
  simp only [load, loadAcross, some_text, Bool.false_eq_true, if_false, fresh]

/-! ## One file and two loadings -/

section Sample

variable {mayChange : List FileSystem → FileSystem → Prop} {mayProceed : FileSystem → Loading → Prop}
  {system : System} {loading : Loading} {i : Nat} {stamp : Stamp} {template : Compiled}

theorem Step.proceed_to {next : Loading} {cache : Cache} (found : system.loadings[i]? = some loading)
    (may : mayProceed system.files loading) (goes : loading.step system.files system.cache = (next, cache)) :
    Step mayChange mayProceed system { system with cache, loadings := system.loadings.set i next } := by
  have step : Step mayChange mayProceed system (system.proceed i loading) := .proceed found may
  rwa [System.proceed, goes] at step

/-- A loading that finds nothing fresh, and that nothing comes between. -/
theorem exists_reaches_read (mayChange : List FileSystem → FileSystem → Prop) (meanwhile : System → Prop) {path : Path}
    {filename : Option String} (found : system.loadings[i]? = some ⟨path, filename, .dated stamp⟩)
    (stale : system.cache.fresh? path stamp = none)
    (compiled : compileFile system.files path filename stamp 0 = .ok template)
    (may : ∀ stage ∈ [.dated stamp, .missed stamp, .compiled template], mayProceed system.files ⟨path, filename, stage⟩)
    (holds : ∀ other : System, other.files = system.files → meanwhile other) :
    ∃ after template', Reaches mayChange mayProceed meanwhile system after ∧ after.files = system.files ∧
      after.past = system.past ∧ template'.nodes = template.nodes ∧ template'.stamp = template.stamp ∧
      after.cache = { system.cache.put path template' with compiledFiles := system.cache.compiledFiles + 1 } ∧
      after.loadings = system.loadings.set i ⟨path, filename, .finished (.ok template')⟩ := by
  have bound := (List.getElem?_eq_some_iff.mp found).1
  have look : Loading.step system.files system.cache ⟨path, filename, .dated stamp⟩ =
      (⟨path, filename, .missed stamp⟩, system.cache) := by
    simp only [Loading.step, stale]
  have read : Loading.step system.files system.cache ⟨path, filename, .missed stamp⟩ =
      (⟨path, filename, .compiled template⟩, system.cache) := by
    simp only [Loading.step, compiled]
  have first : Step mayChange mayProceed system _ := .proceed_to found (may _ (by simp)) look
  have second : Step mayChange mayProceed
      { system with loadings := system.loadings.set i ⟨path, filename, .missed stamp⟩ } _ :=
    .proceed_to (List.getElem?_set_self bound) (may _ (by simp)) read
  have third : Step mayChange mayProceed
      { system with loadings := system.loadings.set i ⟨path, filename, .compiled template⟩ } _ :=
    .proceed (List.getElem?_set_self bound) (may _ (by simp))
  rw [List.set_set] at second
  refine ⟨_, { template with serial := system.cache.compiledFiles + 1 },
    ((Relation.ReflTransGen.refl.tail ⟨first, holds _ rfl⟩).tail ⟨second, holds _ rfl⟩).tail ⟨third, holds _ rfl⟩,
    rfl, rfl, rfl, rfl, rfl, ?_⟩
  rw [System.proceed, List.set_set]
  rfl

theorem absolute_sample (text : String) (time : Time) :
    Path.absolute ⟨"/t"⟩ (sampleFiles text time).here = ⟨"/t"⟩ := by
  change Path.absolute ⟨"/t"⟩ (Location.path []) = _
  decide +kernel

theorem find_sample (text : String) (time : Time) :
    (sampleFiles text time).find true ⟨"/t"⟩ = .ok (["t"], .file (Text.Utf8.encode text) time) := rfl

theorem stampOf_sample (text : String) (time : Time) :
    stampOf (sampleFiles text time) ⟨"/t"⟩ false = stampOfTime time := by
  rw [stampOf, FileSystem.modified_of_find (find_sample text time)]
  rfl

/-- The two contents of the file. -/
def sampleTexts : List String := ["A", "B"]

theorem readText_sample {text : String} (known : text ∈ sampleTexts) (time : Time) :
    (sampleFiles text time).readText ⟨"/t"⟩ = .ok text := by
  have decodes : ∀ text ∈ sampleTexts, Text.Utf8.decode? (Text.Utf8.encode text) = some text := by decide +kernel
  exact FileSystem.readText_of_read (FileSystem.read_of_find (find_sample text time)) (decodes text known)

theorem exists_compileFile_sample {text : String} (known : text ∈ sampleTexts) (time : Time) (stamp : Stamp) :
    ∃ template, compileFile (sampleFiles text time) ⟨"/t"⟩ none stamp 0 = .ok template := by
  have parses : ∀ text ∈ sampleTexts, (parse text.toList).toBool := by decide +kernel
  rw [compileFile, readText_sample known]
  cases parsed : parse text.toList with
  | error error =>
      have parses := parses text known
      rw [parsed] at parses
      cases parses
  | ok nodes =>
      simp only [compile, parsed, bind, Except.bind]
      exact ⟨_, rfl⟩

/-- A loading of the file begins with its time. -/
theorem begin_sample (text : String) (time : Time) :
    Loading.begin (sampleFiles text time) ⟨"/t"⟩ {} = ⟨⟨"/t"⟩, none, .dated (stampOfTime time)⟩ := by
  have some_text : (⟨"/t"⟩ : Path).text.isEmpty = false := by decide +kernel
  simp only [Loading.begin, absolute_sample, some_text, Bool.false_eq_true, if_false, stampOf_sample]

theorem fresh?_put (cache : Cache) (count : Nat) (path : Path) (stamp : Stamp) (template : Compiled) :
    Cache.fresh? { cache.put path template with compiledFiles := count } path stamp =
      if stamp ≤ template.stamp then some template else none := by
  simp [Cache.fresh?, Cache.get?, Cache.put, Path.same, Option.filter_some]

theorem inTime_of_ne {files : FileSystem} (other : loading.stage ≠ .missed unreadableStamp) : InTime files loading :=
  fun overtaken => other overtaken.1

theorem inTime_of_lt {files : FileSystem} {path : Path} (dated : stamp < unreadableStamp) :
    ∀ stage ∈ [.dated stamp, .missed stamp, .compiled template], InTime files ⟨path, none, stage⟩ := by
  intro stage member
  refine inTime_of_ne ?_
  simp only [List.mem_cons, List.not_mem_nil, or_false] at member
  obtain rfl | rfl | rfl := member <;> simp [Nat.ne_of_lt dated]

/-- The file changes between the two times that the first loading looks at it, and what that one stores is dated before the
change. The second loading reads the file again. -/
theorem undisturbed_loading_current_race :
    ∃ (system later : System) (loading : Loading) (template : Compiled),
      (sampleFiles "A" 5).Representable ∧
      Reaches AlwaysGains InTime (fun _ => True) { files := sampleFiles "A" 5 } system ∧
      (∃ stored, system.cache.get? ⟨"/t"⟩ = some stored ∧ stored.stamp = 5) ∧
      Reaches AlwaysGains InTime (Undisturbed system (Path.absolute ⟨"/t"⟩ system.files.here))
        (system.begin ⟨"/t"⟩ {}) later ∧
      later.loadings[system.loadings.length]? = some loading ∧ loading.stage = .finished (.ok template) ∧
      ∃ source, later.files.readText (Path.absolute ⟨"/t"⟩ system.files.here) = .ok source ∧ template.From source := by
  have representable := sampleFiles_representable "A" (show (5 : Time) < FileSystem.clockEnd by decide)
  have knownB : "B" ∈ sampleTexts := by decide
  obtain ⟨template, compiled⟩ := exists_compileFile_sample knownB 10 5
  obtain ⟨-, -, -, stamped⟩ := compileFile_ok compiled
  have begun : Step AlwaysGains InTime { files := sampleFiles "A" 5 } _ := .begin ⟨"/t"⟩ {}
  have changes : Step AlwaysGains InTime (System.begin { files := sampleFiles "A" 5 } ⟨"/t"⟩ {}) _ :=
    .change (sampleFiles_representable "B" (show (10 : Time) < FileSystem.clockEnd by decide)) (by
      intro earlier member
      rw [List.mem_singleton.mp member]
      exact sampleFiles_gains (by decide) (by decide))
  have at_first : ((System.begin { files := sampleFiles "A" 5 } ⟨"/t"⟩ {}).change (sampleFiles "B" 10)).loadings[0]? =
      some ⟨⟨"/t"⟩, none, .dated 5⟩ := congrArg some (begin_sample "A" 5)
  obtain ⟨loaded, stored, reaches, files, -, -, stamp, cache, -⟩ :=
    exists_reaches_read AlwaysGains (fun _ => True) at_first rfl compiled (inTime_of_lt (by decide)) fun _ _ => True.intro
  obtain ⟨past, files', cache', loadings⟩ := loaded
  obtain rfl : files' = sampleFiles "B" 10 := files
  -- what was stored is dated too early for the second loading
  have stale : cache'.fresh? ⟨"/t"⟩ 10 = none := by
    rw [show cache' = _ from cache, fresh?_put, stamp, stamped]
    rfl
  have there : cache'.get? ⟨"/t"⟩ = some stored := by
    rw [show cache' = _ from cache]
    simp [Cache.get?, Cache.put, Path.same]
  obtain ⟨template', compiled'⟩ := exists_compileFile_sample knownB 10 10
  have at_second : (System.begin ⟨past, sampleFiles "B" 10, cache', loadings⟩ ⟨"/t"⟩ {}).loadings[
      loadings.length]? = some ⟨⟨"/t"⟩, none, .dated 10⟩ :=
    List.getElem?_concat_length.trans (congrArg some (begin_sample "B" 10))
  obtain ⟨later, given, ran, filesLater, -, -, -, -, finished⟩ :=
    exists_reaches_read AlwaysGains
      (Undisturbed ⟨past, sampleFiles "B" 10, cache', loadings⟩ (Path.absolute ⟨"/t"⟩ (sampleFiles "B" 10).here))
      at_second stale compiled' (inTime_of_lt (by decide)) fun other same => by rw [Undisturbed, same]; exact ⟨rfl, rfl⟩
  have bound := (List.getElem?_eq_some_iff.mp at_second).1
  have found : later.loadings[loadings.length]? = some ⟨⟨"/t"⟩, none, .finished (.ok given)⟩ := by
    rw [finished]
    exact List.getElem?_set_self bound
  have reached := ((Relation.ReflTransGen.refl.tail ⟨begun, True.intro⟩).tail ⟨changes, True.intro⟩).trans reaches
  exact ⟨_, later, _, given, representable, reached, ⟨stored, there, stamp.trans stamped⟩, ran, found, rfl,
    undisturbed_loading_current representable reached ⟨"/t"⟩ rfl ran found rfl⟩

/-- What the claim of freshness comes to under some changes and some steps. -/
def NeverPoisoned (mayChange : List FileSystem → FileSystem → Prop) (mayProceed : FileSystem → Loading → Prop) : Prop :=
  ∀ files : FileSystem, files.Representable → ∀ (system later : System) (path : Path) (properties : Properties)
    (loading : Loading) (template : Compiled),
    Reaches mayChange mayProceed (fun _ => True) { files } system → properties.reuse = false →
    Reaches mayChange mayProceed (Undisturbed system (path.absolute system.files.here))
      (system.begin path properties) later →
    later.loadings[system.loadings.length]? = some loading → loading.stage = .finished (.ok template) →
    ∃ source, later.files.readText (path.absolute system.files.here) = .ok source ∧ template.From source

/-- A loading gives the template of an earlier content if the file may get another content with no later stamp. -/
theorem not_neverPoisoned (before after : Time) (early : before < FileSystem.clockEnd)
    (dated : stampOfTime after ≤ stampOfTime before)
    (may : ∀ files (loading : Loading), loading.stage ≠ .missed unreadableStamp → mayProceed files loading)
    (changes : ∀ system : System, system.past = [] → system.files = sampleFiles "A" before →
      ∃ changed : System, Reaches mayChange mayProceed (fun _ => True) system changed ∧
        changed.files = sampleFiles "B" after ∧ changed.cache = system.cache ∧ changed.loadings = system.loadings) :
    ¬ NeverPoisoned mayChange mayProceed := by
  intro never
  have representable := sampleFiles_representable "A" early
  have knownA : "A" ∈ sampleTexts := by decide
  obtain ⟨template, compiled⟩ := exists_compileFile_sample knownA before (stampOfTime before)
  obtain ⟨source, reads, made, stamped⟩ := compileFile_ok compiled
  rw [readText_sample knownA] at reads
  cases reads
  have readable : stampOfTime before ≠ unreadableStamp := by
    have timed := FileSystem.modified_of_find (find_sample "A" before)
    exact Nat.ne_of_lt (stampOfTime_lt representable timed)
  have mayRead : ∀ stage ∈ [.dated (stampOfTime before), .missed (stampOfTime before), .compiled template],
      mayProceed (sampleFiles "A" before) ⟨⟨"/t"⟩, none, stage⟩ := by
    intro stage member
    refine may _ _ ?_
    simp only [List.mem_cons, List.not_mem_nil, or_false] at member
    obtain rfl | rfl | rfl := member <;> simp [readable]
  -- the first loading reads the file as it is at first
  have begun : Step mayChange mayProceed { files := sampleFiles "A" before } _ := .begin ⟨"/t"⟩ {}
  have at_first : (System.begin { files := sampleFiles "A" before } ⟨"/t"⟩ {}).loadings[0]? =
      some ⟨⟨"/t"⟩, none, .dated (stampOfTime before)⟩ := congrArg some (begin_sample "A" before)
  obtain ⟨loaded, stored, reaches, files, past, nodes, stamp, cache, -⟩ :=
    exists_reaches_read mayChange (fun _ => True) at_first rfl compiled mayRead fun _ _ => True.intro
  -- the second one finds the template in the cache
  obtain ⟨⟨past', files', cache', loadings'⟩, reaches', rfl, rfl, -⟩ := changes loaded past files
  have fresh : loaded.cache.fresh? ⟨"/t"⟩ (stampOfTime after) = some stored := by
    rw [cache, fresh?_put, if_pos (by rw [stamp, stamped]; exact dated)]
  have hit : Loading.step (sampleFiles "B" after) loaded.cache ⟨⟨"/t"⟩, none, .dated (stampOfTime after)⟩ =
      (⟨⟨"/t"⟩, none, .finished (.ok stored)⟩, loaded.cache) := by
    simp only [Loading.step, fresh]
  have at_second : (System.begin ⟨past', sampleFiles "B" after, loaded.cache, loadings'⟩ ⟨"/t"⟩ {}).loadings[
      loadings'.length]? = some ⟨⟨"/t"⟩, none, .dated (stampOfTime after)⟩ :=
    List.getElem?_concat_length.trans (congrArg some (begin_sample "B" after))
  have finishes : Step mayChange mayProceed
      (System.begin ⟨past', sampleFiles "B" after, loaded.cache, loadings'⟩ ⟨"/t"⟩ {}) _ :=
    .proceed_to at_second (may _ _ (by simp)) hit
  have bound := (List.getElem?_eq_some_iff.mp at_second).1
  obtain ⟨source, reads, made'⟩ := never _ representable _ _ ⟨"/t"⟩ {} _ stored
    (((Relation.ReflTransGen.refl.tail ⟨begun, True.intro⟩).trans reaches).trans reaches') rfl
    (Relation.ReflTransGen.refl.tail ⟨finishes, rfl, rfl⟩) (List.getElem?_set_self bound) rfl
  change (sampleFiles "B" after).readText (Path.absolute ⟨"/t"⟩ (sampleFiles "B" after).here) = _ at reads
  rw [absolute_sample, readText_sample (by decide)] at reads
  cases reads
  have differ : (parse "A".toList).toOption.map (·.map Node.text?) ≠ (parse "B".toList).toOption.map (·.map Node.text?) := by
    decide +kernel
  rw [made.parsed, made'.parsed, nodes] at differ
  exact differ rfl

/-- Every change of what a path reads as gives it a time after all that it had. -/
def ReadsGain (past : List FileSystem) (next : FileSystem) : Prop :=
  ∀ latest ∈ past.head?, ∀ path, latest.read path ≠ next.read path →
    ∀ time, next.modified path = .ok time → ∀ earlier ∈ past, ∀ before, earlier.modified path = .ok before → before < time

/-- A path that does not read as it did at an earlier moment has a time after the one that it had at that moment. -/
def AlwaysLater (past : List FileSystem) (next : FileSystem) : Prop :=
  ∀ earlier ∈ past, ∀ path, earlier.read path ≠ next.read path → ∀ time, next.modified path = .ok time →
    ∀ before, earlier.modified path = .ok before → before < time

theorem sampleFiles_later {before after : Time} (later : before < after) (path : Path) {time time' : Time}
    (different : (sampleFiles "A" before).read path ≠ (sampleFiles "B" after).read path)
    (timed : (sampleFiles "B" after).modified path = .ok time')
    (timedBefore : (sampleFiles "A" before).modified path = .ok time) : time < time' := by
  obtain ⟨same, -⟩ | ⟨⟨-, timedThen⟩, -, timedNow⟩ :=
    FileSystem.put_file_cases (sampleFiles_file "A" before) (Text.Utf8.encode "B") after path
  · exact absurd same.symm different
  · rw [timedBefore] at timedThen
    cases timedThen
    cases timed.symm.trans timedNow
    exact later

/-- The file changes and gets its time back afterwards. -/
theorem exists_reaches_back (mayProceed : FileSystem → Loading → Prop)
    (changes : mayChange [sampleFiles "A" 5] (sampleFiles "B" 10))
    (touches : mayChange [sampleFiles "B" 10, sampleFiles "A" 5] (sampleFiles "B" 5)) (system : System)
    (past : system.past = []) (files : system.files = sampleFiles "A" 5) :
    ∃ changed : System, Reaches mayChange mayProceed (fun _ => True) system changed ∧
      changed.files = sampleFiles "B" 5 ∧ changed.cache = system.cache ∧ changed.loadings = system.loadings := by
  obtain ⟨past', files', cache, loadings⟩ := system
  obtain rfl : past' = [] := past
  obtain rfl : files' = sampleFiles "A" 5 := files
  have first : Step mayChange mayProceed ⟨[], sampleFiles "A" 5, cache, loadings⟩ _ :=
    .change (sampleFiles_representable "B" (by decide)) changes
  have second : Step mayChange mayProceed ⟨[sampleFiles "A" 5], sampleFiles "B" 10, cache, loadings⟩ _ :=
    .change (sampleFiles_representable "B" (by decide)) touches
  exact ⟨_, (Relation.ReflTransGen.refl.tail ⟨first, True.intro⟩).tail ⟨second, True.intro⟩, rfl, rfl, rfl⟩

/-- Neither a change that is hidden by a time that went back nor a change before the epoch is noticed. -/
theorem poisoned_by_time :
    ¬ NeverPoisoned ReadsGain (fun _ _ => True) ∧ ¬ NeverPoisoned ChangesGain InTime ∧
      ¬ NeverPoisoned AlwaysLater InTime := by
  have unread (past : List FileSystem) (path : Path) :
      ∀ latest ∈ (sampleFiles "B" 10 :: past).head?, latest.read path = (sampleFiles "B" 5).read path := by
    rintro latest ⟨⟩
    exact sampleFiles_read "B" 10 5 path
  refine ⟨not_neverPoisoned 5 5 (by decide) (Nat.le_refl _) (fun _ _ _ => True.intro) (exists_reaches_back _ ?_ ?_),
    not_neverPoisoned 5 5 (by decide) (Nat.le_refl _) (fun _ _ => inTime_of_ne) (exists_reaches_back _ ?_ ?_),
    not_neverPoisoned (-5) (-3) (by decide) (by decide) (fun _ _ => inTime_of_ne) ?_⟩
  · rintro latest ⟨⟩ path different time timed earlier member before known
    rw [List.mem_singleton.mp member] at known
    exact sampleFiles_later (by decide) path different timed known
  · intro latest member path different
    exact absurd (unread _ path latest member) different
  · rintro latest ⟨⟩ path different time timed
    have gains : FileSystem.Advances (sampleFiles "A" 5) (sampleFiles "B" 10) :=
      sampleFiles_gains (by decide) (by decide)
    simpa using gains path different time timed
  · intro latest member path different
    exact absurd (unread _ path latest member) different
  · rintro ⟨past, files, cache, loadings⟩ rfl rfl
    have step : Step AlwaysLater InTime ⟨[], sampleFiles "A" (-5), cache, loadings⟩
        ⟨[sampleFiles "A" (-5)], sampleFiles "B" (-3), cache, loadings⟩ := by
      refine .change (sampleFiles_representable "B" (by decide)) ?_
      intro earlier member path different time timed before known
      rw [List.mem_singleton.mp member] at different known
      exact sampleFiles_later (by decide) path different timed known
    exact ⟨_, Relation.ReflTransGen.refl.tail ⟨step, True.intro⟩, rfl, rfl, rfl⟩

end Sample

end StaticSite.Template
