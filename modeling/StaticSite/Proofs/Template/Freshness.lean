import StaticSite.Proofs.FileSystem.Editing
import StaticSite.Proofs.FileSystem.Spelling
import StaticSite.Proofs.Template.Trace

/-!
Freshness of cached templates. Between the operations of a session files change. A cached template is
what its file compiled to at one of the moments that the session has seen, and its stamp is not later
than the time that the file had then; so it is only given out while the file reads as it did.
-/

namespace StaticSite

namespace FileSystem

/-- The first moment that a clock with seconds of 64 bits cannot show. -/
def clockEnd : Time := Time.ofSeconds 9223372036854775808

def Representable (fs : FileSystem) : Prop := ∀ path time, fs.modified path = .ok time → time < clockEnd

/-- A path that reads differently later has a time after the epoch then, and after the one it had. -/
def Advances (earlier later : FileSystem) : Prop :=
  ∀ path, earlier.read path ≠ later.read path → ∀ time, later.modified path = .ok time →
    0 < time ∧ ∀ before, earlier.modified path = .ok before → before < time

theorem advances_refl (fs : FileSystem) : Advances fs fs :=
  fun _ different => absurd rfl different

theorem advances_put_file {fs : FileSystem} {location : Location} {content : Bytes} {time : Time}
    (file : fs.get? location = some (.file content time)) (content' : Bytes) {time' : Time}
    (positive : 0 < time') (later : time < time') :
    Advances fs (fs.put location (.file content' time')) := by
  intro path different now timed
  rcases put_file_cases file content' time' path with ⟨same, -⟩ | ⟨⟨-, timedBefore⟩, -, timedNow⟩
  · exact absurd same.symm different
  · rw [timed] at timedNow
    cases timedNow
    refine ⟨positive, fun before known => ?_⟩
    rw [timedBefore] at known
    cases known
    exact later

/-! ## Two spellings of a path -/

/-- If one spelling is the text of a file at a moment and the other has a time later, the plain spelling
tells both. -/
theorem plain_of_same {earlier later : FileSystem} {key path : Path} (keyed : key.isAbsolute)
    (absolute : path.isAbsolute) (same : key.same path) {source : String}
    (reads : earlier.readText key = .ok source) {time : Time} (timed : later.modified path = .ok time) :
    ∃ content before, Text.Utf8.decode? content = some source ∧
      earlier.read path.plain = .ok content ∧ earlier.modified path.plain = .ok before ∧
      earlier.modified key = .ok before ∧ later.modified path.plain = .ok time ∧
      later.read path.plain = later.read path := by
  obtain ⟨location, content, before, found, decoded⟩ := exists_find_of_readText reads
  have named := names_ne_nil keyed found
  have foundPlainly := find_plain keyed named found
  rw [Path.plain_eq_of_same same] at foundPlainly
  obtain ⟨entry, foundLater⟩ := exists_find_of_modified timed
  have namedSame : path.names ≠ [] := by
    rwa [Path.names, ← eq_of_beq same]
  have laterPlainly := find_plain absolute namedSame foundLater
  refine ⟨content, before, decoded, read_of_find foundPlainly, modified_of_find foundPlainly,
    modified_of_find found, ?_, ?_⟩
  · rw [← timed, modified, modified, laterPlainly, foundLater]
  · rw [read, read, laterPlainly, foundLater]

end FileSystem

namespace Template

/-! ## What a load gives -/

/-- Whether a template is what a source compiles to, under whatever name. -/
structure Compiled.From (template : Compiled) (source : String) : Prop where
  parsed : parse source.toList = .ok template.nodes
  lines : template.lines = .ofText source.toList

theorem compile_ok {source filename : String} {template : Compiled}
    (compiled : compile source filename = .ok template) :
    template.From source ∧ template.filename = filename := by
  unfold compile at compiled
  dsimp only at compiled
  split at compiled <;> cases compiled
  rename_i parsed
  exact ⟨⟨parsed, rfl⟩, rfl⟩

section Load

variable {files : FileSystem} {cache after : Cache} {path : Path} {properties : Properties}
  {template : Compiled}

theorem compileFile_ok {filename : Option String} {stamp : Stamp} {serial : Nat}
    (compiled : compileFile files path filename stamp serial = .ok template) :
    ∃ source, files.readText path = .ok source ∧ template.From source ∧ template.stamp = stamp := by
  unfold compileFile at compiled
  cases reads : files.readText path with
  | error error => simp [reads] at compiled
  | ok source =>
      simp only [reads] at compiled
      cases found : compile source (filename.getD path.text) with
      | error error => simp [found, bind, Except.bind] at compiled
      | ok template =>
          rw [found] at compiled
          cases compiled
          obtain ⟨⟨parsed, lines⟩, -⟩ := compile_ok found
          exact ⟨source, rfl, ⟨parsed, lines⟩, rfl⟩

/-- A template is given from the cache as it is, or it is compiled from what its file reads as now. -/
theorem load_cases (loaded : load files cache path properties = .ok (template, after)) :
    let key := path.absolute files.here
    (after = cache ∧ cache.get? key = some template ∧
        stampOf files key properties.reuse ≤ template.stamp) ∨
      ((∃ source, files.readText key = .ok source ∧ template.From source) ∧
        template.stamp = stampOf files key properties.reuse ∧
        after.entries = (cache.put key template).entries) := by
  intro key
  unfold load loadAcross at loaded
  split at loaded
  · cases loaded
  · dsimp only at loaded
    cases fresh : cache.fresh? key (stampOf files key properties.reuse) with
    | some found =>
        rw [fresh] at loaded
        cases loaded
        obtain ⟨known, recent⟩ := Option.filter_eq_some_iff.mp fresh
        exact .inl ⟨rfl, known, by simpa using recent⟩
    | none =>
        right
        rw [fresh] at loaded
        dsimp only at loaded
        cases compiled : compileFile files key properties.filename
            (stampOf files key properties.reuse) (cache.compiledFiles + 1) with
        | error error => simp [key, compiled] at loaded
        | ok found =>
            rw [compiled] at loaded
            cases loaded
            obtain ⟨source, reads, made, stamp⟩ := compileFile_ok compiled
            exact ⟨⟨source, reads, made⟩, stamp, rfl⟩

end Load

theorem stampOfTime_lt {fs : FileSystem} (representable : fs.Representable) {path : Path} {time : Time}
    (timed : fs.modified path = .ok time) : stampOfTime time < unreadableStamp := by
  have bound (i : Int) (early : i < 9223372036854775808 * 1000000000) :
      i.toNat < 340282366920938463463374607431768211455 := by
    omega
  exact bound time (representable path time timed)

theorem stampOfTime_lt_stampOfTime {before after : Time} (positive : 0 < after) (later : before < after) :
    stampOfTime before < stampOfTime after := by
  rw [stampOfTime, stampOfTime]
  exact (Int.toNat_lt_toNat positive).mpr later

/-! ## Sessions -/

/-- The template was compiled from what the file read as at one of some moments, and its stamp tells
the time that the file had at that moment or no time at all. -/
def Kept (moments : List FileSystem) (key : Path) (template : Compiled) : Prop :=
  key.isAbsolute ∧ ∃ moment ∈ moments,
    (∃ source, moment.readText key = .ok source ∧ parse source.toList = .ok template.nodes) ∧
      (template.stamp = 0 ∨
        ∃ time, moment.modified key = .ok time ∧ template.stamp = stampOfTime time)

/-- What holds of the files and the cache throughout a session. -/
structure Standing (past : List FileSystem) (files : FileSystem) (cache : Cache) : Prop where
  representable : ∀ moment ∈ files :: past, moment.Representable
  advances : ∀ earlier ∈ past, FileSystem.Advances earlier files
  kept : ∀ entry ∈ cache.entries, Kept (files :: past) entry.1 entry.2

namespace Standing

variable {past : List FileSystem} {files : FileSystem} {cache after : Cache} {path : Path}
  {properties : Properties} {template : Compiled}

theorem change (standing : Standing past files cache) {next : FileSystem}
    (representable : next.Representable)
    (advances : ∀ earlier ∈ files :: past, FileSystem.Advances earlier next) :
    Standing (files :: past) next cache where
  representable := List.forall_mem_cons.mpr ⟨representable, standing.representable⟩
  advances := advances
  kept := by
    intro entry member
    obtain ⟨absolute, moment, seen, compiled⟩ := standing.kept entry member
    exact ⟨absolute, moment, List.mem_cons_of_mem next seen, compiled⟩

theorem load (standing : Standing past files cache)
    (loaded : Template.load files cache path properties = .ok (template, after)) :
    Standing past files after := by
  refine ⟨standing.representable, standing.advances, ?_⟩
  rcases load_cases loaded with ⟨rfl, -, -⟩ | ⟨⟨source, reads, made⟩, stamped, entries⟩
  · exact standing.kept
  · rw [entries, Cache.put]
    refine List.forall_mem_cons.mpr ⟨⟨?_, files, by simp, ⟨source, reads, made.parsed⟩, ?_⟩, ?_⟩
    · exact Path.isAbsolute_absolute path (Path.isAbsolute_location files.workingDirectory)
    · rw [stamped, stampOf]
      cases properties.reuse with
      | true => exact .inl rfl
      | false =>
          obtain ⟨location, content, time, found, -⟩ := FileSystem.exists_find_of_readText reads
          have timed := FileSystem.modified_of_find found
          exact .inr ⟨time, timed, by rw [timed]; rfl⟩
    · exact fun entry member => standing.kept entry ((List.mem_filter.mp member).1)

theorem stamp_lt (standing : Standing past files cache) {key : Path}
    (member : (key, template) ∈ cache.entries) : template.stamp < unreadableStamp := by
  obtain ⟨-, moment, seen, -, stamped⟩ := standing.kept _ member
  rcases stamped with stamped | ⟨time, timed, stamped⟩
  · rw [stamped]
    decide
  · rw [stamped]
    exact stampOfTime_lt (standing.representable moment seen) timed

/-- An entry that is not older than its file is what the file compiles to. -/
theorem current (standing : Standing past files cache) {key : Path}
    (member : (key, template) ∈ cache.entries) (same : key.same path) (absolute : path.isAbsolute)
    {time : Time} (timed : files.modified path = .ok time) (recent : stampOfTime time ≤ template.stamp) :
    ∃ source, files.readText path = .ok source ∧ parse source.toList = .ok template.nodes := by
  obtain ⟨keyed, moment, seen, ⟨source, reads, parsed⟩, stamped⟩ := standing.kept _ member
  obtain ⟨content, before, decoded, readBefore, timedBefore, keyTimed, timedNow, readNow⟩ :=
    FileSystem.plain_of_same keyed absolute same reads timed
  by_cases unchanged : moment.read path.plain = files.read path.plain
  · refine ⟨source, FileSystem.readText_of_read ?_ decoded, parsed⟩
    rw [← readNow, ← unchanged, readBefore]
  · have advances : FileSystem.Advances moment files := by
      rcases List.mem_cons.mp seen with rfl | seen
      · exact FileSystem.advances_refl moment
      · exact standing.advances moment seen
    obtain ⟨positive, later⟩ := advances path.plain unchanged time timedNow
    refine absurd recent (Nat.not_le.mpr ?_)
    rcases stamped with stamped | ⟨stamp, keyStamp, stamped⟩
    · rw [stamped]
      exact Int.pos_iff_toNat_pos.mp positive
    · rw [keyTimed] at keyStamp
      cases keyStamp
      rw [stamped]
      exact stampOfTime_lt_stampOfTime positive (later before timedBefore)

theorem fresh (standing : Standing past files cache) (checks : properties.reuse = false)
    (loaded : Template.load files cache path properties = .ok (template, after)) :
    ∃ source, files.readText (path.absolute files.here) = .ok source ∧
      parse source.toList = .ok template.nodes := by
  have absolute : (path.absolute files.here).isAbsolute :=
    Path.isAbsolute_absolute path (Path.isAbsolute_location files.workingDirectory)
  rcases load_cases loaded with ⟨-, known, recent⟩ | ⟨⟨source, reads, made⟩, -, -⟩
  · obtain ⟨⟨key, found⟩, picked, rfl⟩ := Option.map_eq_some_iff.mp known
    have member := List.mem_of_find?_eq_some picked
    have same := List.find?_some picked
    rw [stampOf, checks, if_neg Bool.false_ne_true] at recent
    cases timed : files.modified (path.absolute files.here) with
    | ok time =>
        rw [timed] at recent
        exact standing.current member same absolute timed recent
    | error error =>
        rw [timed] at recent
        exact absurd (standing.stamp_lt member) (Nat.not_lt.mpr recent)
  · exact ⟨source, reads, made.parsed⟩

end Standing

/-- Sessions with one cache, at the beginning an empty one: the file systems that were, the latest
first, the files as they are, and the cache. -/
inductive Session (shared : Shared) (mayChange : List FileSystem → FileSystem → Prop) :
    List FileSystem → FileSystem → Cache → Prop
  | start {files : FileSystem} : files.Representable → Session shared mayChange [] files {}
  | change {past : List FileSystem} {files next : FileSystem} {cache : Cache} :
    Session shared mayChange past files cache → next.Representable → mayChange (files :: past) next →
      Session shared mayChange (files :: past) next cache
  | load {past : List FileSystem} {files : FileSystem} {run : Run} (path : Path)
    (properties : Properties) : Session shared mayChange past files run.cache →
      Session shared mayChange past files (loadFile files path properties run).2.cache
  | evaluateFile {past : List FileSystem} {files : FileSystem} {run : Run} (depth : Nat) (path : Path)
    (properties : Properties) : Session shared mayChange past files run.cache →
      Session shared mayChange past files (evalFile files shared depth path properties run).2.cache
  | evaluate {past : List FileSystem} {files : FileSystem} {run : Run} (depth : Nat)
    (contextAlive : Bool) (template : Compiled) (properties : Properties) :
    Session shared mayChange past files run.cache →
      Session shared mayChange past files
        (evalCompiled files shared depth contextAlive template properties run).2.cache

/-- Every change of what a path reads as gives it a time after the epoch and after all that it had. -/
def ChangesGain (past : List FileSystem) (next : FileSystem) : Prop :=
  ∀ latest ∈ past.head?, ∀ path, latest.read path ≠ next.read path →
    ∀ time, next.modified path = .ok time →
      0 < time ∧ ∀ earlier ∈ past, ∀ before, earlier.modified path = .ok before → before < time

/-- A path that does not read as it did at an earlier moment has a time after the epoch and after the
one that it had at that moment. -/
def AlwaysGains (past : List FileSystem) (next : FileSystem) : Prop :=
  ∀ earlier ∈ past, FileSystem.Advances earlier next

/-- The files that an operation asks for when it begins with a cache. -/
inductive Asked (shared : Shared) (files : FileSystem) (cache : Cache) : Event → Prop
  | load (path : Path) (properties : Properties) :
    Asked shared files cache (.load cache path properties (load files cache path properties))
  | evaluateFile {depth : Nat} {path : Path} {properties : Properties} {output : Output} {event : Event} :
    event ∈ happened output (Course.ofFile files shared depth path properties cache).events →
      Asked shared files cache event
  | evaluate {depth : Nat} {contextAlive : Bool} {template : Compiled} {properties : Properties}
    {output : Output} {event : Event} :
    event ∈ happened output
      (Course.ofCompiled files shared depth contextAlive template properties cache).events →
      Asked shared files cache event

/-- How a cache answers when it is asked for a file. -/
structure Answered (files : FileSystem) (cache : Cache) (path : Path) (properties : Properties)
    (outcome : Except Error (Compiled × Cache)) : Prop where
  loads : outcome = load files cache path properties
  current : properties.reuse = false → ∀ template after, outcome = .ok (template, after) →
    ∃ source, files.readText (path.absolute files.here) = .ok source ∧
      parse source.toList = .ok template.nodes
  reused : properties.reuse = true → path.text ≠ "" →
    ∀ template, cache.get? (path.absolute files.here) = some template → outcome = .ok (template, cache)
  kept : ∀ error, outcome = .error error →
    ∀ run : Run, run.cache = cache → loadFile files path properties run = (.error error, run)

section Session

variable {shared : Shared} {past : List FileSystem} {files : FileSystem} {cache : Cache}

theorem Standing.answered (standing : Standing past files cache) (path : Path) (properties : Properties) :
    Answered files cache path properties (Template.load files cache path properties) where
  loads := rfl
  current := fun checks _ _ loaded => standing.fresh checks loaded
  reused := by
    intro reuse named template known
    have some_text : path.text.isEmpty = false := by
      rwa [← Bool.not_eq_true, String.isEmpty_iff]
    have kept : cache.fresh? (path.absolute files.here) 0 = some template := by
      simp [Cache.fresh?, known]
    simp [Template.load, loadAcross, some_text, stampOf, reuse, kept]
  kept := by
    rintro error failed run rfl
    rw [loadFile_apply, failed]

theorem Standing.traced {known : List Frame} {events : List Event} (standing : Standing past files cache)
    (traced : Traced files shared known cache events) : Standing past files (cacheAfter events cache) := by
  induction events generalizing known cache with
  | nil => exact standing
  | cons event rest ih =>
      cases event with
      | write template chunk => exact ih standing traced.2
      | load asked path properties outcome =>
          obtain ⟨⟨-, loaded⟩, others⟩ := traced
          refine ih ?_ others
          cases outcome with
          | error error => exact standing
          | ok found => exact standing.load loaded.symm

/-- The files that are asked for along the way are asked for while all is still in order. -/
theorem Standing.answered_of_traced {known : List Frame} {events : List Event}
    (standing : Standing past files cache) (traced : Traced files shared known cache events)
    {asked : Cache} {path : Path} {properties : Properties}
    {outcome : Except Error (Compiled × Cache)} (member : .load asked path properties outcome ∈ events) :
    Answered files asked path properties outcome := by
  obtain ⟨before, rest, rfl⟩ := List.append_of_mem member
  obtain ⟨rfl, rfl⟩ := traced.load_eq
  exact (standing.traced (traced.ofPrefix (List.prefix_append before _))).answered path properties

theorem Session.standing (session : Session shared AlwaysGains past files cache) :
    Standing past files cache := by
  induction session with
  | start representable =>
      exact ⟨by simpa using representable, by simp, fun entry member => absurd member List.not_mem_nil⟩
  | change session representable gains standing => exact standing.change representable gains
  | @load past files run path properties session standing =>
      rw [loadFile_apply]
      cases loaded : Template.load files run.cache path properties with
      | error error => exact standing
      | ok found => exact standing.load loaded
  | @evaluateFile past files run depth path properties session standing =>
      rw [evalFile_eq, Course.run, cache_happen]
      exact standing.traced ((traced_ofFile files shared depth path properties run.cache []).ofPrefix
        (happened_isPrefix run.output _))
  | @evaluate past files run depth contextAlive template properties session standing =>
      rw [evalCompiled_eq, Course.run, cache_happen]
      exact standing.traced
        ((traced_ofCompiled files shared depth contextAlive template properties run.cache).ofPrefix
          (happened_isPrefix run.output _))

/-- The cache is never stale. -/
theorem cache_never_stale (session : Session shared AlwaysGains past files cache) {asked : Cache}
    {path : Path} {properties : Properties} {outcome : Except Error (Compiled × Cache)}
    (call : Asked shared files cache (.load asked path properties outcome)) :
    Answered files asked path properties outcome := by
  cases call with
  | load => exact session.standing.answered path properties
  | evaluateFile member =>
      exact session.standing.answered_of_traced
        ((traced_ofFile files shared _ _ _ cache []).ofPrefix (happened_isPrefix _ _)) member
  | evaluate member =>
      exact session.standing.answered_of_traced
        ((traced_ofCompiled files shared _ _ _ _ cache).ofPrefix (happened_isPrefix _ _)) member

end Session

/-! ## One file that changes -/

section Sample

/-- Nothing but one file `/t`. -/
def sampleFiles (text : String) (time : Time) : FileSystem :=
  { entries := [(["t"], .file (Text.Utf8.encode text) time)], now := 0, workingDirectory := [] }

/-- The cache after `/t` was loaded once. -/
def sampleCache : Cache := (loadFile (sampleFiles "A" 5) ⟨"/t"⟩ {} {}).2.cache

theorem sampleFiles_file (text : String) (time : Time) :
    (sampleFiles text time).get? ["t"] = some (.file (Text.Utf8.encode text) time) := rfl

theorem sampleFiles_representable (text : String) {time : Time} (early : time < FileSystem.clockEnd) :
    (sampleFiles text time).Representable := by
  intro path shown timed
  obtain ⟨location, known⟩ := FileSystem.exists_get?_of_modified timed
  have entries : (sampleFiles text time).get? location =
      if location = [] then some (.directory 0)
      else if location = ["t"] then some (.file (Text.Utf8.encode text) time) else none := by
    unfold sampleFiles FileSystem.get?
    split
    · rfl
    · by_cases same : location = ["t"]
      · simp [same]
      · simp [same, Ne.symm same]
  rw [entries] at known
  split at known
  · rcases known with known | ⟨content, known⟩ <;> cases known
    decide
  · split at known <;> rcases known with known | ⟨content, known⟩ <;> cases known
    exact early

theorem sampleFiles_gains {text other : String} {time later : Time} (positive : 0 < later)
    (gains : time < later) : FileSystem.Advances (sampleFiles text time) (sampleFiles other later) :=
  FileSystem.advances_put_file (sampleFiles_file text time) (Text.Utf8.encode other) positive gains

theorem cache_never_stale_sample :
    Answered (sampleFiles "B" 10) sampleCache ⟨"t"⟩ {}
      (load (sampleFiles "B" 10) sampleCache ⟨"t"⟩ {}) :=
  have first : Session .standard AlwaysGains [] (sampleFiles "A" 5) sampleCache :=
    .load ⟨"/t"⟩ {} (Session.start (sampleFiles_representable "A" (by decide)))
  have gains : AlwaysGains [sampleFiles "A" 5] (sampleFiles "B" 10) := by
    intro earlier member
    rw [List.mem_singleton.mp member]
    exact sampleFiles_gains (by decide) (by decide)
  cache_never_stale (first.change (sampleFiles_representable "B" (by decide)) gains) (.load ⟨"t"⟩ {})

theorem sampleFiles_read (text : String) (time other : Time) (path : Path) :
    (sampleFiles text time).read path = (sampleFiles text other).read path := by
  rcases FileSystem.put_file_cases (sampleFiles_file text time) (Text.Utf8.encode text) other path with
    ⟨same, -⟩ | ⟨⟨before, -⟩, after, -⟩
  · exact same.symm
  · exact before.trans after.symm

/-- What a node writes if it is nothing but text. -/
def Node.text? : Node → Option String
  | .text content => some content
  | _ => none

/-- A time that goes back while the file reads the same hides an earlier change. -/
theorem stale_after_time_went_back :
    ¬ ∀ (shared : Shared) (past : List FileSystem) (files : FileSystem) (cache : Cache),
      Session shared ChangesGain past files cache →
        ∀ (asked : Cache) (path : Path) (properties : Properties)
          (outcome : Except Error (Compiled × Cache)),
          Asked shared files cache (.load asked path properties outcome) →
            Answered files asked path properties outcome := by
  intro never
  have first : Session .standard ChangesGain [] (sampleFiles "A" 5) sampleCache :=
    .load ⟨"/t"⟩ {} (Session.start (sampleFiles_representable "A" (by decide)))
  have second : Session .standard ChangesGain [sampleFiles "A" 5] (sampleFiles "B" 10) sampleCache := by
    refine first.change (sampleFiles_representable "B" (by decide)) ?_
    rintro latest ⟨⟩ path different time timed
    have gains : FileSystem.Advances (sampleFiles "A" 5) (sampleFiles "B" 10) :=
      sampleFiles_gains (by decide) (by decide)
    simpa using gains path different time timed
  have third : Session .standard ChangesGain [sampleFiles "B" 10, sampleFiles "A" 5]
      (sampleFiles "B" 5) sampleCache := by
    refine second.change (sampleFiles_representable "B" (by decide)) ?_
    rintro latest ⟨⟩ path different
    exact absurd (sampleFiles_read "B" 10 5 path) different
  have answered := never _ _ _ _ third _ _ _ _ (.load ⟨"/t"⟩ {})
  have given : (load (sampleFiles "B" 5) sampleCache ⟨"/t"⟩ {}).toOption.map
      (·.1.nodes.map Node.text?) = some [some "A"] := by
    decide +kernel
  have reads : ((sampleFiles "B" 5).readText (Path.absolute ⟨"/t"⟩ (sampleFiles "B" 5).here)).toOption =
      some "B" := by
    decide +kernel
  have compiles : (parse "B".toList).toOption.map (·.map Node.text?) = some [some "B"] := by
    decide +kernel
  cases loaded : load (sampleFiles "B" 5) sampleCache ⟨"/t"⟩ {} with
  | error error => simp [loaded, Except.toOption] at given
  | ok found =>
      obtain ⟨source, read, parsed⟩ := answered.current rfl found.1 found.2 loaded
      rw [read] at reads
      cases reads
      rw [parsed] at compiles
      rw [loaded] at given
      exact absurd (given.symm.trans compiles) (by decide)

end Sample

end Template

end StaticSite
