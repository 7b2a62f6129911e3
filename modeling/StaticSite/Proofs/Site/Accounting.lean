import StaticSite.CommandLine.Run
import StaticSite.Proofs.Site.Hierarchy
import StaticSite.Proofs.Site.Stages

/-!
What a summary counts. Whatever a scan lists has its turn once, and it is counted once, by what comes of it. So
the command to build succeeds only if nothing was left out.
-/

namespace StaticSite.Site

open Json (Fields)

variable {site : Site} {scan : Scan} {work : Workspace} {summary : Summary}

/-! ## Turns -/

/-- An item, and the workspace in which its turn comes. -/
structure Turn (α : Type) where
  item : α
  work : Workspace

section Turns

variable {α : Type} (step : α → BuildM Outcome)

/-- The turns of items with which something is done one after the other. -/
def turns : List α → Workspace → List (Turn α)
  | [], _ => []
  | item :: rest, work => ⟨item, work⟩ :: turns rest (step item work).2

theorem items_turns (items : List α) (work : Workspace) : (turns step items work).map (·.item) = items := by
  induction items generalizing work with
  | nil => rfl
  | cons item rest ih => rw [turns, List.map_cons, ih]

/-- What becomes of items is what comes of their turns. -/
theorem forEach_eq_turns (items : List α) (work : Workspace) :
    (forEach step items work).1 = (turns step items work).map fun turn => (step turn.item turn.work).1 := by
  induction items generalizing work with
  | nil => rfl
  | cons item rest ih =>
      rw [forEach_cons (rfl : step item work = ((step item work).1, (step item work).2)), ih]
      rfl

/-- Items whose turns go one of two ways or fail are counted by the way that their turns go. -/
structure Counted (outcomes : List Outcome) (turns : List (Turn α)) (first second : Turn α → Bool)
    (one two : Outcome) : Prop where
  length : outcomes.length = turns.length
  oneWay : outcomes.count one = turns.countP first
  otherWay : outcomes.count two = turns.countP second
  neither : outcomes.count .failed = turns.countP fun turn => !first turn && !second turn
  nothingElse : ∀ other, other ≠ one → other ≠ two → other ≠ .failed → outcomes.count other = 0

theorem counted {first second : Turn α → Bool} {one two : Outcome}
    (tells : ∀ turn, (step turn.item turn.work).1 =
      if first turn then one else if second turn then two else .failed)
    (apart : ∀ turn, first turn → second turn = false) (different : one ≠ two) (one_kept : one ≠ .failed)
    (two_kept : two ≠ .failed) (items : List α) (work : Workspace) :
    Counted (forEach step items work).1 (turns step items work) first second one two := by
  have counts (outcome : Outcome) : (forEach step items work).1.count outcome = (turns step items work).countP
      fun turn => (if first turn then one else if second turn then two else .failed) == outcome := by
    simp only [forEach_eq_turns, tells, List.count_eq_countP, List.countP_map, Function.comp_def]
  constructor
  · rw [forEach_eq_turns, List.length_map]
  · refine (counts one).trans (List.countP_congr fun turn _ => ?_)
    split
    next way => simp [way]
    next way => split <;> simp [way, different.symm, one_kept.symm]
  · refine (counts two).trans (List.countP_congr fun turn _ => ?_)
    split
    next way => simp [apart turn way, different]
    · split
      next way => simp [way]
      next way => simp [way, two_kept.symm]
  · refine (counts .failed).trans (List.countP_congr fun turn _ => ?_)
    split
    next way => simp [way, one_kept]
    next way => split <;> simp_all
  · intro other other_one other_two other_failed
    refine (counts other).trans (List.countP_eq_zero.mpr fun turn _ => ?_)
    split
    · simp [other_one.symm]
    · split
      · simp [other_two.symm]
      · simp [other_failed.symm]

end Turns

/-! ## What comes of a turn -/

/-- Whether what stands in the place of a file's copy is no older than the file. -/
def isUpToDate (site : Site) (file : Path) (fs : FileSystem) : Bool :=
  match fs.modified file, fs.modified (site.placeOf file) with
  | .ok time, .ok made => time ≤ made
  | _, _ => false

/-- Whether a file is passed over although nothing stands in the place of its copy. What is missing counts as made at
the epoch, and the file is from no later time. -/
def isPassedOver (site : Site) (file : Path) (fs : FileSystem) : Bool :=
  match fs.modified file, fs.modified (site.placeOf file) with
  | .ok time, .error _ => time ≤ 0
  | _, _ => false

/-- Whether the copy of a file is missing or older, and is made. -/
def isCopied (site : Site) (file : Path) (fs : FileSystem) : Bool :=
  match fs.isStale file (site.placeOf file) with
  | .ok true => (FileSystem.copyFile file (site.placeOf file) fs).1.toBool
  | _ => false

/-- Whether nothing is done for the copy of a file. -/
def isSpared (site : Site) (file : Path) (fs : FileSystem) : Bool :=
  site.isUpToDate file fs || site.isPassedOver file fs

/-- Whether a file is copied or need not be. -/
def isSettled (site : Site) (file : Path) (fs : FileSystem) : Bool := site.isCopied file fs || site.isSpared file fs

/-- Whether a page is evaluated, its body and its layout, and what it is evaluated to is written. -/
def isWritten (site : Site) (turn : Turn (Page × Fields)) : Bool :=
  match site.pageOutput turn.item.1 turn.item.2 turn.work with
  | (.ok bytes, after) =>
    (FileSystem.writeFile (site.outputDirectory.join turn.item.1.outputFile) bytes after.fs).1.toBool
  | (.error _, _) => false

/-- Whether a page is not written, and its source is copied then. -/
def isCopiedInstead (site : Site) (turn : Turn (Page × Fields)) : Bool :=
  !site.isWritten turn &&
    site.isSettled turn.item.1.sourceFile (site.buildPage turn.item.1 turn.item.2 turn.work).2.fs

/-- Whether a link is recreated. -/
def isLinked (site : Site) (turn : Turn Path) : Bool :=
  (FileSystem.copyLink turn.item (site.placeOf turn.item) turn.work.fs).1.toBool

theorem isSpared_eq (site : Site) (file : Path) (fs : FileSystem) :
    site.isSpared file fs = decide (fs.isStale file (site.placeOf file) = .ok false) := by
  rw [isSpared, isUpToDate, isPassedOver, FileSystem.isStale]
  cases fs.modified file with
  | error error => rfl
  | ok time =>
      cases fs.modified (site.placeOf file) with
      | error error => simp [bind, Except.bind, pure, Except.pure]
      | ok made => simp [bind, Except.bind, pure, Except.pure]

theorem copyVerbatim_outcome (site : Site) (file : Path) (work : Workspace) :
    (site.copyVerbatim file work).1 =
      if site.isCopied file work.fs then .copied
      else if site.isSpared file work.fs then .unchanged
      else .failed := by
  rw [copyVerbatim_apply, isSpared_eq, isCopied]
  cases work.fs.isStale file (site.placeOf file) with
  | error error => rfl
  | ok stale =>
      cases stale with
      | false => rfl
      | true => obtain ⟨_ | _, fs⟩ := FileSystem.copyFile file (site.placeOf file) work.fs <;> rfl

theorem isSpared_of_isCopied {file : Path} {fs : FileSystem} (copied : site.isCopied file fs) :
    site.isSpared file fs = false := by
  rw [isCopied] at copied
  split at copied
  next stale => simp [isSpared_eq, stale]
  · cases copied

theorem copyInstead_told (site : Site) (file : Path) (work : Workspace) :
    (site.copyInstead file work).1 = if site.isSettled file work.fs then .fallback else .failed := by
  rw [copyInstead_eq, copyVerbatim_outcome, isSettled]
  cases site.isCopied file work.fs <;> cases site.isSpared file work.fs <;> rfl

theorem isWritten_eq (site : Site) (turn : Turn (Page × Fields)) :
    site.isWritten turn = (site.buildPage turn.item.1 turn.item.2 turn.work).1.toBool := by
  rw [isWritten, buildPage_apply]
  obtain ⟨error | bytes, after⟩ := site.pageOutput turn.item.1 turn.item.2 turn.work
  · rfl
  · dsimp only
    obtain ⟨_ | _, fs⟩ :=
      FileSystem.writeFile (site.outputDirectory.join turn.item.1.outputFile) bytes after.fs <;> rfl

theorem renderPage_outcome (site : Site) (turn : Turn (Page × Fields)) :
    (site.renderPage turn.item.1 turn.item.2 turn.work).1 =
      if site.isWritten turn then .written
      else if site.isCopiedInstead turn then .fallback
      else .failed := by
  rw [renderPage_apply, isCopiedInstead, isWritten_eq]
  obtain ⟨error | done, after⟩ := site.buildPage turn.item.1 turn.item.2 turn.work
  · exact copyInstead_told site turn.item.1.sourceFile _
  · rfl

theorem recreateLink_outcome (site : Site) (turn : Turn Path) :
    (site.recreateLink turn.item turn.work).1 = if site.isLinked turn then .linked else .failed := by
  rw [recreateLink_apply, isLinked]
  obtain ⟨_ | _, fs⟩ := FileSystem.copyLink turn.item (site.placeOf turn.item) turn.work.fs <;> rfl

/-! ## The account of a build -/

/-- The turns of a build. -/
structure Account where
  files : List (Turn Path)
  /-- The pages whose headers cannot be read. -/
  unread : List (Turn Path)
  pages : List (Turn (Page × Fields))
  links : List (Turn Path)

/-- The turns of what a scan has found. -/
def account (site : Site) (scan : Scan) (work : Workspace) : Account :=
  let read := site.readPages work.fs scan.pages
  let links := Links.ofPages read.1
  let render (job : Page × Fields) := site.renderPage job.1 job.2
  let start := noting work (scan.failures.map .skipped)
  let copied := noting (forEach site.copyVerbatim scan.files start).2
    (read.2.map fun unread => site.unreadNotice unread.1 unread.2)
  let fallen := noting (noting (forEach site.copyInstead (read.2.map (·.1)) copied).2
    (links.conflicts.map .conflict)) (links.tree?.toList.map .pageTree)
  { files := turns site.copyVerbatim scan.files start
    unread := turns site.copyInstead (read.2.map (·.1)) copied
    pages := turns render (site.jobs links) fallen
    links := turns site.recreateLink scan.links (forEach render (site.jobs links) fallen).2 }

/-- The page that a scanned source makes. -/
abbrev readPage (site : Site) (fs : FileSystem) (source : Path × String × PageFormat) : Except Page.Error Page :=
  Page.read fs site.config site.sourceDirectory source.1 source.2.1 source.2.2

/-- Whatever a scan lists has one turn. -/
structure Account.Covers (account : Account) (site : Site) (fs : FileSystem) (scan : Scan) : Prop where
  files : account.files.map (·.item) = scan.files
  unread : account.unread.map (·.item) =
    (scan.pages.filter fun source => !(site.readPage fs source).toBool).map (·.1)
  pages : (account.pages.map (·.item.1)).Perm (scan.pages.filterMap fun source => (site.readPage fs source).toOption)
  links : account.links.map (·.item) = scan.links

/-- Each turn is counted once, by what comes of it, but for the files for which nothing is done. -/
structure Account.Counts (account : Account) (site : Site) (scan : Scan) (summary : Summary) : Prop where
  pages : summary.pages = account.pages.countP site.isWritten
  copied : summary.copied = account.files.countP fun turn => site.isCopied turn.item turn.work.fs
  links : summary.links = account.links.countP site.isLinked
  fallbacks : summary.fallbacks =
    account.unread.countP (fun turn => site.isSettled turn.item turn.work.fs) +
      account.pages.countP site.isCopiedInstead
  failed : summary.failed =
    account.files.countP (fun turn => !site.isSettled turn.item turn.work.fs) +
      account.unread.countP (fun turn => !site.isSettled turn.item turn.work.fs) +
      account.pages.countP (fun turn => !site.isWritten turn && !site.isCopiedInstead turn) +
      account.links.countP (fun turn => !site.isLinked turn) + scan.failures.length

/-- Nothing was left out but files that were passed over. -/
structure Account.Complete (account : Account) (site : Site) (scan : Scan) : Prop where
  visited : scan.failures = []
  read : account.unread = []
  written : ∀ turn ∈ account.pages, site.isWritten turn
  settled : ∀ turn ∈ account.files, site.isSettled turn.item turn.work.fs
  linked : ∀ turn ∈ account.links, site.isLinked turn

theorem map_fst_jobs (site : Site) (links : Links) : (site.jobs links).map (·.1) = links.pages.map (·.page) := by
  have whole : links.pages.length ≤ links.summaries.length := by simp [Links.summaries]
  conv_rhs => rw [← List.map_fst_zip whole]
  rw [jobs, List.map_map, List.map_map]
  rfl

theorem pages_jobs (site : Site) (pages : List Page) :
    ((site.jobs (.ofPages pages)).map (·.1)).Perm pages := by
  rw [map_fst_jobs, Links.pages_ofPages]
  exact Page.sortByUrl_perm pages

theorem read_eq (site : Site) (fs : FileSystem) (sources : List (Path × String × PageFormat)) :
    (site.readPages fs sources).1 = sources.filterMap fun source => (site.readPage fs source).toOption := by
  rw [readPages, List.filterMap_map]
  rfl

theorem unread_eq (site : Site) (fs : FileSystem) (sources : List (Path × String × PageFormat)) :
    (site.readPages fs sources).2.map (·.1) =
      (sources.filter fun source => !(site.readPage fs source).toBool).map (·.1) := by
  unfold readPages
  dsimp only
  rw [List.filterMap_map, List.map_filterMap, ← List.filterMap_eq_filter, List.map_filterMap]
  refine List.filterMap_congr fun source _ => ?_
  obtain ⟨file, extension, format⟩ := source
  cases read : Page.read fs site.config site.sourceDirectory file extension format <;>
    simp [Option.guard, readPage, read, Except.toBool]

theorem account_covers (site : Site) (scan : Scan) (work : Workspace) :
    (site.account scan work).Covers site work.fs scan := by
  constructor
  · exact items_turns _ _ _
  · exact (items_turns _ _ _).trans (unread_eq site work.fs scan.pages)
  · have items : (site.account scan work).pages.map (·.item) =
        site.jobs (.ofPages (site.readPages work.fs scan.pages).1) := items_turns _ _ _
    rw [show (fun turn : Turn (Page × Fields) => turn.item.1) = (·.1) ∘ (·.item) from rfl, ← List.map_map, items]
    exact read_eq site work.fs scan.pages ▸ pages_jobs site _
  · exact items_turns _ _ _

/-- How many turns each stage has. -/
theorem Account.Covers.lengths {account : Account} {fs : FileSystem} (covers : account.Covers site fs scan) :
    account.files.length = scan.files.length ∧ account.unread.length + account.pages.length = scan.pages.length ∧
      account.links.length = scan.links.length := by
  have files := congrArg List.length covers.files
  have unread := congrArg List.length covers.unread
  have pages := covers.pages.length_eq
  have links := congrArg List.length covers.links
  simp only [List.length_map] at files unread pages links
  refine ⟨files, ?_, links⟩
  have split : (scan.pages.filterMap fun source => (site.readPage fs source).toOption).length =
      (scan.pages.filter fun source => (site.readPage fs source).toBool).length := by
    rw [List.length_filterMap_eq_countP, List.countP_eq_length_filter]
    refine congrArg List.length (List.filter_congr fun source _ => ?_)
    cases site.readPage fs source <;> rfl
  have whole := List.length_eq_length_filter_add (l := scan.pages) fun source => (site.readPage fs source).toBool
  omega

theorem counted_copies (items : List Path) (work : Workspace) :
    Counted (forEach site.copyVerbatim items work).1 (turns site.copyVerbatim items work)
      (fun turn => site.isCopied turn.item turn.work.fs) (fun turn => site.isSpared turn.item turn.work.fs)
      .copied .unchanged :=
  counted _ (fun turn => copyVerbatim_outcome site turn.item turn.work) (fun _ copied => isSpared_of_isCopied copied)
    (by decide) (by decide) (by decide) items work

theorem counted_fallbacks (items : List Path) (work : Workspace) :
    Counted (forEach site.copyInstead items work).1 (turns site.copyInstead items work)
      (fun turn => site.isSettled turn.item turn.work.fs) (fun _ => false) .fallback .unchanged :=
  counted _ (fun turn => by simpa using copyInstead_told site turn.item turn.work) (fun _ _ => rfl)
    (by decide) (by decide) (by decide) items work

theorem counted_pages (items : List (Page × Fields)) (work : Workspace) :
    Counted (forEach (fun job => site.renderPage job.1 job.2) items work).1
      (turns (fun job => site.renderPage job.1 job.2) items work) site.isWritten site.isCopiedInstead .written .fallback :=
  counted _ (fun turn => renderPage_outcome site turn) (fun turn written => by simp [isCopiedInstead, written])
    (by decide) (by decide) (by decide) items work

theorem counted_links (items : List Path) (work : Workspace) :
    Counted (forEach site.recreateLink items work).1 (turns site.recreateLink items work)
      site.isLinked (fun _ => false) .linked .unchanged :=
  counted _ (fun turn => by simpa using recreateLink_outcome site turn) (fun _ _ => rfl)
    (by decide) (by decide) (by decide) items work

theorem exists_outcomes (site : Site) (scan : Scan) (work : Workspace) :
    ∃ first second third fourth,
      (site.buildScan scan work).1 = Summary.ofOutcomes (first ++ second ++ third ++ fourth) scan.failures.length ∧
      Counted first (site.account scan work).files (fun turn => site.isCopied turn.item turn.work.fs)
        (fun turn => site.isSpared turn.item turn.work.fs) .copied .unchanged ∧
      Counted second (site.account scan work).unread (fun turn => site.isSettled turn.item turn.work.fs)
        (fun _ => false) .fallback .unchanged ∧
      Counted third (site.account scan work).pages site.isWritten site.isCopiedInstead .written .fallback ∧
      Counted fourth (site.account scan work).links site.isLinked (fun _ => false) .linked .unchanged := by
  refine ⟨_, _, _, _, ?_, counted_copies _ _, counted_fallbacks _ _, counted_pages _ _, counted_links _ _⟩
  exact congrArg Prod.fst (Stages.buildScan_apply ⟨rfl, rfl, rfl, rfl⟩)

theorem account_counts (site : Site) (scan : Scan) (work : Workspace) :
    (site.account scan work).Counts site scan (site.buildScan scan work).1 := by
  obtain ⟨first, second, third, fourth, summary, copies, fallbacks, pages, links⟩ := exists_outcomes site scan work
  rw [summary, Summary.ofOutcomes]
  constructor
  · simp only [List.count_append]
    rw [copies.nothingElse _ (by decide) (by decide) (by decide), fallbacks.nothingElse _ (by decide) (by decide) (by decide),
      pages.oneWay, links.nothingElse _ (by decide) (by decide) (by decide)]
    simp
  · simp only [List.count_append]
    rw [copies.oneWay, fallbacks.nothingElse _ (by decide) (by decide) (by decide),
      pages.nothingElse _ (by decide) (by decide) (by decide), links.nothingElse _ (by decide) (by decide) (by decide)]
    simp
  · simp only [List.count_append]
    rw [copies.nothingElse _ (by decide) (by decide) (by decide), fallbacks.nothingElse _ (by decide) (by decide) (by decide),
      pages.nothingElse _ (by decide) (by decide) (by decide), links.oneWay]
    simp
  · simp only [List.count_append]
    rw [copies.nothingElse _ (by decide) (by decide) (by decide), fallbacks.oneWay, pages.otherWay,
      links.nothingElse _ (by decide) (by decide) (by decide)]
    simp
  · simp only [List.count_append]
    rw [copies.neither, fallbacks.neither, pages.neither, links.neither]
    simp [isSettled]

theorem length_eq_counts (outcomes : List Outcome) :
    outcomes.length = outcomes.count .written + outcomes.count .fallback + outcomes.count .copied +
      outcomes.count .linked + outcomes.count .failed + outcomes.count .unchanged := by
  induction outcomes with
  | nil => rfl
  | cons outcome rest ih => cases outcome <;> simp [ih] <;> omega

/-- The numbers of a summary and the files for which nothing was done add up to all that was scanned. -/
theorem summary_total (built : (site.buildScan scan work).1 = summary) :
    summary.pages + summary.fallbacks + summary.copied + summary.links + summary.failed +
        (site.account scan work).files.countP (fun turn => site.isSpared turn.item turn.work.fs) =
      scan.pages.length + scan.files.length + scan.links.length + scan.failures.length := by
  obtain ⟨files, pages, links⟩ := (account_covers site scan work).lengths
  obtain ⟨first, second, third, fourth, summed, copied, fallen, rendered, linked⟩ := exists_outcomes site scan work
  have whole := length_eq_counts (first ++ second ++ third ++ fourth)
  have spared : (first ++ second ++ third ++ fourth).count .unchanged =
      (site.account scan work).files.countP fun turn => site.isSpared turn.item turn.work.fs := by
    simp only [List.count_append]
    rw [copied.otherWay, fallen.otherWay, linked.otherWay, rendered.nothingElse _ (by decide) (by decide) (by decide)]
    simp
  rw [spared, List.length_append, List.length_append, List.length_append, copied.length, fallen.length, rendered.length,
    linked.length, files, links] at whole
  rw [← built, summed, Summary.ofOutcomes]
  dsimp only
  omega

theorem Account.Counts.complete_iff {account : Account} (counts : account.Counts site scan summary) :
    summary.failed = 0 ∧ summary.fallbacks = 0 ↔ account.Complete site scan := by
  rw [counts.failed, counts.fallbacks]
  simp only [Nat.add_eq_zero_iff, List.countP_eq_zero, List.length_eq_zero_iff, Bool.not_eq_true', Bool.not_eq_false,
    Bool.and_eq_true, not_and]
  constructor
  · rintro ⟨⟨⟨⟨⟨settled, read⟩, written⟩, linked⟩, visited⟩, unread, copied⟩
    refine ⟨visited, List.eq_nil_iff_forall_not_mem.mpr fun turn member => unread turn member (read turn member),
      fun turn member => ?_, settled, linked⟩
    by_contra unwritten
    exact copied turn member (written turn member (Bool.eq_false_iff.mpr unwritten))
  · rintro ⟨visited, read, written, settled, linked⟩
    refine ⟨⟨⟨⟨⟨settled, by simp [read]⟩, fun turn member unwritten => ?_⟩, linked⟩, visited⟩, by simp [read],
      fun turn member => ?_⟩
    · rw [written turn member] at unwritten
      cases unwritten
    · simp [isCopiedInstead, written turn member]

/-- What stands in the place of a copy is there or not. -/
theorem isPassedOver_of_isUpToDate {file : Path} {fs : FileSystem} (upToDate : site.isUpToDate file fs) :
    site.isPassedOver file fs = false := by
  rw [isUpToDate] at upToDate
  rw [isPassedOver]
  split at upToDate
  next time made => rw [time, made]
  · cases upToDate

theorem countP_isSpared (turns : List (Turn Path)) :
    turns.countP (fun turn => site.isSpared turn.item turn.work.fs) =
      turns.countP (fun turn => site.isUpToDate turn.item turn.work.fs) +
        turns.countP (fun turn => site.isPassedOver turn.item turn.work.fs) := by
  induction turns with
  | nil => rfl
  | cons turn rest ih =>
      rw [List.countP_cons, List.countP_cons, List.countP_cons, ih, isSpared]
      cases upToDate : site.isUpToDate turn.item turn.work.fs with
      | false =>
          rw [Bool.false_or, if_neg Bool.false_ne_true]
          omega
      | true =>
          rw [Bool.true_or, isPassedOver_of_isUpToDate upToDate, if_pos rfl, if_neg Bool.false_ne_true]
          omega

theorem execute_iff {environment : CommandLine.Environment} {arguments : CommandLine.Arguments}
    (loads : CommandLine.siteOf work.fs environment arguments = .ok site)
    (returns : (site.renderAll work).1 = .ok summary) :
    (CommandLine.execute environment arguments work).1 = .ok () ↔ summary.failed = 0 ∧ summary.fallbacks = 0 := by
  obtain ⟨after, built⟩ : ∃ after, site.renderAll work = (.ok summary, after) := ⟨_, Prod.ext returns rfl⟩
  simp only [CommandLine.execute, CommandLine.buildSite, bind, StateT.bind, get, getThe, MonadStateOf.get, StateT.get,
    pure, loads, built, Bool.or_eq_true, decide_eq_true_eq]
  split
  next some_left =>
    constructor
    · intro succeeds
      cases succeeds
    · omega
  next none_left =>
    constructor
    · omega
    · exact fun _ => rfl

theorem exists_scan (returns : (site.renderAll work).1 = .ok summary) :
    ∃ scan, site.scan work.fs = .ok scan ∧ (site.buildScan scan work).1 = summary := by
  cases scanned : site.scan work.fs with
  | error error =>
      simp only [renderAll, bind, StateT.bind, get, getThe, MonadStateOf.get, StateT.get, pure, scanned] at returns
      cases returns
  | ok scan =>
      rw [renderAll_eq scanned] at returns
      exact ⟨scan, rfl, Except.ok.inj returns⟩

/-- A build that returns a summary accounts for whatever was scanned: each file, page and link has one turn and is
counted once, by what came of it, but for files with an up-to-date copy and files from the epoch or before of which
there is no copy. The command to build succeeds exactly if nothing but such files was left out. -/
theorem build_accounts_for_every_file (returns : (site.renderAll work).1 = .ok summary) :
    ∃ scan, site.scan work.fs = .ok scan ∧
      (site.account scan work).Covers site work.fs scan ∧
      (site.account scan work).Counts site scan summary ∧
      summary.pages + summary.fallbacks + summary.copied + summary.links + summary.failed +
          (site.account scan work).files.countP (fun turn => site.isUpToDate turn.item turn.work.fs) +
          (site.account scan work).files.countP (fun turn => site.isPassedOver turn.item turn.work.fs) =
        scan.pages.length + scan.files.length + scan.links.length + scan.failures.length ∧
      ∀ environment arguments, CommandLine.siteOf work.fs environment arguments = .ok site →
        ((CommandLine.execute environment arguments work).1 = .ok () ↔ (site.account scan work).Complete site scan) := by
  obtain ⟨scan, scanned, whole⟩ := exists_scan returns
  have total := summary_total whole
  rw [countP_isSpared, ← Nat.add_assoc] at total
  have counts := whole ▸ account_counts site scan work
  exact ⟨scan, scanned, account_covers site scan work, counts, total, fun environment arguments loads =>
    (execute_iff loads returns).trans counts.complete_iff⟩

/-! ## Builds that account for less -/

def namedSite : Site where
  config := { sourceDirectory := ⟨"/s"⟩ }
  sourceDirectory := ⟨"/s"⟩
  outputDirectory := ⟨"/s/_build"⟩
  templateDirectory := ⟨"/s/_templates"⟩

/-- The command to build that site. -/
def namedArguments : CommandLine.Arguments := { command := .build, directory? := some "/s" }

theorem rooted_namedSite : Rooted namedSite ["s"] ["s", "_build"] := ⟨rfl, rfl, by decide, by decide⟩

/-- Two pages, of which one has a header without an end, two files, of which one is from the epoch, and a link. -/
def mixedFiles : FileSystem where
  entries :=
    [(["s"], .directory 0), (["s", "a.html"], .file (Text.Utf8.encode "<p>hi</p>") 1),
      (["s", "b.html"], .file (Text.Utf8.encode "---\nx") 1), (["s", "old.txt"], .file (Text.Utf8.encode "old") 0),
      (["s", "real.txt"], .file (Text.Utf8.encode "real") 1), (["s", "x.txt"], .link ⟨"real.txt"⟩)]
  now := 9
  workingDirectory := []

theorem tidy_mixedFiles : mixedFiles.Tidy := by
  refine FileSystem.tidy_of_entries ?_ (by decide)
  simp only [mixedFiles, List.forall_mem_cons]
  exact ⟨⟨0, rfl⟩, ⟨0, rfl⟩, ⟨0, rfl⟩, ⟨0, rfl⟩, ⟨0, rfl⟩, ⟨0, rfl⟩, by simp⟩

theorem siteOf_mixedFiles : CommandLine.siteOf mixedFiles [] namedArguments = .ok namedSite := rfl

theorem build_accounts_for_every_file_mixed :
    ∃ summary, (namedSite.renderAll { fs := mixedFiles }).1 = .ok summary ∧
      CommandLine.siteOf mixedFiles [] namedArguments = .ok namedSite ∧
      ∃ scan, namedSite.scan mixedFiles = .ok scan ∧
        (namedSite.account scan { fs := mixedFiles }).Covers namedSite mixedFiles scan ∧
        (namedSite.account scan { fs := mixedFiles }).Counts namedSite scan summary ∧
        ((CommandLine.execute [] namedArguments { fs := mixedFiles }).1 = .ok () ↔
          (namedSite.account scan { fs := mixedFiles }).Complete namedSite scan) := by
  have scanned := rooted_namedSite.scan_eq tidy_mixedFiles ⟨0, rfl⟩
  have built : namedSite.renderAll { fs := mixedFiles } = _ := renderAll_eq scanned
  have returns := congrArg Prod.fst built
  obtain ⟨scan, scanned, covers, counts, -, tells⟩ := build_accounts_for_every_file returns
  exact ⟨_, returns, siteOf_mixedFiles, scan, scanned, covers, counts, tells [] namedArguments siteOf_mixedFiles⟩

/-- A single file, from the epoch. -/
def oldFiles : FileSystem where
  entries := [(["s"], .directory 0), (["s", "old.txt"], .file (Text.Utf8.encode "old") 0)]
  now := 9
  workingDirectory := []

theorem tidy_oldFiles : oldFiles.Tidy := by
  refine FileSystem.tidy_of_entries ?_ (by decide)
  simp only [oldFiles, List.forall_mem_cons]
  exact ⟨⟨0, rfl⟩, ⟨0, rfl⟩, by simp⟩

def oldScan : Scan := ⟨[], [Location.path ["s", "old.txt"]], [], []⟩

theorem scan_oldFiles : namedSite.scan oldFiles = .ok oldScan := by
  have names : oldFiles.names ["s"] = ["old.txt"] := List.mergeSort_singleton _
  have shown : namedSite.shown oldFiles ["s"] ["old.txt"] = [.file (Location.path ["s", "old.txt"])] := by decide
  have unpaged : namedSite.config.pageFormat? (Location.path ["s", "old.txt"]) = none := by
    have proper : Path.Proper "old.txt" := by decide
    exact (pageFormat?_path proper namedSite.config ["s"]).trans (by decide)
  rw [rooted_namedSite.scan_flat tidy_oldFiles ⟨0, rfl⟩ rfl names (by decide) (by decide), shown]
  simp [Scan.ofFindings, unpaged, oldScan]

theorem placeOf_oldFiles :
    namedSite.placeOf (Location.path ["s", "old.txt"]) = Location.path ["s", "_build", "old.txt"] :=
  rooted_namedSite.placeOf_path (List.cons_ne_nil "old.txt" []) (by decide)

theorem copyVerbatim_oldFiles :
    namedSite.copyVerbatim (Location.path ["s", "old.txt"]) { fs := oldFiles } = (.unchanged, { fs := oldFiles }) := by
  have spared : oldFiles.isStale (Location.path ["s", "old.txt"]) (Location.path ["s", "_build", "old.txt"]) =
      .ok false := by decide
  rw [copyVerbatim_apply, placeOf_oldFiles, spared]

theorem renderAll_oldFiles : namedSite.renderAll { fs := oldFiles } = (.ok ⟨0, 0, 0, 0, 0⟩, { fs := oldFiles }) := by
  have ran := forEach_cons copyVerbatim_oldFiles []
  rw [forEach_nil] at ran
  rw [renderAll_eq scan_oldFiles, oldScan, buildScan_verbatim ran (forEach_nil _ _) rfl]
  rfl

/-- The file is counted nowhere although there is no copy of it, before the build or after, and the command to build
succeeds. -/
theorem old_file_unaccounted :
    CommandLine.siteOf oldFiles [] namedArguments = .ok namedSite ∧
      namedSite.scan oldFiles = .ok oldScan ∧ oldScan.files = [Location.path ["s", "old.txt"]] ∧
      namedSite.renderAll { fs := oldFiles } = (.ok ⟨0, 0, 0, 0, 0⟩, { fs := oldFiles }) ∧
      oldFiles.exists? (Location.path ["s", "_build", "old.txt"]) = false ∧
      (namedSite.account oldScan { fs := oldFiles }).files.countP
        (fun turn => namedSite.isUpToDate turn.item turn.work.fs) = 0 ∧
      (CommandLine.execute [] namedArguments { fs := oldFiles }).1 = .ok () := by
  have loads : CommandLine.siteOf oldFiles [] namedArguments = .ok namedSite := rfl
  refine ⟨loads, scan_oldFiles, rfl, renderAll_oldFiles, by decide, ?_,
    (execute_iff loads (congrArg Prod.fst renderAll_oldFiles)).mpr ⟨rfl, rfl⟩⟩
  have missing : namedSite.isUpToDate (Location.path ["s", "old.txt"]) oldFiles = false := by
    rw [isUpToDate, placeOf_oldFiles]
    decide
  change List.countP _ (turns _ oldScan.files _) = 0
  rw [oldScan, turns, turns, List.countP_cons, List.countP_nil, fs_noting, missing]
  rfl

end StaticSite.Site
