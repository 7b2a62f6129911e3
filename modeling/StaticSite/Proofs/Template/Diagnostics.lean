import StaticSite.Proofs.Template.Freshness
import StaticSite.Proofs.Template.Origins
import StaticSite.Proofs.Template.Provenance

/-!
Diagnostics. Every error that an evaluation ends with, apart from those of files and sinks, names the
template whose node failed and the place of one of the tokens of that template's source.
-/

namespace StaticSite.Template

open Json (Value Fields)
open Text

/-! ## Scripts -/

section Scripts

variable {α β : Type} {frame : Frame} {tokens : List Placed}

/-- A script that fails at tokens of its template only, and calls `include` at tokens only. -/
structure Located (frame : Frame) (tokens : List Placed) (script : ScriptM α) : Prop where
  embeds : ∀ scopes position target bindings,
    .embed position target bindings ∈ (script scopes).requests → AtTokens tokens [position]
  fails : ∀ scopes error, (script scopes).result = .error error →
    ∃ placed ∈ tokens, ∃ problem, error = frame.template.error placed.position problem

theorem located_silent {script : ScriptM α} (asks : ∀ scopes, (script scopes).requests = [])
    (ends : ∀ scopes, ∃ outcome, (script scopes).result = .ok outcome) : Located frame tokens script := by
  refine ⟨fun scopes position target bindings asked => ?_, fun scopes error failed => ?_⟩
  · rw [asks scopes] at asked
    cases asked
  · obtain ⟨outcome, done⟩ := ends scopes
    rw [done] at failed
    cases failed

theorem located_pure (value : α) : Located frame tokens (pure value) :=
  located_silent (fun _ => rfl) fun scopes => ⟨(value, scopes), rfl⟩

theorem located_lookup (name : String) : Located frame tokens (frame.lookupScript name) :=
  located_silent (fun _ => rfl) fun scopes => ⟨(frame.lookup scopes name, scopes), rfl⟩

theorem located_modify (change : List Fields → List Fields) :
    Located frame tokens (modify change : ScriptM Unit) :=
  located_silent (fun _ => rfl) fun scopes => ⟨((), change scopes), rfl⟩

theorem located_placed {position : Nat} (atTokens : AtTokens tokens [position])
    (result : Except RuntimeProblem α) : Located frame tokens (frame.placed position result) := by
  refine ⟨fun scopes position target bindings asked => absurd asked List.not_mem_nil, ?_⟩
  intro scopes error failed
  obtain ⟨placed, member, rfl⟩ := atTokens position (by simp)
  cases result with
  | ok value => cases failed
  | error problem =>
      cases failed
      exact ⟨placed, member, problem, rfl⟩

theorem located_write (chunk : Chunk) : Located frame tokens (.ask (.write chunk)) :=
  ⟨fun _ _ _ _ asked => (by cases List.mem_singleton.mp asked), fun _ _ failed => (by cases failed)⟩

theorem located_ask {position : Nat} (atTokens : AtTokens tokens [position]) (target : String)
    (bindings : Fields) : Located frame tokens (.ask (.embed position target bindings)) :=
  ⟨fun _ _ _ _ asked => (by cases List.mem_singleton.mp asked; exact atTokens),
    fun _ _ failed => (by cases failed)⟩

theorem Located.bind {first : ScriptM α} {rest : α → ScriptM β} (located : Located frame tokens first)
    (others : ∀ value, Located frame tokens (rest value)) : Located frame tokens (first >>= rest) := by
  refine ⟨fun scopes position target bindings asked => ?_, fun scopes error failed => ?_⟩
  · rw [bind_script] at asked
    cases ended : (first scopes).result with
    | error error =>
        rw [ended] at asked
        exact located.embeds scopes position target bindings asked
    | ok outcome =>
        rw [ended] at asked
        rcases List.mem_append.mp asked with asked | asked
        · exact located.embeds scopes position target bindings asked
        · exact (others outcome.1).embeds outcome.2 position target bindings asked
  · rw [bind_script] at failed
    cases ended : (first scopes).result with
    | error other =>
        rw [ended] at failed
        cases failed
        exact located.fails scopes error ended
    | ok outcome =>
        rw [ended] at failed
        exact (others outcome.1).fails outcome.2 error failed

theorem located_writeAll (chunks : List Chunk) : Located frame tokens (.writeAll chunks) := by
  induction chunks with
  | nil => exact located_pure ()
  | cons chunk rest ih => exact (located_write chunk).bind fun _ => ih

theorem located_inScope {body : ScriptM Unit} (bindings : Fields) (located : Located frame tokens body) :
    Located frame tokens (.inScope bindings body) := by
  rw [inScope_script]
  exact (located_modify _).bind fun _ => located.bind fun _ => located_modify _

theorem located_forEntries {body : Value → Value → ScriptM Unit}
    (located : ∀ key item, Located frame tokens (body key item)) (entries : List (Value × Value)) :
    Located frame tokens (.forEntries body entries) := by
  induction entries with
  | nil => exact located_pure ()
  | cons entry rest ih => exact (located entry.1 entry.2).bind fun _ => ih

/-! ## Expressions and nodes -/

theorem located_call {position : Nat} (here : AtTokens tokens [position]) (name : String)
    (arguments : List Value) : Located frame tokens (frame.callScript position name arguments) := by
  unfold Frame.callScript
  split
  · exact (located_writeAll _).bind fun _ => located_pure _
  split
  · exact (located_writeAll _).bind fun _ => located_pure _
  · cases frame.shared.function? name with
    | none => exact located_placed here _
    | some function => exact located_placed here _

theorem atTokens_head {position : Nat} {rest : List Nat} (atTokens : AtTokens tokens (position :: rest)) :
    AtTokens tokens [position] ∧ AtTokens tokens rest :=
  atTokens_append.mp (show AtTokens tokens ([position] ++ rest) from atTokens)

mutual

theorem located_expr : (e : Expr) → AtTokens tokens e.positions →
    Located frame tokens (frame.exprScript e)
  | .literal _ value, _ => located_pure value
  | .variable position name, here => by
      unfold Frame.exprScript
      apply (located_lookup name).bind
      intro found
      cases found with
      | none => exact located_placed here _
      | some value => exact located_pure value
  | .array _ items, atTokens => by
      unfold Frame.exprScript
      exact (located_items items (atTokens_head atTokens).2).bind fun _ => located_pure _
  | .object _ entries, atTokens => by
      unfold Frame.exprScript
      exact (located_entries entries (atTokens_head atTokens).2).bind fun _ => located_pure _
  | .member position target name, atTokens => by
      obtain ⟨here, inner⟩ := atTokens_head atTokens
      unfold Frame.exprScript
      exact (located_expr target inner).bind fun _ => located_placed here _
  | .index position target index, atTokens => by
      obtain ⟨here, inner⟩ := atTokens_head atTokens
      obtain ⟨first, second⟩ := atTokens_append.mp inner
      unfold Frame.exprScript
      exact (located_expr target first).bind fun _ =>
        (located_expr index second).bind fun _ => located_placed here _
  | .call position name arguments, atTokens => by
      obtain ⟨here, inner⟩ := atTokens_head atTokens
      unfold Frame.exprScript
      apply (located_lookup name).bind
      intro found
      cases found with
      | none => exact (located_items arguments inner).bind fun _ => located_call here name _
      | some value => exact located_placed here _
  | .unary _ .not operand, atTokens => by
      unfold Frame.exprScript
      exact (located_expr operand (atTokens_head atTokens).2).bind fun _ => located_pure _
  | .unary position .negate operand, atTokens => by
      obtain ⟨here, inner⟩ := atTokens_head atTokens
      unfold Frame.exprScript
      exact (located_expr operand inner).bind fun _ => located_placed here _
  | .binary position operator left right, atTokens => by
      obtain ⟨here, inner⟩ := atTokens_head atTokens
      obtain ⟨first, second⟩ := atTokens_append.mp inner
      have leftLocated := located_expr left first
      have rightLocated := located_expr right second
      cases operator
      case and =>
        unfold Frame.exprScript
        apply leftLocated.bind
        intro value
        split
        · exact rightLocated
        · exact located_pure value
      case or =>
        unfold Frame.exprScript
        apply leftLocated.bind
        intro value
        split
        · exact located_pure value
        · exact rightLocated
      all_goals
        unfold Frame.exprScript
        exact leftLocated.bind fun _ => rightLocated.bind fun _ => located_placed here _
  | .conditional _ condition yes no, atTokens => by
      obtain ⟨first, branches⟩ := atTokens_append.mp (atTokens_head atTokens).2
      obtain ⟨second, third⟩ := atTokens_append.mp branches
      unfold Frame.exprScript
      apply (located_expr condition first).bind
      intro value
      split
      · exact located_expr yes second
      · exact located_expr no third

theorem located_items : (items : List Expr) → AtTokens tokens (Expr.positionsOfItems items) →
    Located frame tokens (frame.itemsScript items)
  | [], _ => located_pure []
  | item :: rest, atTokens => by
      obtain ⟨first, others⟩ := atTokens_append.mp atTokens
      unfold Frame.itemsScript
      exact (located_expr item first).bind fun _ =>
        (located_items rest others).bind fun _ => located_pure _

theorem located_entries : (entries : List (String × Expr)) →
    AtTokens tokens (Expr.positionsOfEntries entries) →
    Located frame tokens (frame.entriesScript entries)
  | [], _ => located_pure []
  | (key, item) :: rest, atTokens => by
      obtain ⟨first, others⟩ := atTokens_append.mp atTokens
      unfold Frame.entriesScript
      exact (located_expr item first).bind fun _ =>
        (located_entries rest others).bind fun _ => located_pure _

end

theorem located_assign {position : Nat} (here : AtTokens tokens [position]) (name : String)
    (value : Value) :
    Located frame tokens (do
      match assignScopes? (← get) name value with
      | some scopes => set scopes
      | none => frame.placed position (.error (.undeclaredVariable name))) := by
  have current : Located frame tokens (get : ScriptM (List Fields)) :=
    located_silent (fun _ => rfl) fun scopes => ⟨(scopes, scopes), rfl⟩
  refine current.bind fun scopes => ?_
  cases assignScopes? scopes name value with
  | some scopes => exact located_silent (fun _ => rfl) fun _ => ⟨((), scopes), rfl⟩
  | none => exact located_placed here _

mutual

theorem located_node : (node : Node) → AtTokens tokens node.positions →
    Located frame tokens (frame.nodeScript node)
  | .text content, _ => by
      unfold Frame.nodeScript
      exact located_write _
  | .echo value, atTokens => by
      unfold Frame.nodeScript
      exact (located_expr value atTokens).bind fun _ => located_write _
  | .expression value, atTokens => by
      unfold Frame.nodeScript
      exact (located_expr value atTokens).bind fun _ => located_pure ()
  | .declare name value, atTokens => by
      unfold Frame.nodeScript
      exact (located_expr value atTokens).bind fun value =>
        located_modify fun scopes => declareScopes scopes name value
  | .assign position name value, atTokens => by
      obtain ⟨here, inner⟩ := atTokens_head atTokens
      unfold Frame.nodeScript
      exact (located_expr value inner).bind fun value => located_assign here name value
  | .choose branches none, atTokens => by
      unfold Frame.nodeScript
      exact (located_branches branches atTokens).bind fun _ => located_pure ()
  | .choose branches (some body), atTokens => by
      obtain ⟨first, last⟩ := atTokens_append.mp atTokens
      unfold Frame.nodeScript
      apply (located_branches branches first).bind
      intro taken
      cases taken with
      | true => exact located_pure ()
      | false => exact located_inScope [] (located_nodes body last)
  | .each first second entries body, atTokens => by
      obtain ⟨head, inner⟩ := atTokens_append.mp atTokens
      have here : AtTokens tokens [entries.position] :=
        atTokens_cons.mpr ⟨head _ entries.position_mem, atTokens_nil⟩
      unfold Frame.nodeScript
      exact (located_expr entries head).bind fun _ =>
        (located_placed here _).bind fun rounds =>
          located_forEntries (fun key item => located_inScope _ (located_nodes body inner)) rounds
  | .embed position path none, atTokens => by
      obtain ⟨here, inner⟩ := atTokens_head atTokens
      unfold Frame.nodeScript Frame.embedScript
      exact (located_expr path inner).bind fun _ => located_ask here _ _
  | .embed position path (some environment), atTokens => by
      obtain ⟨here, inner⟩ := atTokens_head atTokens
      obtain ⟨first, second⟩ := atTokens_append.mp inner
      unfold Frame.nodeScript Frame.embedScript
      exact (located_expr path first).bind fun _ => (located_expr environment second).bind fun _ =>
        (located_placed here _).bind fun _ => located_ask here _ _

theorem located_nodes : (nodes : List Node) → AtTokens tokens (Node.positionsOfAll nodes) →
    Located frame tokens (frame.nodesScript nodes)
  | [], _ => located_pure ()
  | node :: rest, atTokens => by
      obtain ⟨first, others⟩ := atTokens_append.mp atTokens
      unfold Frame.nodesScript
      exact (located_node node first).bind fun _ => located_nodes rest others

theorem located_branches : (branches : List (Expr × List Node)) →
    AtTokens tokens (Node.positionsOfBranches branches) →
    Located frame tokens (frame.branchesScript branches)
  | [], _ => located_pure false
  | (condition, body) :: rest, atTokens => by
      obtain ⟨first, others⟩ := atTokens_append.mp atTokens
      obtain ⟨inner, behind⟩ := atTokens_append.mp others
      unfold Frame.branchesScript
      apply (located_expr condition first).bind
      intro value
      split
      · exact (located_inScope [] (located_nodes body inner)).bind fun _ => located_pure true
      · exact located_branches rest behind

end

end Scripts

/-! ## Frames that fail -/

/-- The errors that nodes of a frame's template end with: that of its script, and that of a call of
`include` when the context is gone. -/
def Frame.Fails (frame : Frame) (error : Error) : Prop :=
  frame.script.result = .error error ∨
    frame.contextAlive = false ∧ ∃ position target bindings,
      .embed position target bindings ∈ frame.script.requests ∧
        error = frame.template.error position .contextGone

/-- An error of a node of a frame's template at one of the tokens of the template's source. It has the
name of the template, and the line and column of the token as the text before it says. -/
def Frame.Reports (frame : Frame) (error : Error) : Prop :=
  frame.Fails error ∧ ∃ source tokens placed before problem, frame.template.From source ∧
    scan source.toList = .ok tokens ∧ placed ∈ tokens ∧ before <+: source.toList ∧
    byteLength before = placed.position ∧
    error = .runtime frame.template.filename (.behind before) problem

theorem Compiled.From.locate {template : Compiled} {source : String} (made : template.From source)
    {position : Nat} (boundary : Boundary source.toList position) :
    ∃ before, before <+: source.toList ∧ byteLength before = position ∧
      template.lines.locate position = .behind before := by
  obtain ⟨before, leads, rfl⟩ := boundary
  exact ⟨before, leads, rfl, by rw [made.lines, locate_behind leads]⟩

theorem Frame.located_script {frame : Frame} {tokens : List Placed}
    (atTokens : AtTokens tokens (Node.positionsOfAll frame.template.nodes)) :
    (∀ position target bindings, .embed position target bindings ∈ frame.script.requests →
      AtTokens tokens [position]) ∧
    ∀ error, frame.script.result = .error error →
      ∃ placed ∈ tokens, ∃ problem, error = frame.template.error placed.position problem := by
  have located : Located frame tokens (frame.nodesScript frame.template.nodes) :=
    located_nodes frame.template.nodes atTokens
  have embeds := located.embeds [[]]
  have fails := located.fails [[]]
  have same : frame.script =
      (frame.nodesScript frame.template.nodes [[]] >>= fun _ => pure ()) := rfl
  rw [same]
  generalize frame.nodesScript frame.template.nodes [[]] = script at embeds fails
  obtain ⟨requests, result⟩ := script
  cases result with
  | error other => exact ⟨embeds, fun error failed => fails error (by cases failed; rfl)⟩
  | ok outcome =>
      refine ⟨fun position target bindings asked => embeds position target bindings ?_,
        fun error failed => by cases failed⟩
      simpa [bind, pure] using asked

/-- An error of a node of a frame's template stands at one of the tokens of the source. -/
theorem Frame.Fails.exists_token {frame : Frame} {source : String} (made : frame.template.From source) {error : Error}
    (fails : frame.Fails error) :
    ∃ tokens placed before problem, scan source.toList = .ok tokens ∧ placed ∈ tokens ∧ before <+: source.toList ∧
      byteLength before = placed.position ∧ error = .runtime frame.template.filename (.behind before) problem := by
  obtain ⟨tokens, scanned, atTokens⟩ := parse_positions made.parsed
  obtain ⟨embeds, ends⟩ := Frame.located_script atTokens
  obtain ⟨placed, member, problem, rfl⟩ :
      ∃ placed ∈ tokens, ∃ problem, error = frame.template.error placed.position problem := by
    rcases fails with failed | ⟨-, position, target, bindings, asked, rfl⟩
    · exact ends error failed
    · obtain ⟨placed, member, rfl⟩ := embeds position target bindings asked position (by simp)
      exact ⟨placed, member, .contextGone, rfl⟩
  obtain ⟨before, leads, width, located⟩ := made.locate (scan_boundary scanned placed member)
  refine ⟨tokens, placed, before, problem, scanned, member, leads, width, ?_⟩
  rw [Compiled.error, located]

theorem Frame.reports {frame : Frame} {source : String} (made : frame.template.From source) {error : Error}
    (fails : frame.Fails error) : frame.Reports error := by
  obtain ⟨tokens, placed, before, problem, found⟩ := fails.exists_token made
  exact ⟨fails, source, tokens, placed, before, problem, made, found⟩

/-! ## Evaluations that fail -/

/-- Whether all templates in a cache were compiled from some source. -/
def Cache.Genuine (cache : Cache) : Prop := ∀ entry ∈ cache.entries, ∃ source, entry.2.From source

section Evaluations

variable {fs : FileSystem} {shared : Shared}

theorem Cache.Genuine.load {cache after : Cache} (genuine : cache.Genuine) {path : Path}
    {properties : Properties} {template : Compiled}
    (loaded : load fs cache path properties = .ok (template, after)) :
    (∃ source, template.From source) ∧ after.Genuine := by
  rcases load_cases loaded with ⟨rfl, known, -⟩ | ⟨⟨source, -, made⟩, -, entries⟩
  · obtain ⟨entry, found, rfl⟩ := Option.map_eq_some_iff.mp known
    exact ⟨genuine entry (List.mem_of_find?_eq_some found), genuine⟩
  · refine ⟨⟨source, made⟩, ?_⟩
    rw [Cache.Genuine, entries, Cache.put]
    exact List.forall_mem_cons.mpr ⟨⟨source, made⟩,
      fun entry member => genuine entry ((List.mem_filter.mp member).1)⟩

/-- The templates that are loaded on the way come from sources, and so do all that are cached then. -/
theorem Traced.genuine {known : List Frame} {cache : Cache} {events : List Event}
    (traced : Traced fs shared known cache events) (genuine : cache.Genuine) :
    (∀ frame ∈ events.filterMap (Event.frame? shared), ∃ source, frame.template.From source) ∧
      (cacheAfter events cache).Genuine := by
  induction events generalizing known cache with
  | nil => exact ⟨by simp, genuine⟩
  | cons event events ih =>
      cases event with
      | write template chunk => exact ih traced.2 genuine
      | load asked path properties outcome =>
          obtain ⟨⟨rfl, same⟩, rest⟩ := traced
          cases outcome with
          | error error => exact ih rest genuine
          | ok found =>
              obtain ⟨made, still⟩ := genuine.load same.symm
              obtain ⟨others, last⟩ := ih rest still
              exact ⟨List.forall_mem_cons.mpr ⟨made, others⟩, last⟩

theorem load_ne_runtime {cache : Cache} {path : Path} {properties : Properties} {file : String}
    {location : Text.Location} {problem : RuntimeProblem} :
    load fs cache path properties ≠ .error (.runtime file location problem) := by
  intro failed
  unfold load loadAcross at failed
  split at failed
  · cases failed
  dsimp only at failed
  split at failed
  · cases failed
  split at failed
  · cases failed
  · rename_i error compiled
    cases failed
    unfold compileFile at compiled
    split at compiled
    · cases compiled
    · rcases bind_eq_error.mp compiled with compiled | ⟨_, _, done⟩
      · unfold compile at compiled
        dsimp only at compiled
        split at compiled <;> cases compiled
      · cases done

variable {file : String} {location : Text.Location} {problem : RuntimeProblem}

theorem failing_ofRequests {frame : Frame} {courses : Path → Properties → Cache → Course}
    (included : ∀ path properties cache,
      (courses path properties cache).result = .error (.runtime file location problem) →
        ∃ failing ∈ (courses path properties cache).events.filterMap (Event.frame? shared),
          failing.Fails (.runtime file location problem))
    {requests : List Request} (asked : requests ⊆ frame.script.requests) {cache : Cache}
    (ended : (Course.ofRequests frame courses frame.script.result requests cache).result =
      .error (.runtime file location problem)) :
    ∃ failing ∈ frame :: (Course.ofRequests frame courses frame.script.result requests
        cache).events.filterMap (Event.frame? shared),
      failing.Fails (.runtime file location problem) := by
  induction requests generalizing cache with
  | nil => exact ⟨frame, by simp, .inl ended⟩
  | cons request rest ih =>
      obtain ⟨first, others⟩ := List.cons_subset.mp asked
      cases request with
      | write chunk => exact ih others ended
      | embed position target bindings =>
          rw [Course.ofRequests] at ended ⊢
          cases alive : frame.contextAlive with
          | false =>
              rw [alive] at ended
              refine ⟨frame, by simp, .inr ⟨alive, position, target, bindings, first, ?_⟩⟩
              cases ended
              rfl
          | true =>
              simp only [alive, Bool.not_true, Bool.false_eq_true, if_false] at ended ⊢
              have inner := included (frame.template.directory.resolve ⟨target⟩)
                { frame.properties with bindings, filename := none } cache
              generalize courses _ _ cache = course at ended inner ⊢
              obtain ⟨events, result⟩ := course
              cases result with
              | error error =>
                  obtain ⟨failing, member, fails⟩ := inner ended
                  exact ⟨failing, List.mem_cons_of_mem _ member, fails⟩
              | ok value =>
                  obtain ⟨failing, member, fails⟩ := ih others ended
                  refine ⟨failing, ?_, fails⟩
                  simp only [Course.after, List.filterMap_append, List.mem_cons, List.mem_append] at member ⊢
                  exact member.imp_right .inr

theorem failing_ofFile (fs : FileSystem) (shared : Shared) (depth : Nat) (path : Path)
    (properties : Properties) (cache : Cache)
    (ended : (Course.ofFile fs shared depth path properties cache).result =
      .error (.runtime file location problem)) :
    ∃ failing ∈ (Course.ofFile fs shared depth path properties cache).events.filterMap
        (Event.frame? shared), failing.Fails (.runtime file location problem) := by
  induction depth generalizing path properties cache with
  | zero => cases ended
  | succ depth ih =>
      rw [Course.ofFile] at ended ⊢
      cases loaded : load fs cache path properties with
      | error error =>
          rw [loaded] at ended
          cases ended
          exact absurd loaded load_ne_runtime
      | ok found =>
          rw [loaded] at ended
          exact failing_ofRequests ih (List.Subset.refl _) ended

theorem failing_ofCompiled (fs : FileSystem) (shared : Shared) (depth : Nat) (contextAlive : Bool)
    (template : Compiled) (properties : Properties) (cache : Cache)
    (ended : (Course.ofCompiled fs shared depth contextAlive template properties cache).result =
      .error (.runtime file location problem)) :
    ∃ failing ∈ ⟨template, properties, shared, contextAlive⟩ ::
        (Course.ofCompiled fs shared depth contextAlive template properties cache).events.filterMap
          (Event.frame? shared), failing.Fails (.runtime file location problem) :=
  failing_ofRequests (failing_ofFile fs shared depth) (List.Subset.refl _) ended

/-- An error that is not the sink's is the error that the course ends with, after all its events. -/
theorem happen_runtime {result : Except Error Unit} {events : List Event} {run after : Run}
    (ended : happen result events run = (.error (.runtime file location problem), after)) :
    result = .error (.runtime file location problem) ∧ happened run.output events = events := by
  induction events generalizing run with
  | nil =>
      cases ended
      exact ⟨rfl, rfl⟩
  | cons event events ih =>
      cases event with
      | write template chunk =>
          simp only [happen] at ended
          simp only [happened]
          cases taken : run.output.write? chunk.text with
          | none => simp [taken] at ended
          | some output =>
              rw [taken] at ended
              obtain ⟨same, all⟩ := ih ended
              exact ⟨same, congrArg _ all⟩
      | load asked path properties outcome =>
          obtain ⟨same, all⟩ := ih ended
          exact ⟨same, congrArg _ all⟩

end Evaluations

/-- A source that is no template is refused at the place behind a part of it. -/
theorem compile_error {source filename : String} {error : Error} (failed : compile source filename = .error error) :
    ∃ problem before, parse source.toList = .error ⟨byteLength before, problem⟩ ∧ before <+: source.toList ∧
      error = .compile filename (.behind before) problem := by
  unfold compile at failed
  dsimp only at failed
  split at failed <;> cases failed
  rename_i error refused
  obtain ⟨before, leads, width⟩ := parse_error refused
  exact ⟨error.problem, before, by rw [width, refused], leads, by rw [← width, locate_behind leads]⟩

/-- Every template diagnostic points into its source. The tokens of a source ascend up to the end, each
between two characters; a source that is no template is refused between two characters as well; an error
of an evaluation is reported by the template whose node failed, at one of its tokens; and lines and
columns are those that the text before a place has. Nothing is cut out of a source where it has nothing,
and no column is found by going below zero. -/
theorem diagnostics_point_into_sources :
    (∀ source : String,
      (∀ tokens, scan source.toList = .ok tokens →
        tokens.Pairwise (·.position < ·.position) ∧
        (tokens.getLast?.map fun last => (last.token, last.position)) =
          some (.finish, byteLength source.toList) ∧
        ∀ placed ∈ tokens, Boundary source.toList placed.position) ∧
      (∀ error, scan source.toList = .error error → Boundary source.toList error.position) ∧
      ∀ filename error, compile source filename = .error error →
        ∃ problem before, parse source.toList = .error ⟨byteLength before, problem⟩ ∧
          before <+: source.toList ∧ error = .compile filename (.behind before) problem) ∧
    (∀ fs shared depth contextAlive template properties (run : Run),
      (∃ source, template.From source) → run.cache.Genuine →
      let course := Course.ofCompiled fs shared depth contextAlive template properties run.cache
      let evaluated := course.evaluated run.output { template, properties, shared, contextAlive }
      ∀ outcome after, evalCompiled fs shared depth contextAlive template properties run = (outcome, after) →
        after.cache.Genuine ∧
        ∀ file location problem, outcome = .error (.runtime file location problem) →
          ∃ frame ∈ evaluated, frame.Reports (.runtime file location problem)) ∧
    (∀ fs shared depth path properties (run : Run), run.cache.Genuine →
      let course := Course.ofFile fs shared depth path properties run.cache
      let evaluated := (happened run.output course.events).filterMap (Event.frame? shared)
      ∀ outcome after, evalFile fs shared depth path properties run = (outcome, after) →
        after.cache.Genuine ∧
        ∀ file location problem, outcome = .error (.runtime file location problem) →
          ∃ frame ∈ evaluated, frame.Reports (.runtime file location problem)) ∧
    (∀ source before : List Char, before <+: source →
      let index := LineIndex.ofText source
      index.locate (byteLength before) = .behind before ∧
        (index.laterStarts.takeWhile (· ≤ byteLength before)).getLastD 0 ≤ byteLength before) ∧
    (∀ source, ∀ piece ∈ pieces source, piece.SlicedFrom source) ∧
    ∀ c rest found, lexeme c rest = .ok found → found.more ≤ rest.length := by
  refine ⟨fun source => ⟨fun tokens scanned => ?_, fun error => scan_error, ?_⟩, ?_, ?_, ?_,
    pieces_sliced, fun c rest found => lexeme_more_le⟩
  · refine ⟨scan_ascending scanned, ?_, scan_boundary scanned⟩
    obtain ⟨front, rfl, -⟩ := scan_lined scanned
    simp
  · exact fun filename error => compile_error
  · intro fs shared depth contextAlive template properties run made genuine course evaluated outcome after ran
    rw [evalCompiled_eq] at ran
    have traced := traced_ofCompiled fs shared depth contextAlive template properties run.cache
    have left := cache_happen course.result course.events run
    rw [show happen course.result course.events run = (outcome, after) from ran] at left
    obtain ⟨loaded, still⟩ := (traced.ofPrefix (happened_isPrefix run.output course.events)).genuine genuine
    refine ⟨left ▸ still, ?_⟩
    rintro file location problem rfl
    obtain ⟨ended, all⟩ := happen_runtime ran
    obtain ⟨frame, member, fails⟩ := failing_ofCompiled _ _ _ _ _ _ _ ended
    rw [← all] at member
    obtain ⟨source, made⟩ : ∃ source, frame.template.From source := by
      rcases List.mem_cons.mp member with rfl | member
      · exact made
      · exact loaded frame member
    exact ⟨frame, member, Frame.reports made fails⟩
  · intro fs shared depth path properties run genuine course evaluated outcome after ran
    rw [evalFile_eq] at ran
    have traced := traced_ofFile fs shared depth path properties run.cache []
    have left := cache_happen course.result course.events run
    rw [show happen course.result course.events run = (outcome, after) from ran] at left
    obtain ⟨loaded, still⟩ := (traced.ofPrefix (happened_isPrefix run.output course.events)).genuine genuine
    refine ⟨left ▸ still, ?_⟩
    rintro file location problem rfl
    obtain ⟨ended, all⟩ := happen_runtime ran
    obtain ⟨frame, member, fails⟩ := failing_ofFile _ _ _ _ _ _ ended
    rw [← all] at member
    obtain ⟨source, made⟩ := loaded frame member
    exact ⟨frame, member, Frame.reports made fails⟩
  · exact fun source before leads => ⟨locate_behind leads, lineStart_le _ _⟩

/-- The place and the message of what an evaluation without files and functions fails with. -/
def runtimeFailure? (source filename : String) : Option (String × Text.Location × String) :=
  match compile source filename with
  | .error _ => none
  | .ok template =>
    match (evalCompiled (.initial [] 0) .bare 1 true template {} {}).1 with
    | .ok _ => none
    | .error (.compile ..) => none
    | .error (.runtime file location problem) => some (file, location, problem.message)
    | .error (.io ..) => none
    | .error .tooDeep => none

/-- A name that is not defined, in the second line, behind a character of two bytes in the first. -/
theorem diagnostics_point_into_sources_undefined :
    ∃ frame problem, problem.message = RuntimeProblem.message (.undefinedName "x") ∧
      Frame.Reports frame (.runtime "t" ⟨2, 5⟩ problem) := by
  have failure : runtimeFailure? "é\n<?= x ?>" "t" =
      some ("t", ⟨2, 5⟩, RuntimeProblem.message (.undefinedName "x")) := by decide +kernel
  unfold runtimeFailure? at failure
  cases compiled : compile "é\n<?= x ?>" "t" with
  | error error => simp [compiled] at failure
  | ok template =>
      simp only [compiled] at failure
      have points := diagnostics_point_into_sources.2.1 (.initial [] 0) .bare 1 true template {} {}
        ⟨_, (compile_ok compiled).1⟩ (by simp [Cache.Genuine]) _ _ rfl
      split at failure
      · cases failure
      · cases failure
      · rename_i file location problem ended
        simp only [Option.some.injEq, Prod.mk.injEq] at failure
        obtain ⟨rfl, rfl, same⟩ := failure
        obtain ⟨frame, -, reports⟩ := points.2 _ _ _ ended
        exact ⟨frame, problem, same, reports⟩
      · cases failure
      · cases failure

end StaticSite.Template
