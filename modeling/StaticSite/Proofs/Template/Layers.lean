import StaticSite.Proofs.Json.Fields
import StaticSite.Proofs.Template.Likeness

/-!
Layers of variables. A template cannot tell whether a variable is a constant of the context or one of the
caller's: only the layer that wins counts, here and in all files that it includes.
-/

namespace StaticSite.Template

open Json (Value Fields)

/-- The functions of a context without its constants. -/
def Shared.withoutConstants (shared : Shared) : Shared := { shared with constants := [] }

theorem Shared.function?_withoutConstants (shared : Shared) :
    shared.function? = shared.withoutConstants.function? := rfl

/-- The caller's variables together with the constants that they do not hide. -/
def Properties.over (properties : Properties) (constants : Fields) : Properties :=
  { properties with bindings := constants.overriddenBy properties.bindings }

/-- Bindings that say the same as other ones over constants. -/
def Settles (constants bindings settled : Fields) : Prop :=
  ∀ name, (bindings.get? name).or (constants.get? name) = settled.get? name

theorem settles_overriddenBy {bindings : Fields}
    (distinct : bindings.Pairwise fun left right => left.1 ≠ right.1) (constants : Fields) :
    Settles constants bindings (constants.overriddenBy bindings) :=
  fun name => (Fields.get?_overriddenBy distinct name).symm

theorem Settles.insert {constants bindings settled : Fields} (settles : Settles constants bindings settled)
    (name : String) (value : Value) :
    Settles constants (bindings.insert name value) (settled.insert name value) := by
  intro other
  rw [Fields.get?_insert, Fields.get?_insert]
  split
  · rfl
  · exact settles other

theorem Settles.overridden {constants bindings settled : Fields}
    (settles : Settles constants bindings settled) (extra : Fields) :
    Settles constants (bindings.overriddenBy extra) (settled.overriddenBy extra) := by
  induction extra generalizing bindings settled with
  | nil => exact settles
  | cons field rest ih => exact ih (settles.insert field.1 field.2)

/-- Evaluations that differ in the layer that a variable comes from, and in nothing else. -/
def layering (shared : Shared) (reuse : Bool) : Likeness shared shared.withoutConstants where
  Fields := Settles shared.constants
  Templates := Eq
  Errors := Eq
  Paths := Eq
  Caches := Eq
  reuse
  functions := shared.function?_withoutConstants
  visible settles name := (settles name).trans (Option.or_none).symm
  overridden := Settles.overridden
  nodes same := congrArg _ same
  resolved same _ := same ▸ rfl
  failed same _ _ := same ▸ rfl
  tooDeep := rfl

section Layering

variable {shared : Shared} {reuse : Bool}

theorem layering_reads (fs : FileSystem) : (layering shared reuse).Reads (fun _ => True) fs fs := by
  rintro path _ cache _ properties properties' - rfl rfl said
  have same : load fs cache path properties' = load fs cache path properties := by
    unfold load loadAcross
    rw [said.filename, said.reuse, said.reuse']
  rw [same]
  cases load fs cache path properties with
  | error error => exact .error rfl
  | ok found => exact .ok rfl rfl

/-- Courses that differ in layers only take place in the same way, whatever the sink takes. -/
theorem layering_run {course course' : Course} (alike : (layering shared reuse).Courses course course')
    (run : Run) : course.run run = course'.run run := by
  obtain ⟨events, result⟩ := course
  obtain ⟨events', result'⟩ := course'
  obtain ⟨same, ends⟩ := alike
  dsimp only at same ends
  have ended : result = result' := by
    cases ends with
    | ok value => rfl
    | error errors => exact congrArg _ errors
  subst ended
  change happen result events run = happen result events' run
  induction same generalizing run with
  | nil => rfl
  | cons event _ ih =>
      cases event with
      | write templates chunk =>
          cases templates
          simp only [happen]
          cases run.output.write? chunk.text with
          | none => rfl
          | some output => exact ih { run with output }
      | load asked asked' paths said loads =>
          simp only [happen]
          cases loads with
          | error errors => exact ih run
          | ok templates caches =>
              cases caches
              exact ih { run with cache := _ }

end Layering

/-- A call of a name that a variable has fails before anything else happens. -/
theorem eval_call_of_bound {frame : Frame} {name : String} {run : Run}
    (bound : (frame.lookup run.scopes name).isSome) (position : Nat) (arguments : List Expr) :
    frame.eval (.call position name arguments) run =
      (.error (frame.template.error position (.notAFunction name)), run) := by
  unfold Frame.eval
  change (if (frame.lookup run.scopes name).isSome then _ else _ : EvalM Value) run = _
  rw [if_pos bound]
  rfl

/-- Constants are as good as variables of the caller that everything else hides. -/
theorem constants_as_variables (fs : FileSystem) (shared : Shared) (properties : Properties)
    (distinct : properties.bindings.Pairwise fun left right => left.1 ≠ right.1) :
    let settled := properties.over shared.constants
    (∀ depth contextAlive template run,
      evalCompiled fs shared depth contextAlive template properties run =
        evalCompiled fs shared.withoutConstants depth contextAlive template settled run) ∧
    (∀ depth path run,
      evalFile fs shared depth path properties run =
        evalFile fs shared.withoutConstants depth path settled run) ∧
    ∀ template contextAlive position name arguments (run : Run),
      (lookupScopes run.scopes name).isSome ∨ properties.bindings.contains name ∨
          shared.constants.contains name →
        let failure := (.error (template.error position (.notAFunction name)), run)
        Frame.eval ⟨template, properties, shared, contextAlive⟩ (.call position name arguments) run =
            failure ∧
          Frame.eval ⟨template, settled, shared.withoutConstants, contextAlive⟩
            (.call position name arguments) run = failure := by
  intro settled
  have said : (layering shared properties.reuse).Properties properties settled :=
    ⟨settles_overriddenBy distinct _, rfl, rfl, rfl⟩
  refine ⟨fun depth contextAlive template run => ?_, fun depth path run => ?_, ?_⟩
  · rw [evalCompiled_eq, evalCompiled_eq]
    exact layering_run (Likeness.courses_ofCompiled (layering_reads fs) depth contextAlive rfl said rfl
      fun _ _ _ _ _ => trivial) run
  · rw [evalFile_eq, evalFile_eq]
    exact layering_run (Likeness.courses_ofFile (layering_reads fs) depth _ _ _ _ _ _ rfl said rfl
      fun _ _ _ _ _ => trivial) run
  · intro template contextAlive position name arguments run bound
    have alike : (layering shared properties.reuse).Frames ⟨template, properties, shared, contextAlive⟩
        ⟨template, settled, shared.withoutConstants, contextAlive⟩ := ⟨rfl, said, rfl, rfl, rfl⟩
    have visible : (Frame.lookup ⟨template, properties, shared, contextAlive⟩ run.scopes name).isSome := by
      simpa [Frame.lookup, Fields.contains, Option.isSome_or] using bound
    refine ⟨eval_call_of_bound visible position arguments, eval_call_of_bound ?_ position arguments⟩
    rwa [← alike.lookup_eq]

/-- A template that writes a title and the name of a site. -/
def titleTemplate : Compiled :=
  { nodes := [.echo (.variable 4 "title"), .echo (.variable 18 "site")], filename := "t", path := ⟨"t"⟩
    lines := .ofText [], stamp := 0, serial := 0 }

/-- The title of the caller hides the constant of that name; the other constant stays. -/
theorem constants_as_variables_title :
    let shared : Shared := ⟨[("site", .string "S"), ("title", .string "T")], standardFunction?⟩
    let properties : Properties := { bindings := [("title", .string "P")] }
    properties.bindings.Pairwise (fun left right => left.1 ≠ right.1) ∧
      (properties.over shared.constants).bindings.map (·.1) = ["site", "title"] ∧
      (textOf (evalCompiled (.initial [] 0) shared.withoutConstants 1 true titleTemplate
        (properties.over shared.constants)) {}).1.toOption = some "PS" := by
  intro shared properties
  have distinct : properties.bindings.Pairwise fun left right => left.1 ≠ right.1 :=
    List.pairwise_singleton _ _
  have same : evalCompiled (.initial [] 0) shared 1 true titleTemplate properties =
      evalCompiled (.initial [] 0) shared.withoutConstants 1 true titleTemplate
        (properties.over shared.constants) :=
    funext ((constants_as_variables (.initial [] 0) shared properties distinct).1 1 true titleTemplate)
  rw [← same]
  exact ⟨distinct, by decide, by decide⟩

end StaticSite.Template
