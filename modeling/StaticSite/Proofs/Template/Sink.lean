import StaticSite.Proofs.Template.Course
import StaticSite.Proofs.Text.Utf8

/-!
Sinks. An evaluation makes the same writes whatever it writes into, up to the first one that is refused;
the file that the error of a refused write names is that of the template that makes it.
-/

namespace StaticSite.Template

/-- The strings of a course with the templates that write them. -/
def Course.writes (course : Course) : List (Compiled × Chunk) := course.events.filterMap Event.write?

/-- What a sink of bytes holds after it was given the strings of an output one by one. -/
def Output.bytes (output : Output) : Bytes :=
  output.chunks.toList.foldl (fun held text => held ++ Text.Utf8.encode text) []

theorem Output.bytes_eq (output : Output) : output.bytes = Text.Utf8.encode output.text := by
  rw [Output.bytes, Output.text, String.join_eq_foldl]
  change List.foldl _ (Text.Utf8.encode "") _ = _
  apply List.foldl_hom Text.Utf8.encode
  intro held text
  exact (Text.Utf8.encode_append held text).symm

theorem Output.write?_unlimited {output : Output} (unlimited : output.limit = none) (text : String) :
    output.write? text = some { output with chunks := output.chunks.push text } := by
  simp [Output.write?, unlimited]

theorem happen_unlimited (result : Except Error Unit) (events : List Event) (run : Run)
    (unlimited : run.output.limit = none) :
    (happen result events run).1 = result ∧ happened run.output events = events := by
  induction events generalizing run with
  | nil => exact ⟨rfl, rfl⟩
  | cons event events ih =>
      cases event with
      | load cache path properties outcome =>
          rw [happen, happened]
          refine And.imp_right (congrArg _) (ih _ ?_)
          exact unlimited
      | write template chunk =>
          rw [happen, happened, Output.write?_unlimited unlimited]
          refine And.imp_right (congrArg _) (ih _ ?_)
          exact unlimited

/-- A sink that takes `room` more strings takes that many of a course. -/
theorem happen_limited (result : Except Error Unit) (events : List Event) (run : Run) (room : Nat)
    (limited : run.output.limit = some (run.output.chunks.size + room)) :
    (happen result events run).1 =
        (match (events.filterMap Event.write?)[room]? with
          | some (template, _) => .error (.io template.filename (.other "sink is full"))
          | none => result) ∧
      (happened run.output events).filterMap Event.write? = (events.filterMap Event.write?).take room := by
  induction events generalizing run room with
  | nil => simp [happen, happened]
  | cons event events ih =>
      cases event with
      | load cache path properties outcome => exact ih { run with cache := _ } room limited
      | write template chunk =>
          cases room with
          | zero =>
              have refused : run.output.write? chunk.text = none := by
                simp [Output.write?, limited]
              simp [happen, happened, refused, Event.write?]
          | succ room =>
              have taken : run.output.write? chunk.text =
                  some { run.output with chunks := run.output.chunks.push chunk.text } := by
                simp [Output.write?, limited]
              rw [happen, happened, taken]
              simp only [List.filterMap_cons_some (show Event.write? (.write template chunk) = some _ from rfl)]
              refine And.imp_right (congrArg _) (ih _ room ?_)
              rw [limited, Array.size_push]
              congr 1
              omega

/-- Streaming and buffered evaluation agree. -/
theorem sink_truncates (fs : FileSystem) (shared : Shared) (depth : Nat) (contextAlive : Bool)
    (template : Compiled) (properties : Properties) (cache : Cache) (room : Nat) :
    let evaluation := evalCompiled fs shared depth contextAlive template properties
    let course := Course.ofCompiled fs shared depth contextAlive template properties cache
    let whole := evaluation.run.run { cache }
    let part := evaluation.run.run { output := { limit := some room }, cache }
    let written := whole.2.output.chunks.toList
    course.writes.map (·.2.text) = written ∧
      (textOf evaluation cache).1 = whole.1.map (fun _ => String.join written) ∧
      whole.2.output.bytes = Text.Utf8.encode (String.join written) ∧
      part.2.output.chunks.toList = written.take room ∧
      part.1 =
        match course.writes[room]? with
        | some (performing, _) => .error (.io performing.filename (.other "sink is full"))
        | none => whole.1 := by
  intro evaluation course whole part written
  have ran (output : Output) :
      evaluation.run.run { output, cache } = happen course.result course.events { output, cache } :=
    evalCompiled_eq fs shared depth contextAlive template properties { output, cache }
  have chunks (output : Output) := chunks_happen course.result course.events { output, cache }
  obtain ⟨ended, all⟩ := happen_unlimited course.result course.events { cache } rfl
  obtain ⟨stopped, taken⟩ := happen_limited course.result course.events
    { output := { limit := some room }, cache } room (by simp)
  have same : course.writes.map (·.2.text) = written := by
    have took := chunks {}
    rw [← ran, all] at took
    exact took.symm
  refine ⟨same, rfl, Output.bytes_eq whole.2.output, ?_, ?_⟩
  · have took := chunks { limit := some room }
    rw [← ran, taken, List.map_take] at took
    rw [← same]
    exact took
  · rw [← ran] at ended stopped
    rw [show whole.1 = course.result from ended]
    exact stopped

end StaticSite.Template
