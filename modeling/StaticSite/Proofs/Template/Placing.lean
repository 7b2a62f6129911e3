import StaticSite.Proofs.Template.Phrase
import StaticSite.Proofs.Template.Script

/-!
Positions show in the places of errors only. Expressions that differ in nothing but their positions have the same value,
write the same and fail for the same reason, also in templates that differ in their nodes and lines.
-/

namespace StaticSite.Template

open Json (Value)

/-- The error without its place. -/
def Error.unplaced : Error → Error
  | .runtime file _ problem => .runtime file ⟨0, 0⟩ problem
  | error => error

section

variable {α β : Type}

/-- How an action ends, but for the place of an error, and what it leaves. -/
def ending (action : EvalM α) (run : Run) : Except Error α × Run :=
  ((action run).1.mapError Error.unplaced, (action run).2)

theorem ending_congr {action action' : EvalM α} {run : Run} (same : action run = action' run) :
    ending action run = ending action' run := by
  rw [ending, ending, same]

/-- Actions that end alike and leave the same from every run. -/
def Coincide (action action' : EvalM α) : Prop := ∀ run, ending action run = ending action' run

theorem Coincide.refl (action : EvalM α) : Coincide action action := fun _ => rfl

theorem ending_ok {action : EvalM α} {run after : Run} {value : α} (gives : action run = (.ok value, after)) :
    ending action run = (.ok value, after) := by
  rw [ending, gives]
  rfl

theorem apply_of_ending {action : EvalM α} {run after : Run} {value : α}
    (gives : ending action run = (.ok value, after)) : action run = (.ok value, after) := by
  unfold ending at gives
  generalize action run = outcome at gives ⊢
  rcases outcome with ⟨_ | _, _⟩
  · cases gives
  · exact gives

theorem ending_bind (action : EvalM α) (next : α → EvalM β) (run : Run) :
    ending (action >>= next) run =
      match ending action run with
      | (.ok value, after) => ending (next value) after
      | (.error error, after) => (.error error, after) := by
  unfold ending
  rw [bind_apply]
  rcases action run with ⟨_ | _, _⟩ <;> rfl

theorem ending_bind_eq {action action' : EvalM α} {next next' : α → EvalM β} {run : Run}
    (first : ending action run = ending action' run) (rest : ∀ value, Coincide (next value) (next' value)) :
    ending (action >>= next) run = ending (action' >>= next') run := by
  rw [ending_bind, ending_bind, first]
  rcases ending action' run with ⟨_ | value, after⟩
  · rfl
  · exact rest value after

theorem Coincide.bind {action action' : EvalM α} {next next' : α → EvalM β} (first : Coincide action action')
    (rest : ∀ value, Coincide (next value) (next' value)) : Coincide (action >>= next) (action' >>= next') :=
  fun run => ending_bind_eq (first run) rest

end

/-- Frames that differ in the nodes and the lines of their templates at most, as far as expressions go. -/
structure Kindred (frame frame' : Frame) : Prop where
  filename : frame.template.filename = frame'.template.filename
  properties : frame.properties = frame'.properties
  shared : frame.shared = frame'.shared

namespace Kindred

variable {α : Type} {frame frame' : Frame}

theorem refl (frame : Frame) : Kindred frame frame := ⟨rfl, rfl, rfl⟩

theorem symm (kin : Kindred frame frame') : Kindred frame' frame :=
  ⟨kin.filename.symm, kin.properties.symm, kin.shared.symm⟩

theorem trans {frame'' : Frame} (kin : Kindred frame frame') (kin' : Kindred frame' frame'') : Kindred frame frame'' :=
  ⟨kin.filename.trans kin'.filename, kin.properties.trans kin'.properties, kin.shared.trans kin'.shared⟩

theorem lookup_eq (kin : Kindred frame frame') (scopes : List Json.Fields) (name : String) :
    frame.lookup scopes name = frame'.lookup scopes name := by
  rw [Frame.lookup, Frame.lookup, kin.properties, kin.shared]

theorem fail (kin : Kindred frame frame') (position position' : Nat) (problem : RuntimeProblem) :
    Coincide (frame.fail position problem : EvalM α) (frame'.fail position' problem) := by
  intro run
  unfold Frame.fail Compiled.error
  rw [kin.filename]
  rfl

theorem orFail (kin : Kindred frame frame') (position position' : Nat) (result : Except RuntimeProblem α) :
    Coincide (frame.orFail position result) (frame'.orFail position' result) := by
  cases result with
  | ok value => exact .refl _
  | error problem => exact kin.fail position position' problem

theorem write_eq (kin : Kindred frame frame') (text : String) : frame.write text = frame'.write text := by
  unfold Frame.write
  rw [kin.filename]

theorem writeAll_eq (kin : Kindred frame frame') (texts : List String) : frame.writeAll texts = frame'.writeAll texts := by
  induction texts with
  | nil => rfl
  | cons text rest ih => rw [Frame.writeAll, Frame.writeAll, kin.write_eq, ih]

theorem call (kin : Kindred frame frame') (position position' : Nat) (name : String) (arguments : List Value) :
    Coincide (frame.call position name arguments) (frame'.call position' name arguments) := by
  unfold Frame.call
  rw [kin.writeAll_eq, kin.writeAll_eq, kin.shared]
  split
  · exact .refl _
  split
  · exact .refl _
  split
  · exact kin.fail position position' _
  · split
    · exact .refl _
    · exact kin.fail position position' _

mutual

theorem eval_unplaced (kin : Kindred frame frame') : ∀ e : Expr, Coincide (frame.eval e.unplaced) (frame'.eval e)
  | .literal _ value => by
      simp only [Expr.unplaced, Frame.eval]
      exact .refl _
  | .variable position name => by
      simp only [Expr.unplaced, Frame.eval]
      apply (Coincide.refl get).bind
      intro run
      rw [kin.lookup_eq]
      split
      · exact .refl _
      · exact kin.fail 0 position _
  | .array _ items => by
      simp only [Expr.unplaced, Frame.eval]
      exact (evalItems_unplaced kin items).bind fun _ => .refl _
  | .object _ entries => by
      simp only [Expr.unplaced, Frame.eval]
      exact (evalEntries_unplaced kin entries).bind fun _ => .refl _
  | .member position target name => by
      simp only [Expr.unplaced, Frame.eval]
      exact (eval_unplaced kin target).bind fun _ => kin.orFail 0 position _
  | .index position target key => by
      simp only [Expr.unplaced, Frame.eval]
      exact (eval_unplaced kin target).bind fun _ =>
        (eval_unplaced kin key).bind fun _ => kin.orFail 0 position _
  | .call position name arguments => by
      simp only [Expr.unplaced, Frame.eval]
      apply (Coincide.refl get).bind
      intro run
      rw [kin.lookup_eq]
      split
      · exact kin.fail 0 position _
      · exact (evalItems_unplaced kin arguments).bind fun _ => kin.call 0 position name _
  | .unary _ .not operand => by
      simp only [Expr.unplaced, Frame.eval]
      exact (eval_unplaced kin operand).bind fun _ => .refl _
  | .unary position .negate operand => by
      simp only [Expr.unplaced, Frame.eval]
      apply (eval_unplaced kin operand).bind
      intro value
      split
      · split
        · exact .refl _
        · exact kin.fail 0 position _
      · exact kin.fail 0 position _
  | .binary position operator left right => by
      have first := eval_unplaced kin left
      have second := eval_unplaced kin right
      cases operator
      case and | or =>
        simp only [Expr.unplaced, Frame.eval]
        apply first.bind
        intro value
        split
        all_goals first | exact second | exact .refl _
      all_goals
        simp only [Expr.unplaced, Frame.eval]
        apply first.bind
        intro l
        apply second.bind
        intro r
        split
        · exact .refl _
        · exact kin.fail 0 position _
  | .conditional _ condition yes no => by
      simp only [Expr.unplaced, Frame.eval]
      apply (eval_unplaced kin condition).bind
      intro value
      split
      · exact eval_unplaced kin yes
      · exact eval_unplaced kin no

theorem evalItems_unplaced (kin : Kindred frame frame') : ∀ items : List Expr,
    Coincide (frame.evalItems (Expr.unplacedItems items)) (frame'.evalItems items)
  | [] => .refl _
  | item :: rest => by
      simp only [Expr.unplacedItems, Frame.evalItems]
      exact (eval_unplaced kin item).bind fun _ => (evalItems_unplaced kin rest).bind fun _ => .refl _

theorem evalEntries_unplaced (kin : Kindred frame frame') : ∀ entries : List (String × Expr),
    Coincide (frame.evalEntries (Expr.unplacedEntries entries)) (frame'.evalEntries entries)
  | [] => .refl _
  | (key, item) :: rest => by
      simp only [Expr.unplacedEntries, Frame.evalEntries]
      exact (eval_unplaced kin item).bind fun _ => (evalEntries_unplaced kin rest).bind fun _ => .refl _

end

end Kindred

end StaticSite.Template
