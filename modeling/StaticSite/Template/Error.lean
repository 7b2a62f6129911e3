import StaticSite.Template.Functions
import StaticSite.Text.Location
import StaticSite.FileSystem.IoError

/-!
The ways in which a template can fail. An error names the file that it shows in, and within it the line
and the column.
-/

namespace StaticSite.Template

/-- What goes wrong while a template is evaluated. -/
inductive RuntimeProblem
  | undefinedName (name : String)
  | notAFunction (name : String)
  | undeclaredVariable (name : String)
  | notIterable (kind : ValueKind)
  | memberOfNull (name : String)
  | indexOfNull (index : String)
  | notNegatable (kind : ValueKind)
  | operator (error : OperatorError)
  | function (name : String) (error : FunctionError)
  | environmentNotAnObject (kind : ValueKind)
  | contextGone

def RuntimeProblem.message : RuntimeProblem → String
  | .undefinedName name => backquoted name ++ " is not defined"
  | .notAFunction name => backquoted name ++ " is not a function"
  | .undeclaredVariable name => "assignment to undeclared variable " ++ backquoted name
  | .notIterable kind => "cannot iterate over " ++ kind.text
  | .memberOfNull name => "cannot read " ++ backquoted name ++ " of null"
  | .indexOfNull index => "cannot index null with " ++ index
  | .notNegatable kind => "cannot negate " ++ kind.text
  | .operator error => error.message
  | .function name error => name ++ "(): " ++ error.message
  | .environmentNotAnObject kind => "include() environment must be an object, not " ++ kind.text
  | .contextGone => "template context no longer exists"

inductive Error
  | compile (file : String) (location : Text.Location) (problem : Problem)
  | runtime (file : String) (location : Text.Location) (problem : RuntimeProblem)
  | io (file : String) (error : IoError)
  /-- Includes nest deeper than was allowed for. -/
  | tooDeep

/-- A file and a place in it, as they stand before a message. -/
def placeText (file : String) (location : Text.Location) : String :=
  file ++ ":" ++ toString location.line ++ ":" ++ toString location.column ++ ": "

def Error.message : Error → String
  | .compile file location problem =>
    placeText file location ++ "syntax error: " ++ problem.message
  | .runtime file location problem => placeText file location ++ problem.message
  | .io file error => file ++ ": " ++ error.message
  | .tooDeep => "includes are nested too deeply"

end StaticSite.Template
