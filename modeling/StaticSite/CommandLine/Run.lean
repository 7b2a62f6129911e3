import StaticSite.CommandLine.Settings
import StaticSite.Site.Build

/-!
What the command to build does. It succeeds only if every page was built and every file was written.
-/

namespace StaticSite.CommandLine

/-- Why a command failed. -/
inductive Failure
  | settings (error : SettingsError)
  | config (file : Path) (error : ConfigError)
  | build (error : BuildError)
  | incomplete (fallbacks failed : Nat)

def Failure.message : Failure → String
  | .settings error => error.message
  | .config file error => "failed to read " ++ file.text ++ ": " ++ error.message
  | .build error => error.message
  | .incomplete fallbacks failed =>
    toString fallbacks ++ " pages were copied verbatim and " ++ toString failed ++
      " files could not be written"

/-- Builds a site as a whole, or fails. -/
def buildSite (site : Site) : BuildM (Except Failure Unit) := do
  match ← site.renderAll with
  | .error error => pure (.error (.build error))
  | .ok summary =>
    if 0 < summary.failed || 0 < summary.fallbacks then
      pure (.error (.incomplete summary.fallbacks summary.failed))
    else pure (.ok ())

/-- The site that arguments and environment describe. -/
def siteOf (fs : FileSystem) (environment : Environment) (arguments : Arguments) :
    Except Failure Site :=
  match Settings.load fs environment arguments with
  | .error error => .error (.settings error)
  | .ok settings =>
    match settings.siteConfig fs with
    | .error error => .error (.config settings.configFile error)
    | .ok config => (Site.prepare fs config none none).mapError .build

/-- Builds the site that arguments and environment describe. -/
def execute (environment : Environment) (arguments : Arguments) : BuildM (Except Failure Unit) := do
  match siteOf (← get).fs environment arguments with
  | .error failure => pure (.error failure)
  | .ok site => buildSite site

end StaticSite.CommandLine
