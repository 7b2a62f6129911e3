import StaticSite.CommandLine.Arguments
import StaticSite.Decimal.Plain
import StaticSite.Site.ConfigFile

/-!
The settings of a command. They come in layers: the command line is above the environment, the
environment above the configuration file, and below all are the defaults. A setting has the value of the
highest layer that has one for it, which is then converted to the type of the setting.
-/

namespace StaticSite.CommandLine

/-- A value of a layer. -/
inductive Setting
  | string (text : String)
  | boolean (truth : Bool)
  | integer (value : Int)
  | float (value : Float)
  /-- An array, a table, or something that had a part of it set. -/
  | compound

/-- Text, numbers, and truth values have a text. -/
def Setting.toText? : Setting → Option String
  | .string text => some text
  | .boolean truth => some (if truth then "true" else "false")
  | .integer value => some (toString value)
  | .float value => some (Decimal.plainText value)
  | .compound => none

/-- Numbers are true unless they are zero; text has to be one of a few words in any case. -/
def Setting.toTruth? : Setting → Option Bool
  | .string text =>
    let word := String.ofList (Text.toLowerCase text.toList)
    if ["1", "true", "on", "yes"].contains word then some true
    else if ["0", "false", "off", "no"].contains word then some false
    else none
  | .boolean truth => some truth
  | .integer value => some (value != 0)
  | .float value => some (value != 0)
  | .compound => none

/-- Values by name. Of two values for a name the later one counts. -/
abbrev Layer := List (String × Setting)

def Layer.get? (layer : Layer) (name : String) : Option Setting := layer.reverse.lookup name

/-- The value of a name in the first of some layers that has one. -/
def highest? (layers : List Layer) (name : String) : Option Setting :=
  layers.findSome? fun layer => layer.get? name

/-- Why there are no settings. -/
inductive SettingsError
  | emptyOutput
  | missingFile (file : Path)
  | unreadableFile (file : Path) (error : IoError)
  | malformedFile (file : Path)
  | wrongType (name : String)
deriving DecidableEq, Repr

def SettingsError.message : SettingsError → String
  | .emptyOutput => "invalid output directory"
  | .missingFile file => "configuration file \"" ++ file.text ++ "\" not found"
  | .unreadableFile file error => file.text ++ ": " ++ error.message
  | .malformedFile file => "TOML parse error in " ++ file.text
  | .wrongType name => "invalid type for key " ++ name

structure Settings where
  sourceDirectory : Path
  outputDirectory : Path
  templateDirectory : Path
  defaultLayout : String
  baseUrl : String
  title : String
  verbatimLinks : Bool
  syntaxTheme : String
  configFile : Path
  /-- Whether to log what helps to find mistakes. -/
  dev : Bool
  /-- Whether to log nothing but warnings and errors. -/
  quiet : Bool
deriving DecidableEq, Repr

/-- The name of the configuration file in a directory to build. -/
def configFileName : Path := ⟨"kiln.toml"⟩

/-! ### Keys -/

/-- Whether a character may stand in a name that has parts. -/
def isNameChar (c : Char) : Bool := c.isAlphanum || c == '_' || c == '-'

/-- Whether a text names a part: a point and a name, or an index in brackets, and so on. -/
def isPart : Nat → List Char → Bool
  | 0, _ => false
  | _, [] => true
  | fuel + 1, '.' :: rest =>
    (rest.head?.any isNameChar) && isPart fuel (rest.dropWhile isNameChar)
  | fuel + 1, '[' :: rest =>
    let isGap (c : Char) : Bool := c == ' ' || c == '\t'
    let index := rest.dropWhile isGap
    let digits := if index.head? == some '-' then index.drop 1 else index
    let written := digits.takeWhile Decimal.isDigit
    let value := Decimal.digitsValue written
    let most := if index.head? == some '-' then Nat.pow 2 63 else Nat.pow 2 63 - 1
    let after := (digits.dropWhile Decimal.isDigit).dropWhile isGap
    !written.isEmpty && value ≤ most && after.head? == some ']' && isPart fuel (after.drop 1)
  | _, _ => false

/-- The setting that a key is about, and whether it is about a part of that setting only. A key that
names nothing stands for itself. -/
def address (key : String) : String × Bool :=
  let name := key.toList.takeWhile isNameChar
  let part := key.toList.dropWhile isNameChar
  if name.isEmpty || part.isEmpty || !isPart (part.length + 1) part then (key, false)
  else (String.ofList name, true)

/-- A value under a key as a setting under its name. -/
def Setting.placed (key : String) (setting : Setting) : String × Setting :=
  let (name, isPart) := address key
  (name, if isPart then .compound else setting)

/-! ### Layers -/

def Setting.ofToml : Toml.Value → Setting
  | .string text => .string text
  | .integer value => .integer value
  | .float value => .float value
  | .boolean truth => .boolean truth
  | .moment moment => .string moment.text
  | .array _ => .compound
  | .table _ => .compound

/-- The layer of a document, whose integers have to fit 64 bits. -/
def Layer.ofToml? (entries : Toml.Entries) : Option Layer :=
  if !Toml.entriesWithin (-Nat.pow 2 63) (Nat.pow 2 63 - 1) entries then none
  else some (entries.map fun (key, value) => (Setting.ofToml value).placed key)

def isFile (fs : FileSystem) (p : Path) : Bool :=
  match fs.find true p with
  | .ok (_, .file _ _) => true
  | _ => false

/-- The file that a path means: itself, or else the file of the same name with `.toml` behind it. -/
def settingsFile? (fs : FileSystem) (p : Path) : Option Path :=
  let file := fs.here.join p
  let named := file.setExtension ((file.extension?.elim "" (· ++ ".")) ++ "toml")
  if isFile fs file then some file else if isFile fs named then some named else none

/-- The text of a file, in which bytes that are no UTF-8 are replaced, without a byte order mark. -/
def settingsText (content : Bytes) : String :=
  match (Text.Utf8.decodeLossy content).toList with
  | '\uFEFF' :: rest => String.ofList rest
  | cs => String.ofList cs

/-- The layer of the configuration file, which is empty if nothing is there. -/
def Layer.ofFile (fs : FileSystem) (file : Path) : Except SettingsError Layer :=
  if !fs.exists? file then .ok []
  else
    match settingsFile? fs file with
    | none => .error (.missingFile file)
    | some found =>
      match fs.read found with
      | .error error => .error (.unreadableFile found error)
      | .ok content =>
        match (Toml.parse? (settingsText content)).bind Layer.ofToml? with
        | none => .error (.malformedFile found)
        | some layer => .ok layer

/-- Environment variables with their values. -/
abbrev Environment := List (String × String)

/-- A text with points instead of double underscores. -/
def pointed : List Char → List Char
  | '_' :: '_' :: rest => '.' :: pointed rest
  | c :: rest => c :: pointed rest
  | [] => []

/-- The key that the name of a variable stands for, if the name in lower case begins with `kiln_`. -/
def environmentKey? (name : String) : Option String :=
  let name := Text.toLowerCase name.toList
  let lead := "kiln_".toList
  if lead.isPrefixOf name then some (String.ofList (pointed (name.drop lead.length))) else none

def Layer.ofEnvironment (environment : Environment) : Layer :=
  environment.filterMap fun (name, value) =>
    (environmentKey? name).map fun key => (Setting.string value).placed key

/-- The configuration file that arguments mean. -/
def Arguments.configFile (arguments : Arguments) : Path :=
  match arguments.configFile? with
  | some file => ⟨file⟩
  | none => Path.join ⟨arguments.directory?.getD "."⟩ configFileName

/-- The output directory that arguments name, as seen from the root. -/
def Arguments.outputDirectory? (here : Path) (arguments : Arguments) :
    Except SettingsError (Option Path) :=
  match arguments.output? with
  | none => .ok none
  | some "" => .error .emptyOutput
  | some output => .ok (some (Path.absolute ⟨output⟩ here))

/-- The layer of the command line. It always has the configuration file. -/
def Layer.ofArguments (arguments : Arguments) (outputDirectory? : Option Path) : Layer :=
  ("config", .string arguments.configFile.text) ::
    ((arguments.directory?.map fun directory => ("srcdir", .string directory)).toList ++
      (outputDirectory?.map fun directory => ("outdir", .string directory.text)).toList ++
      (if arguments.dev then [("dev", .string "true")] else []) ++
      (if arguments.quiet then [("quiet", .string "true")] else []))

/-! ### Settings -/

/-- A setting that is text. -/
def textSetting (layers : List Layer) (name fallback : String) : Except SettingsError String :=
  match highest? layers name with
  | none => .ok fallback
  | some setting =>
    match setting.toText? with
    | some text => .ok text
    | none => .error (.wrongType name)

/-- A setting that is true or false. -/
def truthSetting (layers : List Layer) (name : String) (fallback : Bool) :
    Except SettingsError Bool :=
  match highest? layers name with
  | none => .ok fallback
  | some setting =>
    match setting.toTruth? with
    | some truth => .ok truth
    | none => .error (.wrongType name)

namespace Settings

/-- The settings of some layers, the highest of them first. -/
def ofLayers (layers : List Layer) : Except SettingsError Settings := do
  let standard : Config := {}
  .ok
    { sourceDirectory := ⟨← textSetting layers "srcdir" standard.sourceDirectory.text⟩
      outputDirectory := ⟨← textSetting layers "outdir" standard.outputDirectory.text⟩
      templateDirectory := ⟨← textSetting layers "templatedir" standard.templateDirectory.text⟩
      defaultLayout := ← textSetting layers "default_layout" standard.defaultLayout
      baseUrl := ← textSetting layers "base_url" standard.baseUrl
      title := ← textSetting layers "site_title" standard.title
      verbatimLinks := ← truthSetting layers "verbatim_symlinks" standard.verbatimLinks
      syntaxTheme := ← textSetting layers "syntax_theme" standard.syntaxTheme
      configFile := ⟨← textSetting layers "config" ""⟩
      dev := ← truthSetting layers "dev" false
      quiet := ← truthSetting layers "quiet" false }

/-- The settings of a command. -/
def load (fs : FileSystem) (environment : Environment) (arguments : Arguments) :
    Except SettingsError Settings := do
  let outputDirectory? ← arguments.outputDirectory? fs.here
  let file ← Layer.ofFile fs arguments.configFile
  ofLayers [Layer.ofArguments arguments outputDirectory?, Layer.ofEnvironment environment, file]

/-- The configuration of the site. The table of page extensions is in the configuration file alone; all
else is as the settings say. -/
def siteConfig (settings : Settings) (fs : FileSystem) : Except ConfigError Config := do
  let config ←
    if fs.exists? settings.configFile then Config.read fs settings.configFile else .ok {}
  .ok
    { config with
      sourceDirectory := settings.sourceDirectory
      outputDirectory := settings.outputDirectory
      templateDirectory := settings.templateDirectory
      defaultLayout := settings.defaultLayout
      baseUrl := settings.baseUrl
      title := settings.title
      verbatimLinks := settings.verbatimLinks
      syntaxTheme := settings.syntaxTheme }

end Settings

end StaticSite.CommandLine
