import Mathlib.Data.List.TakeWhile
import StaticSite.CommandLine.Settings
import StaticSite.Proofs.Outcome
import StaticSite.Proofs.Toml.Keys

/-!
Where settings come from. A setting that is found has the value of the highest layer that names it: keys that
are about a part of it, and variables with other names, do not get in the way.
-/

namespace StaticSite.CommandLine

variable {layer : Layer} {key : String}

/-! ## Keys -/

/-- A key that is about the whole of a setting, in a file as well as behind `kiln_` in a variable. -/
structure IsName (key : String) : Prop where
  chars : key.toList.all isNameChar
  undivided : pointed key.toList = key.toList

theorem isName_iff {key : String} :
    IsName key ↔ key.toList.all isNameChar ∧ pointed key.toList = key.toList :=
  ⟨fun name => ⟨name.chars, name.undivided⟩, fun ⟨chars, undivided⟩ => ⟨chars, undivided⟩⟩

instance (key : String) : Decidable (IsName key) := decidable_of_iff _ isName_iff.symm

theorem IsName.address_eq (name : IsName key) : address key = (key, false) := by
  have rest : key.toList.dropWhile isNameChar = [] :=
    List.dropWhile_eq_nil_iff.mpr (List.all_eq_true.mp name.chars)
  simp [address, rest]

theorem fst_of_address {owner : String} (addressed : address key = (owner, false)) : key = owner := by
  rw [address] at addressed
  split at addressed
  · exact congrArg Prod.fst addressed
  · cases addressed

theorem pointed_of_undotted {cs : List Char} (undotted : '.' ∉ pointed cs) : pointed cs = cs := by
  fun_induction pointed cs with
  | case1 rest => simp at undotted
  | case2 c rest single ih => rw [ih fun dotted => undotted (List.mem_cons_of_mem _ dotted)]
  | case3 => rfl

theorem IsName.pointed_eq_iff (name : IsName key) {cs : List Char} :
    pointed cs = key.toList ↔ cs = key.toList := by
  constructor
  · intro same
    rw [← same, pointed_of_undotted]
    rw [same]
    exact fun dotted => absurd (List.all_eq_true.mp name.chars '.' dotted) (by decide)
  · rintro rfl
    exact name.undivided

/-! ## Layers as they are written -/

/-- A layer with each value under the setting that its key is about. -/
def Layer.placed (layer : Layer) : Layer := layer.map fun (key, setting) => setting.placed key

/-- A value that has no parts was written under the very name of the setting. -/
theorem Layer.get?_placed (name : IsName key) (whole : layer.placed.get? key ≠ some .compound) :
    layer.placed.get? key = layer.get? key := by
  rw [get?, placed, ← List.map_reverse] at whole ⊢
  rw [get?]
  generalize layer.reverse = entries at whole ⊢
  induction entries with
  | nil => rfl
  | cons entry rest ih =>
      obtain ⟨written, setting⟩ := entry
      obtain ⟨owner, isPart, addressed⟩ : ∃ owner isPart, address written = (owner, isPart) := ⟨_, _, rfl⟩
      have placed : setting.placed written = (owner, if isPart then .compound else setting) := by
        rw [Setting.placed, addressed]
      simp only [List.map_cons, placed, List.lookup_cons] at whole ⊢
      cases isPart with
      | false =>
          rw [fst_of_address addressed]
          by_cases same : key = owner
          · simp [same]
          · rw [beq_false_of_ne same] at whole ⊢
            exact ih whole
      | true =>
          -- a key about a part is never the name itself, and under that name it would leave `compound`
          have apart : key ≠ written := by
            rintro rfl
            cases name.address_eq.symm.trans addressed
          rw [beq_false_of_ne apart]
          by_cases same : key = owner
          · simp [same] at whole
          · rw [beq_false_of_ne same] at whole ⊢
            exact ih whole

theorem toOption_textSetting (layers : List Layer) (key fallback : String) :
    (textSetting layers key fallback).toOption = (highest? layers key).elim (some fallback) Setting.toText? := by
  rw [textSetting]
  cases highest? layers key with
  | none => rfl
  | some said =>
      dsimp only [Option.elim_some]
      cases said.toText? <;> rfl

theorem toOption_truthSetting (layers : List Layer) (key : String) (fallback : Bool) :
    (truthSetting layers key fallback).toOption = (highest? layers key).elim (some fallback) Setting.toTruth? := by
  rw [truthSetting]
  cases highest? layers key with
  | none => rfl
  | some said =>
      dsimp only [Option.elim_some]
      cases said.toTruth? <;> rfl

theorem highest?_cons (layer : Layer) (layers : List Layer) (key : String) :
    highest? (layer :: layers) key = (layer.get? key).or (highest? layers key) := by
  rw [highest?, List.findSome?_cons]
  cases layer.get? key <;> rfl

theorem highest?_placed {layers : List Layer} (name : IsName key)
    (whole : highest? (layers.map Layer.placed) key ≠ some .compound) :
    highest? (layers.map Layer.placed) key = highest? layers key := by
  induction layers with
  | nil => rfl
  | cons layer layers ih =>
      rw [List.map_cons, highest?_cons] at whole ⊢
      rw [highest?_cons]
      cases found : layer.placed.get? key with
      | some setting =>
          rw [found] at whole
          rw [← layer.get?_placed name (by rwa [found]), found]
          rfl
      | none =>
          rw [found] at whole
          rw [← layer.get?_placed name (by simp [found]), found]
          exact ih whole

/-! ## What each layer says -/

/-- What a command line says about a setting. -/
def Arguments.given? (arguments : Arguments) (here : Path) : String → Option String
  | "config" => some arguments.configFile.text
  | "srcdir" => arguments.directory?
  | "outdir" => arguments.output?.map fun output => (Path.absolute ⟨output⟩ here).text
  | "dev" => if arguments.dev then some "true" else none
  | "quiet" => if arguments.quiet then some "true" else none
  | _ => none

/-- What the environment says about a setting: the last variable that has its name behind `kiln_`, in any
case. -/
def Environment.value? (environment : Environment) (key : String) : Option String :=
  (environment.reverse.find? fun (name, _) =>
    Text.toLowerCase name.toList == "kiln_".toList ++ key.toList).map (·.2)

/-- The layer of an environment as it is written. -/
def Layer.written (environment : Environment) : Layer :=
  environment.filterMap fun (name, value) => (environmentKey? name).map fun key => (key, .string value)

/-- The layer of a document as it is written. -/
def Layer.ofEntries (entries : Toml.Entries) : Layer :=
  entries.map fun (key, value) => (key, Setting.ofToml value)

theorem Arguments.outputDirectory?_eq {arguments : Arguments} {here : Path} {output? : Option Path}
    (given : arguments.outputDirectory? here = .ok output?) :
    output? = arguments.output?.map fun output => Path.absolute ⟨output⟩ here := by
  unfold outputDirectory? at given
  split at given <;> cases given
  · simp [*]
  · simp [*]

theorem Layer.get?_append (below above : Layer) (key : String) :
    Layer.get? (below ++ above) key = (above.get? key).or (below.get? key) := by
  rw [get?, get?, get?, List.reverse_append, List.lookup_append]

theorem Layer.get?_singleton (name : String) (setting : Setting) (key : String) :
    Layer.get? [(name, setting)] key = if key = name then some setting else none := by
  rw [get?, List.reverse_singleton, List.lookup_cons, List.lookup_nil]
  by_cases same : key = name
  · simp [same]
  · simp [same, beq_false_of_ne same]

theorem Layer.get?_ofArguments {arguments : Arguments} {here : Path} {output? : Option Path}
    (given : arguments.outputDirectory? here = .ok output?) (key : String) :
    (Layer.ofArguments arguments output?).get? key = (arguments.given? here key).map .string := by
  have optional {α : Type} (value? : Option α) (name : String) (said : α → String) :
      Layer.get? (value?.map fun value => (name, .string (said value))).toList key =
        if key = name then (value?.map said).map .string else none := by
    cases value? with
    | none => simp [get?]
    | some value => exact get?_singleton _ _ _
  have raised (flag : Bool) (name : String) :
      Layer.get? (if flag then [(name, .string "true")] else []) key =
        if key = name then (if flag then some "true" else none).map .string else none := by
    cases flag with
    | false => simp [get?]
    | true => exact get?_singleton _ _ _
  unfold Arguments.given?
  split <;>
    rw [ofArguments, ← List.singleton_append, get?_append, get?_append, get?_append, get?_append, raised,
      raised, get?_singleton, optional arguments.directory? "srcdir" fun directory => directory,
      optional output? "outdir" (·.text), Arguments.outputDirectory?_eq given] <;>
    simp_all [Function.comp_def]

theorem environmentKey?_eq_some (name : IsName key) (written : String) :
    environmentKey? written = some key ↔ Text.toLowerCase written.toList = "kiln_".toList ++ key.toList := by
  rw [environmentKey?]
  split
  · rename_i leads
    obtain ⟨behind, whole⟩ := List.isPrefixOf_iff_prefix.mp leads
    rw [← whole, List.drop_left, Option.some.injEq, ← String.toList_inj, String.toList_ofList,
      name.pointed_eq_iff, List.append_cancel_left_eq]
  · rename_i elsewhere
    refine iff_of_false (by simp) fun same => elsewhere ?_
    rw [same]
    exact List.isPrefixOf_iff_prefix.mpr (List.prefix_append _ _)

theorem Layer.get?_written (name : IsName key) (environment : Environment) :
    (Layer.written environment).get? key = (environment.value? key).map .string := by
  rw [get?, written, ← List.filterMap_reverse, Environment.value?]
  induction environment.reverse with
  | nil => rfl
  | cons entry rest ih =>
      obtain ⟨spelled, value⟩ := entry
      have found := environmentKey?_eq_some name spelled
      rw [List.filterMap_cons, List.find?_cons]
      dsimp only
      by_cases same : Text.toLowerCase spelled.toList = "kiln_".toList ++ key.toList
      · simp [found.mpr same, same]
      · rw [beq_false_of_ne same]
        cases means : environmentKey? spelled with
        | none => exact ih
        | some other =>
            have apart : key ≠ other := fun equal => same (found.mp (equal ▸ means))
            rw [Option.map_some]
            dsimp only
            rw [List.lookup_cons, beq_false_of_ne apart]
            exact ih

theorem Layer.placed_written (environment : Environment) :
    (Layer.written environment).placed = Layer.ofEnvironment environment := by
  rw [written, placed, List.map_filterMap, ofEnvironment]
  simp [Option.map_map, Function.comp_def]

theorem Layer.get?_ofEntries {entries : Toml.Entries} (distinct : Toml.Distinct entries) (key : String) :
    (Layer.ofEntries entries).get? key = (entries.lookup key).map Setting.ofToml := by
  rw [get?, ofEntries, ← List.map_reverse, ← distinct.lookup_reverse]
  induction entries.reverse with
  | nil => rfl
  | cons entry rest ih =>
      obtain ⟨name, value⟩ := entry
      simp only [List.map_cons, List.lookup_cons]
      cases key == name with
      | true => rfl
      | false => exact ih

theorem Layer.placed_ofEntries {entries : Toml.Entries} (made : Layer.ofToml? entries = some layer) :
    layer = (Layer.ofEntries entries).placed := by
  unfold ofToml? at made
  split at made
  · cases made
  · cases made
    simp [ofEntries, placed, Function.comp_def]

/-! ## Settings -/

/-- What there is to take settings from: a command line with the directory that it was given in, the
environment, and the entries of a configuration file. -/
structure Sources where
  arguments : Arguments
  here : Path
  environment : Environment
  entries : Toml.Entries

namespace Sources

/-- What the highest layer says that says anything about a setting. -/
def setting? (sources : Sources) (key : String) : Option Setting :=
  ((sources.arguments.given? sources.here key).map .string).or
    (((sources.environment.value? key).map .string).or ((sources.entries.lookup key).map .ofToml))

/-- A setting that is text. There is none if what is said has no text. -/
def text? (sources : Sources) (key fallback : String) : Option String :=
  (sources.setting? key).elim (some fallback) Setting.toText?

/-- A setting that is true or false. -/
def truth? (sources : Sources) (key : String) (fallback : Bool) : Option Bool :=
  (sources.setting? key).elim (some fallback) Setting.toTruth?

/-- The layers that settings are loaded from. -/
def layers (sources : Sources) (output? : Option Path) : List Layer :=
  [.ofArguments sources.arguments output?, .ofEnvironment sources.environment, (Layer.ofEntries sources.entries).placed]

variable {sources : Sources} {output? : Option Path}

/-- What the layers say of a setting is what the sources say, unless it has parts. -/
theorem highest?_layers (given : sources.arguments.outputDirectory? sources.here = .ok output?)
    (distinct : Toml.Distinct sources.entries) (name : IsName key)
    (whole : highest? (sources.layers output?) key ≠ some .compound) :
    highest? (sources.layers output?) key = sources.setting? key := by
  -- the command line has no keys about parts, so only the layers below it differ from what was written
  let below : List Layer := [.written sources.environment, .ofEntries sources.entries]
  have said : highest? below key =
      ((sources.environment.value? key).map .string).or ((sources.entries.lookup key).map .ofToml) := by
    rw [highest?_cons, highest?_cons, Layer.get?_written name, Layer.get?_ofEntries distinct]
    exact congrArg _ Option.or_none
  have split : highest? (sources.layers output?) key =
      ((sources.arguments.given? sources.here key).map .string).or (highest? (below.map Layer.placed) key) := by
    rw [layers, highest?_cons, Layer.get?_ofArguments given, ← Layer.placed_written]
    rfl
  rw [split] at whole ⊢
  rw [setting?, ← said]
  cases found : sources.arguments.given? sources.here key with
  | some text => rfl
  | none =>
      rw [found] at whole
      exact highest?_placed name whole

theorem elim_setting? (given : sources.arguments.outputDirectory? sources.here = .ok output?)
    (distinct : Toml.Distinct sources.entries) (name : IsName key) {α : Type} {convert : Setting → Option α}
    (parts : convert .compound = none) {fallback value : α}
    (settled : (highest? (sources.layers output?) key).elim (some fallback) convert = some value) :
    (sources.setting? key).elim (some fallback) convert = some value := by
  rw [← highest?_layers given distinct name, settled]
  intro compound
  rw [compound, Option.elim_some, parts] at settled
  cases settled

end Sources

/-- Settings as they are read by name, with a default for each: text in one way, what is true or false in
another. -/
structure Settings.ReadBy (settings : Settings) (text : String → String → Option String)
    (truth : String → Bool → Option Bool) : Prop where
  sourceDirectory : text "srcdir" ({} : Config).sourceDirectory.text = some settings.sourceDirectory.text
  outputDirectory : text "outdir" ({} : Config).outputDirectory.text = some settings.outputDirectory.text
  templateDirectory : text "templatedir" ({} : Config).templateDirectory.text = some settings.templateDirectory.text
  defaultLayout : text "default_layout" ({} : Config).defaultLayout = some settings.defaultLayout
  baseUrl : text "base_url" ({} : Config).baseUrl = some settings.baseUrl
  title : text "site_title" ({} : Config).title = some settings.title
  verbatimLinks : truth "verbatim_symlinks" ({} : Config).verbatimLinks = some settings.verbatimLinks
  syntaxTheme : text "syntax_theme" ({} : Config).syntaxTheme = some settings.syntaxTheme
  configFile : text "config" "" = some settings.configFile.text
  dev : truth "dev" false = some settings.dev
  quiet : truth "quiet" false = some settings.quiet

namespace Settings

variable {settings : Settings}

theorem readBy_of_ofLayers {layers : List Layer} (settled : ofLayers layers = .ok settings) :
    settings.ReadBy (fun key fallback => (highest? layers key).elim (some fallback) Setting.toText?)
      (fun key fallback => (highest? layers key).elim (some fallback) Setting.toTruth?) := by
  obtain ⟨_, sourceDirectory, settled⟩ := bind_eq_ok.mp settled
  obtain ⟨_, outputDirectory, settled⟩ := bind_eq_ok.mp settled
  obtain ⟨_, templateDirectory, settled⟩ := bind_eq_ok.mp settled
  obtain ⟨_, defaultLayout, settled⟩ := bind_eq_ok.mp settled
  obtain ⟨_, baseUrl, settled⟩ := bind_eq_ok.mp settled
  obtain ⟨_, title, settled⟩ := bind_eq_ok.mp settled
  obtain ⟨_, verbatimLinks, settled⟩ := bind_eq_ok.mp settled
  obtain ⟨_, syntaxTheme, settled⟩ := bind_eq_ok.mp settled
  obtain ⟨_, configFile, settled⟩ := bind_eq_ok.mp settled
  obtain ⟨_, dev, settled⟩ := bind_eq_ok.mp settled
  obtain ⟨_, quiet, settled⟩ := bind_eq_ok.mp settled
  cases settled
  constructor <;> simp only [← toOption_textSetting, ← toOption_truthSetting, *] <;> rfl

/-- Settings are the same for another way to read that agrees on what the names of settings have. -/
theorem ReadBy.mono {text text' : String → String → Option String} {truth truth' : String → Bool → Option Bool}
    (read : settings.ReadBy text truth)
    (texts : ∀ key fallback value, IsName key → text key fallback = some value → text' key fallback = some value)
    (truths : ∀ key fallback value, IsName key → truth key fallback = some value →
      truth' key fallback = some value) : settings.ReadBy text' truth' where
  sourceDirectory := texts _ _ _ (by decide) read.sourceDirectory
  outputDirectory := texts _ _ _ (by decide) read.outputDirectory
  templateDirectory := texts _ _ _ (by decide) read.templateDirectory
  defaultLayout := texts _ _ _ (by decide) read.defaultLayout
  baseUrl := texts _ _ _ (by decide) read.baseUrl
  title := texts _ _ _ (by decide) read.title
  verbatimLinks := truths _ _ _ (by decide) read.verbatimLinks
  syntaxTheme := texts _ _ _ (by decide) read.syntaxTheme
  configFile := texts _ _ _ (by decide) read.configFile
  dev := truths _ _ _ (by decide) read.dev
  quiet := truths _ _ _ (by decide) read.quiet

/-- The configuration file is the one that the command line means, whatever lies below. -/
theorem configFile_eq {arguments : Arguments} {here : Path} {output? : Option Path} {below : List Layer}
    (given : arguments.outputDirectory? here = .ok output?)
    (settled : ofLayers (.ofArguments arguments output? :: below) = .ok settings) :
    settings.configFile = arguments.configFile := by
  have read := (readBy_of_ofLayers settled).configFile
  rw [highest?_cons, Layer.get?_ofArguments given] at read
  exact congrArg Path.mk (Option.some.inj read).symm

/-- Settings of layers are read from the sources of the layers. -/
theorem readBy_sources {sources : Sources} {output? : Option Path}
    (given : sources.arguments.outputDirectory? sources.here = .ok output?)
    (distinct : Toml.Distinct sources.entries) (settled : ofLayers (sources.layers output?) = .ok settings) :
    settings.ReadBy sources.text? sources.truth? :=
  (readBy_of_ofLayers settled).mono (fun _ _ _ name => Sources.elim_setting? given distinct name rfl)
    (fun _ _ _ name => Sources.elim_setting? given distinct name rfl)

end Settings

end StaticSite.CommandLine
