import StaticSite.Proofs.CommandLine.Layering
import StaticSite.Proofs.FileSystem.Reading
import StaticSite.Proofs.FileSystem.Routes
import StaticSite.Proofs.Text.Utf8

/-!
What the configuration of a site is made of: settings, of which each comes from the highest layer that has it,
and the page extensions of the configuration file. The file is read twice, in two ways, and is the same document.
-/

namespace StaticSite.CommandLine

open Location (Plain)

/-! ## The configuration file -/

/-- The entries of the configuration file at a path, which has none where nothing is. -/
inductive DocumentAt (fs : FileSystem) (file : Path) : Toml.Entries → Prop
  | missing (nothing : fs.exists? file = false) : DocumentAt fs file []
  | read {text : String} {entries : Toml.Entries} (reads : fs.readText file = .ok text)
    (parsed : Toml.parse? text = some entries) : DocumentAt fs file entries

theorem readLines_mark (fuel : Nat) (reading : Toml.Reading) (rest : List Char) :
    Toml.readLines fuel reading ('\uFEFF' :: rest) = none := by
  cases fuel with
  | zero => rfl
  | succ fuel =>
      have unread : Toml.readLine? reading ('\uFEFF' :: rest) = none := by
        simp [Toml.readLine?, Toml.skipGap, Toml.isGap, Toml.readAssigned?, Toml.readKey?, Toml.readKeyPart?,
          Toml.isKeyChar]
      rw [Toml.readLines, unread]
      simp

/-- Whether a byte order mark is taken off the text first or by the parser is the same. -/
theorem parse?_settingsText {content : Bytes} {text : String} {entries : Toml.Entries}
    (decoded : Text.Utf8.decode? content = some text) (parsed : Toml.parse? text = some entries) :
    Toml.parse? (settingsText content) = some entries := by
  rw [settingsText, Text.Utf8.decodeLossy_of_decode? decoded]
  split
  · rename_i rest marked
    rw [Toml.parse?, marked] at parsed
    rw [Toml.parse?, String.toList_ofList]
    -- only of two marks in a row would one be left, and then the text is no document for the site either
    split
    · simp [readLines_mark] at parsed
    · exact parsed
  · rwa [String.ofList_toList]

namespace DocumentAt

variable {fs : FileSystem} {file : Path} {entries : Toml.Entries}

theorem distinct (document : DocumentAt fs file entries) : Toml.Distinct entries := by
  cases document with
  | missing nothing => exact List.nodup_nil
  | read reads parsed => exact Toml.parse?_distinct parsed

/-- The layer of a configuration file is its document, found from the root and with the mark taken off. -/
theorem layer_eq (document : DocumentAt fs file entries) (orderly : fs.Orderly)
    (standing : fs.IsDirectory fs.workingDirectory) (plain : Plain fs.workingDirectory)
    {layer : Layer} (loaded : Layer.ofFile fs file = .ok layer) : layer = (Layer.ofEntries entries).placed := by
  cases document with
  | missing nothing =>
      rw [Layer.ofFile, nothing] at loaded
      exact (Except.ok.inj loaded).symm
  | @read text entries reads parsed =>
      obtain ⟨location, content, time, found, decoded⟩ := FileSystem.exists_find_of_readText reads
      have some_char : file.text.isEmpty = false := by
        by_contra empty
        have walked := FileSystem.walk_of_find found
        rw [FileSystem.walk, if_pos (by simpa using empty)] at walked
        cases walked
      have there : fs.exists? file = true := by rw [FileSystem.exists?, found]; rfl
      have found' : fs.find true (fs.here.join file) = .ok (location, .file content time) :=
        (FileSystem.find_join_here orderly standing plain some_char true).trans found
      have means : settingsFile? fs file = some (fs.here.join file) := by
        simp [settingsFile?, isFile, found']
      rw [Layer.ofFile, there, means] at loaded
      simp only [Bool.not_true, Bool.false_eq_true, if_false, FileSystem.read_of_find found',
        parse?_settingsText decoded parsed, Option.bind_some] at loaded
      split at loaded
      · cases loaded
      · rename_i made
        cases loaded
        exact Layer.placed_ofEntries made

end DocumentAt

/-! ## The configuration of the site -/

/-- The page extensions of a document: its own table, in the order of the extensions, or else the standard one. -/
inductive ExtensionsOf (entries : Toml.Entries) : PageExtensions → Prop
  | standard (unset : entries.lookup "page_exts" = none) : ExtensionsOf entries PageExtensions.standard
  | chosen {rows : Toml.Entries} {formats extensions : PageExtensions}
    (set : entries.lookup "page_exts" = some (.table rows))
    (read : List.Forall₂ (fun row extension => row.1 = extension.1 ∧ Config.formatOf? row.2 = some extension.2)
      rows formats)
    (all : extensions.Perm formats) (ordered : extensions.Pairwise fun a b => a.1 ≤ b.1) :
    ExtensionsOf entries extensions

theorem forall₂_of_mapM {rows : Toml.Entries} {formats : PageExtensions}
    (read : rows.mapM (fun row => (Config.formatOf? row.2).map fun format => (row.1, format)) = some formats) :
    List.Forall₂ (fun row extension => row.1 = extension.1 ∧ Config.formatOf? row.2 = some extension.2)
      rows formats := by
  induction rows generalizing formats with
  | nil =>
      cases read
      exact .nil
  | cons row rows ih =>
      rw [List.mapM_cons] at read
      obtain ⟨first, known, read⟩ := Option.bind_eq_some_iff.mp read
      obtain ⟨rest, others, same⟩ := Option.bind_eq_some_iff.mp read
      obtain ⟨format, named, rfl⟩ := Option.map_eq_some_iff.mp known
      cases same
      exact .cons ⟨rfl, named⟩ (ih others)

theorem extensionsOf_extensionsSetting? {entries : Toml.Entries} {extensions : PageExtensions}
    (read : Config.extensionsSetting? entries = some extensions) : ExtensionsOf entries extensions := by
  unfold Config.extensionsSetting? at read
  split at read
  · rename_i unset
    cases read
    exact .standard unset
  · rename_i rows set
    obtain ⟨formats, known, same⟩ := Option.bind_eq_some_iff.mp read
    cases same
    refine .chosen set (forall₂_of_mapM known) (List.mergeSort_perm _ _) ?_
    refine (List.pairwise_mergeSort ?_ ?_ _).imp of_decide_eq_true
    · intro a b c first second
      exact decide_eq_true (String.le_trans (of_decide_eq_true first) (of_decide_eq_true second))
    · intro a b
      simpa using String.le_total a.1 b.1
  · cases read

theorem extensionsOf_ofToml? {entries : Toml.Entries} {config : Config}
    (read : Config.ofToml? entries = some config) : ExtensionsOf entries config.pageExtensions := by
  unfold Config.ofToml? at read
  split at read
  · cases read
  · iterate 8 obtain ⟨_, -, read⟩ := Option.bind_eq_some_iff.mp read
    obtain ⟨extensions, known, same⟩ := Option.bind_eq_some_iff.mp read
    cases same
    exact extensionsOf_extensionsSetting? known

/-- The configuration that is made of settings and a table of page extensions. -/
def Settings.configWith (settings : Settings) (pageExtensions : PageExtensions) : Config :=
  { sourceDirectory := settings.sourceDirectory
    outputDirectory := settings.outputDirectory
    templateDirectory := settings.templateDirectory
    defaultLayout := settings.defaultLayout
    baseUrl := settings.baseUrl
    title := settings.title
    verbatimLinks := settings.verbatimLinks
    syntaxTheme := settings.syntaxTheme
    pageExtensions }

theorem Settings.siteConfig_eq (settings : Settings) (fs : FileSystem) :
    settings.siteConfig fs =
      (if fs.exists? settings.configFile then Config.read fs settings.configFile else .ok {}).map
        fun config => settings.configWith config.pageExtensions := by
  rw [siteConfig]
  split
  · cases Config.read fs settings.configFile <;> rfl
  · rfl

theorem exists_document {fs : FileSystem} {settings : Settings} {config : Config}
    (configured : settings.siteConfig fs = .ok config) :
    ∃ entries extensions, DocumentAt fs settings.configFile entries ∧ ExtensionsOf entries extensions ∧
      config = settings.configWith extensions := by
  rw [Settings.siteConfig_eq] at configured
  split at configured
  · rw [Config.read] at configured
    split at configured
    · cases configured
    · rename_i text reads
      split at configured
      · cases configured
      · rename_i found made
        obtain ⟨entries, parsed, made⟩ := Option.bind_eq_some_iff.mp made
        exact ⟨entries, found.pageExtensions, .read reads parsed, extensionsOf_ofToml? made,
          (Except.ok.inj configured).symm⟩
  · rename_i nothing
    exact ⟨[], PageExtensions.standard, .missing (by simpa using nothing), .standard rfl,
      (Except.ok.inj configured).symm⟩

/-- Settings come from the highest layer that has them, and the configuration of the site is made of them.
Variables and keys that are about a part of a setting change nothing: where one of them would count, nothing is
loaded. The working directory is one that a program can run in: its path names it, and directories lead to it. -/
theorem settings_from_highest_layer {fs : FileSystem} {environment : Environment} {arguments : Arguments}
    {settings : Settings} {config : Config} (orderly : fs.Orderly)
    (standing : fs.IsDirectory fs.workingDirectory) (plain : Plain fs.workingDirectory)
    (loaded : Settings.load fs environment arguments = .ok settings)
    (configured : settings.siteConfig fs = .ok config) :
    ∃ entries extensions,
      let sources : Sources := ⟨arguments, fs.here, environment, entries⟩
      DocumentAt fs arguments.configFile entries ∧ settings.configFile = arguments.configFile ∧
        settings.ReadBy sources.text? sources.truth? ∧
        ExtensionsOf entries extensions ∧ config = settings.configWith extensions := by
  obtain ⟨output?, given, loaded⟩ := bind_eq_ok.mp loaded
  obtain ⟨layer, file, settled⟩ := bind_eq_ok.mp loaded
  obtain ⟨entries, extensions, document, table, same⟩ := exists_document configured
  have found := Settings.configFile_eq given settled
  rw [found] at document
  rw [document.layer_eq orderly standing plain file] at settled
  let sources : Sources := ⟨arguments, fs.here, environment, entries⟩
  have read : settings.ReadBy sources.text? sources.truth? :=
    Settings.readBy_sources given document.distinct settled
  exact ⟨entries, extensions, document, found, read, table, same⟩

section Sample

/-- A working directory `/home` with a site in `src`, which has a configuration file. -/
def layeredFiles : FileSystem where
  entries :=
    [(["home"], .directory 1), (["home", "src"], .directory 1),
      (["home", "src", "kiln.toml"], .file (Text.Utf8.encode
        "site_title = \"Notes\"\nbase_url = \"/notes/\"\n\n[page_exts]\n\".txt\" = \"md\"\n") 1)]
  now := 2
  workingDirectory := ["home"]

def layeredArguments : Arguments :=
  { command := .build, directory? := some "src", output? := some "out", dev := true }

def layeredSettings : Settings where
  sourceDirectory := ⟨"src"⟩
  outputDirectory := ⟨"/home/out"⟩
  templateDirectory := ⟨"_templates"⟩
  defaultLayout := "default"
  baseUrl := "/notes/"
  title := "Diary"
  verbatimLinks := true
  syntaxTheme := "base16-ocean.dark"
  configFile := ⟨"src/kiln.toml"⟩
  dev := true
  quiet := false

def layeredEnvironment : Environment := [("KILN_SITE_TITLE", "Diary"), ("KILN_OUTDIR", "site")]

theorem settings_from_highest_layer_sample :
    parse ["build", "-C", "src", "-o", "out", "-g"] = .ok layeredArguments ∧
      Settings.load layeredFiles layeredEnvironment layeredArguments = .ok layeredSettings ∧
      layeredSettings.siteConfig layeredFiles = .ok (layeredSettings.configWith [(".txt", .markdown)]) ∧
      ∃ entries extensions,
        let sources : Sources := ⟨layeredArguments, layeredFiles.here, layeredEnvironment, entries⟩
        DocumentAt layeredFiles ⟨"src/kiln.toml"⟩ entries ∧ layeredSettings.configFile = ⟨"src/kiln.toml"⟩ ∧
          layeredSettings.ReadBy sources.text? sources.truth? ∧ ExtensionsOf entries extensions ∧
          layeredSettings.configWith [(".txt", .markdown)] = layeredSettings.configWith extensions := by
  have loaded : Settings.load layeredFiles layeredEnvironment layeredArguments = .ok layeredSettings := by
    decide +kernel
  have configured : layeredSettings.siteConfig layeredFiles =
      .ok (layeredSettings.configWith [(".txt", .markdown)]) := by decide +kernel
  have orderly : layeredFiles.Orderly := by
    refine FileSystem.orderly_of_entries fun found member => ?_
    simp only [layeredFiles, List.mem_cons, List.not_mem_nil, or_false] at member
    rcases member with rfl | rfl | rfl
    · exact ⟨0, rfl⟩
    · exact ⟨1, by decide⟩
    · exact ⟨1, by decide⟩
  exact ⟨by decide +kernel, loaded, configured,
    settings_from_highest_layer orderly ⟨1, by decide⟩ (by decide) loaded configured⟩

end Sample

end StaticSite.CommandLine
