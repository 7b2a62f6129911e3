import StaticSite.Markdown.Event
import StaticSite.Text.Markup

/-!
Fenced code blocks as ready HTML. Code in a known language and a known theme is coloured, plain text as a
whole; the code of any other block is shown without colours.
-/

namespace StaticSite.Markdown

/-- The two colours of a theme that plain text needs. -/
structure Theme where
  background : String
  foreground : String
deriving DecidableEq, Repr

/-- The themes by their names. -/
def themes : List (String × Theme) :=
  [("base16-ocean.dark", ⟨"#2b303b", "#c0c5ce"⟩),
    ("base16-ocean.light", ⟨"#eff1f5", "#4f5b66"⟩),
    ("base16-mocha.dark", ⟨"#3b3228", "#d0c8c6"⟩),
    ("base16-eighties.dark", ⟨"#2d2d2d", "#d3d0c8"⟩),
    ("InspiredGitHub", ⟨"#ffffff", "#323232"⟩),
    ("Solarized (dark)", ⟨"#002b36", "#839496"⟩),
    ("Solarized (light)", ⟨"#fdf6e3", "#657b83"⟩)]

/-- Whether a language is plain text; its name and its file extension are known in any case. -/
def isPlainText (language : String) : Bool :=
  let language := language.toLower
  language == "txt" || language == "plain text"

/-- The lines of a text with their line feeds. -/
def linesOf : List Char → List (List Char)
  | [] => []
  | c :: rest =>
    if c = '\n' then ['\n'] :: linesOf rest
    else
      match linesOf rest with
      | [] => [[c]]
      | line :: more => (c :: line) :: more

/-- Plain text in the colours of a theme. -/
def coloredText (theme : Theme) (code : String) : String :=
  let line (text : List Char) : String :=
    "<span style=\"color:" ++ theme.foreground ++ ";\">" ++ Text.escapeAttribute (String.ofList text) ++
      "</span>"
  "<pre style=\"background-color:" ++ theme.background ++ ";\">\n" ++
    String.join ((linesOf code.toList).map line) ++ "</pre>\n"

/-- Code without colours. -/
def plainCode (code : String) : String :=
  "<pre><code>" ++ Text.escapeCode code ++ "</code></pre>"

/-- What colours code: the languages and themes that it knows, and the HTML of code in one of each. -/
structure Highlighter where
  Language : Type
  Colors : Type
  /-- The language that a word behind a fence stands for. -/
  ofToken? : String → Option Language
  /-- The language of a full name. -/
  ofName? : String → Option Language
  theme? : String → Option Colors
  /-- The coloured code, unless colouring fails. -/
  color? : Language → Colors → String → Option String

/-- Knows plain text alone. -/
def Highlighter.plainText : Highlighter where
  Language := Unit
  Colors := Theme
  ofToken? token := if isPlainText token then some () else none
  ofName? name := if name == "Plain Text" then some () else none
  theme? theme := themes.lookup theme
  color? _ colors code := some (coloredText colors code)

/-- The language of a block. TOML is coloured like YAML where it is not known itself. -/
def Highlighter.language? (highlighter : Highlighter) (token : String) : Option highlighter.Language :=
  (highlighter.ofToken? token).or (if token == "toml" then highlighter.ofName? "YAML" else none)

/-- The HTML of a fenced code block. -/
def codeHtml (highlighter : Highlighter) (theme language code : String) : String :=
  match highlighter.language? language, highlighter.theme? theme with
  | some language, some colors => (highlighter.color? language colors code).getD (plainCode code)
  | _, _ => plainCode code

/-- The events with each fenced code block as one HTML event. Within a block, `open?` holds its
language and the code so far. -/
def renderCodeFrom (highlighter : Highlighter) (theme : String) (open? : Option (String × String)) :
    List Event → List Event
  | [] => []
  | event :: rest =>
    match open?, event with
    | none, .start (.codeBlock (.fenced language)) =>
      renderCodeFrom highlighter theme (some (language, "")) rest
    | none, event => event :: renderCodeFrom highlighter theme none rest
    | some (language, code), .text text =>
      renderCodeFrom highlighter theme (some (language, code ++ text)) rest
    | some (language, code), .finish (.codeBlock _) =>
      .html (codeHtml highlighter theme language code) :: renderCodeFrom highlighter theme none rest
    | some block, _ => renderCodeFrom highlighter theme (some block) rest

/-- The events with each fenced code block as one HTML event. -/
def renderCode (highlighter : Highlighter) (theme : String) (events : List Event) : List Event :=
  renderCodeFrom highlighter theme none events

end StaticSite.Markdown
