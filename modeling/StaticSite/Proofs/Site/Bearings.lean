import StaticSite.Proofs.Page.Printing
import StaticSite.Proofs.Site.Codeless
import StaticSite.Proofs.Site.Order
import StaticSite.Proofs.Template.Diagnostics
import StaticSite.Proofs.Text.Decoding

/-!
Where the errors of a page point. The body of a page is compiled as a text of its own under the name of the page's
file. So an error in the body names that file, but its line is counted from where the body begins.
-/

namespace StaticSite

open Json (Fields)
open Text (Location EndsLine)

/-! ## Headers consist of lines -/

namespace Header

variable {content : Bytes} {start finish : Nat}

theorem Closes.exists_lines (closes : Closes content start finish) :
    ∃ lines, content.take finish = lines ++ [lineFeed] ∧ lineFeed ∈ lines := by
  have long := closes.long
  obtain ⟨inside, ends⟩ := List.getElem?_eq_some_iff.mp closes.ends
  obtain ⟨before, opens⟩ := List.getElem?_eq_some_iff.mp closes.opens
  refine ⟨content.take (finish - 1), ?_, ?_⟩
  · rw [← ends, List.take_append_getElem inside, Nat.sub_add_cancel (by omega)]
  · rw [← opens]
    exact List.mem_take_iff_getElem.mpr ⟨start, by omega, rfl⟩

/-- A header ends with the first closing line. -/
theorem exists_closes_of_read {header : Header} (opens : (read (.ofBytes content)).1 = .ok (some header)) :
    ∃ start, Closes content start header.contentOffset := by
  have bytes : (Reader.ofBytes content).bytes = content := by simp [Reader.ofBytes, Reader.bytes]
  obtain ⟨outcome, needed, whole, settles⟩ := read_settled (.ofBytes content)
  rw [bytes] at whole
  have same : outcome = .ok (some header) := by
    rw [settles.2, if_neg (by simp [Reader.ofBytes])] at opens
    exact opens
  cases whole with
  | closed opened first enough least =>
      cases same
      exact ⟨_, first.closes⟩
  | unopened unopened => cases same
  | unclosed opened unclosed large => cases same
  | small opened unclosed small => cases same

end Header

namespace Page

/-- Where a body begins. A page without front matter is nothing but its body; what is before a body are whole lines, two
at least. -/
structure BeginsBody (content : Bytes) (meta? : Option Fields) (offset : Nat) : Prop where
  within : offset ≤ content.length
  ends : EndsLine (content.take offset)
  bare : meta? = none → offset = 0
  lines : meta?.isSome → 2 ≤ (content.take offset).count 0x0A

theorem beginsBody_bare (content : Bytes) : BeginsBody content none 0 :=
  ⟨Nat.zero_le _, .inl List.take_zero, fun _ => rfl, fun some => by cases some⟩

theorem beginsBody_closed {content : Bytes} {start finish : Nat} (closes : Header.Closes content start finish)
    (fields : Fields) : BeginsBody content (some fields) finish := by
  obtain ⟨lines, whole, feed⟩ := closes.exists_lines
  refine ⟨closes.finish_le, .inr ?_, fun none => (by cases none), fun _ => ?_⟩
  · rw [whole, List.getLast?_concat]
    rfl
  · have one : 0 < lines.count 0x0A := List.count_pos_iff.mpr feed
    rw [whole, List.count_append]
    exact Nat.add_le_add one (Nat.le_refl 1)

theorem readMeta_begins {content : Bytes} {meta? : Option Fields} {offset : Nat}
    (read : readMeta content = .ok (meta?, offset)) : BeginsBody content meta? offset := by
  unfold readMeta at read
  split at read
  · cases read
  · cases read
    exact beginsBody_bare content
  next header opens =>
    split at read
    next fields _ =>
      cases read
      obtain ⟨start, closes⟩ := Header.exists_closes_of_read opens
      exact beginsBody_closed closes fields
    · cases read

/-- The body of a page begins where a line of its file does. -/
theorem exists_content_of_read {fs : FileSystem} {config : Config} {sourceDirectory file : Path} {extension : String}
    {format : PageFormat} {page : Page} (read : Page.read fs config sourceDirectory file extension format = .ok page) :
    page.sourceFile = file ∧ page.format = format ∧
      ∃ content, fs.read file = .ok content ∧ BeginsBody content page.meta? page.contentOffset := by
  obtain ⟨content, found, made⟩ := bind_eq_ok.mp read
  obtain ⟨⟨meta?, offset⟩, header, made⟩ := bind_eq_ok.mp made
  have begins := readMeta_begins header
  cases made
  exact ⟨rfl, rfl, content, read_of_content found, begins⟩

end Page

/-! ## Errors of a text -/

namespace Template

/-- An error of a text, at the place behind a part of it: where the text is refused, or at one of its tokens. -/
inductive ErrsBehind (filename : String) (source before : List Char) : Error → Prop
  | parsing {problem : Problem} (refused : parse source = .error ⟨Text.byteLength before, problem⟩) :
      ErrsBehind filename source before (.compile filename (.behind before) problem)
  | evaluating {tokens : List Placed} {placed : Placed} {problem : RuntimeProblem} (scanned : scan source = .ok tokens)
      (member : placed ∈ tokens) (here : placed.position = Text.byteLength before) :
      ErrsBehind filename source before (.runtime filename (.behind before) problem)

/-- What a template evaluates to if the files that it includes add nothing to it. -/
def evalAlone (frame : Frame) : Except Error String := (textOf (frame.run fun _ _ => pure ()) {}).1

/-- An evaluation of a template alone fails as its script does. -/
theorem result_of_evalAlone {frame : Frame} (alive : frame.contextAlive = true) {error : Error}
    (failed : evalAlone frame = .error error) : frame.script.result = .error error := by
  let nothing : Path → Properties → Cache → Course := fun _ _ _ => ⟨[], .ok ()⟩
  have ends (requests : List Request) (cache : Cache) :
      (Course.ofRequests frame nothing frame.script.result requests cache).result = frame.script.result := by
    induction requests generalizing cache with
    | nil => rfl
    | cons request rest ih =>
        cases request with
        | write chunk => exact ih cache
        | embed position target bindings =>
            rw [Course.ofRequests, alive]
            exact ih _
  have included (path : Path) (properties : Properties) (run : Run) :
      (pure () : EvalM Unit) run = (nothing path properties run.cache).run run := rfl
  have runs : (frame.run fun _ _ => pure ()).run.run {} = (Course.ofFrame frame nothing {}).run {} :=
    run_eq included {}
  have told := congrArg Prod.fst (textOf_of_run runs)
  rw [Course.ofFrame, ends] at told
  rw [evalAlone, told] at failed
  cases result : frame.script.result with
  | ok done =>
      rw [result] at failed
      cases failed
  | error other =>
      rw [result] at failed
      cases failed
      rfl

end Template

namespace Site

variable {site : Site} {work : Workspace} {page : Page} {bindings : Fields} {body : Bytes} {error : Template.Error}

/-- What the body of a page is evaluated in. -/
def bodyFrame (site : Site) (template : Template.Compiled) (bindings : Fields) : Template.Frame :=
  { template, properties := { bindings }, shared := site.shared, contextAlive := true }

/-- How the body of a page itself fails: it cannot be compiled, or it cannot be evaluated, in the same way as if there
was nothing in the files that it includes. -/
inductive BodyFails (site : Site) (work : Workspace) (page : Page) (bindings : Fields) (source : String) :
    Template.Error → Prop
  | compiling {error : Template.Error} (failed : Template.compile source page.sourceFile.text = .error error) :
      BodyFails site work page bindings source error
  | evaluating {error : Template.Error} {template : Template.Compiled}
      (compiled : Template.compile source page.sourceFile.text = .ok template)
      (failed : (Template.textOf (Template.evalCompiled work.fs site.shared site.includeDepth true template { bindings })
        work.cache).1 = .error error)
      (alone : Template.evalAlone (site.bodyFrame template bindings) = .error error) :
      BodyFails site work page bindings source error

/-- The error of a body is at a place of its text. -/
theorem BodyFails.exists_place {source : String} (fails : site.BodyFails work page bindings source error) :
    ∃ before, before <+: source.toList ∧
      Template.ErrsBehind page.sourceFile.text source.toList before error := by
  cases fails with
  | compiling failed =>
      obtain ⟨problem, before, refused, leads, rfl⟩ := Template.compile_error failed
      exact ⟨before, leads, .parsing refused⟩
  | evaluating compiled failed alone =>
      obtain ⟨made, named⟩ := Template.compile_ok compiled
      have own : (site.bodyFrame _ bindings).Fails error := .inl (Template.result_of_evalAlone rfl alone)
      obtain ⟨tokens, placed, before, problem, scanned, member, leads, here, rfl⟩ := own.exists_token made
      refine ⟨before, leads, ?_⟩
      rw [bodyFrame, named]
      exact .evaluating scanned member here.symm

/-- A body that fails holds code. -/
theorem BodyFails.mayHoldCode (fails : site.BodyFails work page bindings (Text.Utf8.decodeLossy body) error) :
    mayHoldCode body = true := by
  by_contra codeless
  rw [Bool.not_eq_true, mayHoldCode_eq_false] at codeless
  have textLacks : ¬['<', '?'] <:+: (Text.Utf8.decodeLossy body).toList ∨
      ¬['?', '>'] <:+: (Text.Utf8.decodeLossy body).toList :=
    codeless.imp (mt (Text.Utf8.infix_of_decodeLossy (by decide))) (mt (Text.Utf8.infix_of_decodeLossy (by decide)))
  obtain ⟨template, compiles, evaluates⟩ :=
    Template.exists_compile_of_codeless textLacks page.sourceFile.text
  cases fails with
  | compiling failed =>
      rw [compiles] at failed
      cases failed
  | evaluating compiled failed alone =>
      rw [compiles] at compiled
      cases compiled
      rw [evaluates] at failed
      cases failed

/-- A page whose body fails is not built, and its error is that of the body. -/
theorem buildPage_of_bodyFails (markup : page.format = .markup) (reads : page.readBody work.fs = .ok body)
    (fails : site.BodyFails work page bindings (Text.Utf8.decodeLossy body) error) :
    (site.buildPage page bindings work).1 = .error (.template error) := by
  have evaluated : (site.evalBody page bindings body work).1 = .error (.template error) := by
    cases fails with
    | compiling failed =>
        rw [evalBody, failed]
        rfl
    | evaluating compiled failed alone =>
        rw [evalBody_of_compile compiled, evaluated_apply, failed]
  have content : site.pageContent page bindings body = site.evalBody page bindings body := by
    rw [pageContent, markup]
    dsimp only
    rw [if_pos fails.mayHoldCode]
  obtain ⟨after, ended⟩ : ∃ after, site.evalBody page bindings body work = (.error (.template error), after) :=
    ⟨_, Prod.ext evaluated rfl⟩
  rw [buildPage_apply, pageOutput_apply, reads, outputOf, content, build_bind_apply, ended]

/-- The error of a page whose own body fails names the file of the page, and the place of what is wrong with the body
as a text of its own. In the file, that place is as many lines further down as the header has; the column is the same
where the bytes before it in its line are UTF-8. -/
theorem page_errors_count_from_body {fs : FileSystem} {file : Path} {extension : String}
    (read : Page.read fs site.config site.sourceDirectory file extension .markup = .ok page)
    (unchanged : work.fs.read file = fs.read file) (reads : page.readBody work.fs = .ok body)
    (fails : site.BodyFails work page bindings (Text.Utf8.decodeLossy body) error) :
    (site.buildPage page bindings work).1 = .error (.template error) ∧
      ∃ header front behind before, work.fs.read file = .ok (header ++ body) ∧ body = front ++ behind ∧
        (Text.Utf8.decodeLossy front).toList = before ∧
        Template.ErrsBehind file.text (Text.Utf8.decodeLossy body).toList before error ∧
        (page.meta? = none → header = []) ∧ (page.meta?.isSome → 2 ≤ header.count 0x0A) ∧
        (Location.behindBytes (header ++ front)).line = header.count 0x0A + (Location.behind before).line ∧
        ((Text.Utf8.decode? (front.rtakeWhile (· != 0x0A))).isSome →
          (Location.behindBytes (header ++ front)).column = (Location.behind before).column) := by
  obtain ⟨rfl, markup, content, known, begins⟩ := Page.exists_content_of_read read
  refine ⟨buildPage_of_bodyFails markup reads fails, ?_⟩
  obtain ⟨before, leads, place⟩ := fails.exists_place
  obtain ⟨front, behind, cut, decoded⟩ := Text.Utf8.exists_cut_of_decodeLossy leads
  obtain ⟨line, column⟩ := begins.ends.behindBytes_append front
  have whole : work.fs.read page.sourceFile = .ok (content.take page.contentOffset ++ body) := by
    rw [unchanged, known]
    simp only [Page.readBody, unchanged, known, Except.ok.injEq] at reads
    rw [← reads, List.take_append_drop]
  refine ⟨content.take page.contentOffset, front, behind, before, whole, cut, decoded, place, fun bare => ?_,
    begins.lines, ?_, fun valid => ?_⟩
  · rw [begins.bare bare, List.take_zero]
  · rw [line, ← decoded, Text.line_behindBytes]
  · rw [column, ← decoded, Text.column_behindBytes valid]

/-! ## A page with a header -/

/-- A page with a header that says nothing, and a body that asks for what is not there. -/
def headedFiles : FileSystem where
  entries := [(["s"], .directory 0), (["s", "a.html"], .file (Text.Utf8.encode "---\n---\n<?= x ?>") 1)]
  now := 9
  workingDirectory := []

theorem readMeta_headed : Page.readMeta (Text.Utf8.encode "---\n---\n<?= x ?>") = .ok (some [], 8) :=
  eq_of_emptyUntil (by decide +kernel)

theorem read_headed :
    Page.read headedFiles sampleSite.config ⟨"/s"⟩ ⟨"/s/a.html"⟩ ".html" .markup =
      .ok (barePage "a.html" "A" (some []) 8) := by
  refine @read_barePage _ _ "a.html" "A" "a" (Text.Utf8.encode "---\n---\n<?= x ?>") _ _ ?_ ?_ rfl readMeta_headed rfl
    ?_ ?_ ?_
  all_goals decide +kernel

/-- Whether nodes do nothing but write the value of a name at a place. -/
def echoes (position : Nat) (name : String) : Except SyntaxError (List Template.Node) → Bool
  | .ok [.echo (.variable found asked)] => found == position && asked == name
  | _ => false

theorem eq_of_echoes {position : Nat} {name : String} {result : Except SyntaxError (List Template.Node)}
    (shows : echoes position name result = true) : result = .ok [.echo (.variable position name)] := by
  unfold echoes at shows
  split at shows
  · rw [Bool.and_eq_true, beq_iff_eq, beq_iff_eq] at shows
    rw [shows.1, shows.2]
  · cases shows

theorem parse_headed : Template.parse "<?= x ?>".toList = .ok [.echo (.variable 4 "x")] :=
  eq_of_echoes (by decide +kernel)

theorem bodyFails_headed :
    sampleSite.BodyFails { fs := headedFiles } (barePage "a.html" "A" (some []) 8) [] "<?= x ?>"
      (.runtime "/s/a.html" ⟨1, 5⟩ (.undefinedName "x")) := by
  have compiled : Template.compile "<?= x ?>" "/s/a.html" = .ok
      { nodes := [.echo (.variable 4 "x")], filename := "/s/a.html", path := ⟨"/s/a.html"⟩,
        lines := .ofText "<?= x ?>".toList, stamp := 0, serial := 0 } := by
    rw [Template.compile, parse_headed]
  exact .evaluating compiled rfl rfl

theorem readBody_headed :
    (barePage "a.html" "A" (some []) 8).readBody headedFiles = .ok (Text.Utf8.encode "<?= x ?>") := by
  have known : headedFiles.read ⟨"/s/a.html"⟩ = .ok (Text.Utf8.encode "---\n---\n<?= x ?>") := by decide
  have source : (barePage "a.html" "A" (some []) 8).sourceFile = ⟨"/s/a.html"⟩ := by decide
  rw [Page.readBody, source, known]
  rfl

theorem page_errors_count_from_body_headed :
    Page.read headedFiles sampleSite.config ⟨"/s"⟩ ⟨"/s/a.html"⟩ ".html" .markup =
        .ok (barePage "a.html" "A" (some []) 8) ∧
      (sampleSite.buildPage (barePage "a.html" "A" (some []) 8) [] { fs := headedFiles }).1 =
        .error (.template (.runtime "/s/a.html" ⟨1, 5⟩ (.undefinedName "x"))) := by
  have fails := bodyFails_headed
  rw [← Text.Utf8.decodeLossy_encode "<?= x ?>"] at fails
  exact ⟨read_headed, (page_errors_count_from_body read_headed rfl readBody_headed fails).1⟩

/-- The name stands in the third line of the file, and the error has it in the first. -/
theorem error_behind_header :
    Page.read headedFiles sampleSite.config ⟨"/s"⟩ ⟨"/s/a.html"⟩ ".html" .markup =
        .ok (barePage "a.html" "A" (some []) 8) ∧
      headedFiles.read ⟨"/s/a.html"⟩ =
        .ok (Text.Utf8.encode "---\n---\n<?= " ++ Text.Utf8.encode "x ?>") ∧
      Location.behindBytes (Text.Utf8.encode "---\n---\n<?= ") = ⟨3, 5⟩ ∧
      (sampleSite.buildPage (barePage "a.html" "A" (some []) 8) [] { fs := headedFiles }).1 =
        .error (.template (.runtime "/s/a.html" ⟨1, 5⟩ (.undefinedName "x"))) := by
  have fails := bodyFails_headed
  rw [← Text.Utf8.decodeLossy_encode "<?= x ?>"] at fails
  exact ⟨read_headed, by decide, by decide, buildPage_of_bodyFails rfl readBody_headed fails⟩

end Site

end StaticSite
