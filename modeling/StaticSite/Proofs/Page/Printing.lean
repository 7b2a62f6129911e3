import StaticSite.Page.Basic
import StaticSite.Proofs.Page.FrontMatter
import StaticSite.Proofs.Page.Header
import StaticSite.Proofs.Text.Utf8

/-!
The file of a page with front matter. Reading it gives back the front matter and the body: no line of the
front matter is taken for the closing line, since each has a colon in it.
-/

namespace StaticSite.Header

variable {line : Bytes}

theorem searchFrom_append (single : lineFeed ∉ line) (offset lastBreak : Nat) (rest : Bytes) :
    searchFrom offset lastBreak (line ++ rest) = searchFrom (offset + line.length) lastBreak rest := by
  induction line generalizing offset with
  | nil => rfl
  | cons byte line ih =>
      rw [List.mem_cons, not_or] at single
      rw [List.cons_append, searchFrom, if_neg (Ne.symm single.1), ih single.2, List.length_cons,
        Nat.add_assoc, Nat.add_comm 1]

/-- A line that holds more than dashes closes nothing. -/
theorem closingLength?_append (single : lineFeed ∉ line) (other : ∃ byte ∈ line, byte ≠ dash)
    (rest : Bytes) : closingLength? (line ++ rest) = none := by
  obtain ⟨all, -⟩ := takeWhile_dash (line ++ rest)
  unfold closingLength?
  generalize ((line ++ rest).takeWhile (· == dash)).length = dashes at all ⊢
  have inside : dashes < line.length := by
    obtain ⟨byte, member, notDash⟩ := other
    obtain ⟨i, bound, rfl⟩ := List.getElem_of_mem member
    by_contra beyond
    have isDash := all i (by omega)
    rw [List.getElem?_append_left bound, List.getElem?_eq_getElem bound] at isDash
    exact notDash (Option.some.inj isDash)
  have notBreak : (line ++ rest)[dashes]? ≠ some lineFeed := by
    rw [List.getElem?_append_left inside, List.getElem?_eq_getElem inside]
    intro isBreak
    exact single (Option.some.inj isBreak ▸ List.getElem_mem inside)
  simp [notBreak]

/-- Lines that close nothing are passed over, up to a line that does. -/
theorem searchFrom_lines {lines : List Bytes}
    (open_ : ∀ line ∈ lines, lineFeed ∉ line ∧ ∃ byte ∈ line, byte ≠ dash) (offset lastBreak : Nat)
    (body : Bytes) :
    searchFrom offset lastBreak (lines.flatMap (lineFeed :: ·) ++ lineFeed :: (opening ++ body)) =
      .found (offset + (lines.flatMap (lineFeed :: ·)).length)
        (offset + (lines.flatMap (lineFeed :: ·)).length + 5) := by
  induction lines generalizing offset lastBreak with
  | nil => rfl
  | cons line lines ih =>
      obtain ⟨single, other⟩ := open_ line (by simp)
      have others := ih (fun line member => open_ line (by simp [member])) (offset + 1 + line.length)
        offset
      rw [List.flatMap_cons, List.append_assoc, List.cons_append, searchFrom, if_pos rfl,
        closingLength?_append single other]
      dsimp only
      rw [searchFrom_append single, others, List.length_append, List.length_cons]
      congr 1 <;> omega

end StaticSite.Header

namespace StaticSite.Page

open Json (Value Fields)
open Header (lineFeed dash opening)

/-- The file of a page: front matter with an entry on each line between lines of dashes, and the body. -/
def printPage (entries : Fields) (body : Bytes) : Bytes :=
  Text.Utf8.encode
    ("---\n" ++ String.ofList (entries.flatMap fun entry => FrontMatter.printEntry entry ++ ['\n']) ++
      "---\n") ++ body

/-- The bytes of the lines of entries, without their line feeds. -/
def entryBytes (entries : Fields) : List Bytes :=
  entries.map fun entry => (FrontMatter.printEntry entry).flatMap String.utf8EncodeChar

theorem lineFeed_entries (entries : Fields) :
    '\n' :: (entries.flatMap fun entry => FrontMatter.printEntry entry ++ ['\n']) =
      FrontMatter.printLines entries ++ ['\n'] := by
  induction entries with
  | nil => rfl
  | cons entry rest ih =>
      rw [List.flatMap_cons, FrontMatter.printLines_cons, List.append_assoc, List.singleton_append, ih,
        List.cons_append, List.append_assoc]

theorem flatMap_entryBytes (entries : Fields) :
    (entryBytes entries).flatMap (lineFeed :: ·) =
      (FrontMatter.printLines entries).flatMap String.utf8EncodeChar := by
  induction entries with
  | nil => rfl
  | cons entry rest ih =>
      have one : String.utf8EncodeChar '\n' = [lineFeed] := rfl
      rw [FrontMatter.printLines_cons, List.flatMap_cons, List.flatMap_append, ← ih, one]
      rfl

theorem encode_dashes : Text.Utf8.encode "---\n" = opening := rfl

theorem printPage_eq (entries : Fields) (body : Bytes) :
    printPage entries body =
      [dash, dash, dash] ++
        ((entryBytes entries).flatMap (lineFeed :: ·) ++ lineFeed :: (opening ++ body)) := by
  have lines := congrArg (List.flatMap String.utf8EncodeChar) (lineFeed_entries entries)
  have one : String.utf8EncodeChar '\n' = [lineFeed] := rfl
  have opens : opening = [dash, dash, dash] ++ [lineFeed] := rfl
  rw [List.flatMap_cons, List.flatMap_append, List.flatMap_singleton, one, ← flatMap_entryBytes] at lines
  calc printPage entries body
    _ = [dash, dash, dash] ++ ([lineFeed] ++
          (entries.flatMap fun entry => FrontMatter.printEntry entry ++ ['\n']).flatMap
            String.utf8EncodeChar) ++ opening ++ body := by
        rw [printPage, Text.Utf8.encode_append, Text.Utf8.encode_append, encode_dashes,
          Text.Utf8.encode_ofList, ← List.append_assoc [dash, dash, dash], ← opens]
    _ = _ := by
        rw [lines]
        simp only [List.append_assoc, List.cons_append, List.nil_append]

theorem mem_flatMap_ascii {chars : List Char} {b : UInt8} (ascii : b.toNat < 0x80)
    (member : b ∈ chars.flatMap String.utf8EncodeChar) : Char.ofNat b.toNat ∈ chars := by
  obtain ⟨c, inChars, inBytes⟩ := List.mem_flatMap.mp member
  rw [← Text.Utf8.ascii_of_mem inBytes ascii, Char.ofNat_toNat]
  exact inChars

/-- The line of an entry is a single line, and more than dashes. -/
theorem entryBytes_open {entries : Fields} (valid : FrontMatter.areEntries entries = true) :
    ∀ line ∈ entryBytes entries, lineFeed ∉ line ∧ ∃ byte ∈ line, byte ≠ dash := by
  intro line member
  obtain ⟨entry, inEntries, rfl⟩ := List.mem_map.mp member
  rw [FrontMatter.areEntries, List.all_eq_true] at valid
  have entryValid := valid entry inEntries
  rw [Bool.and_eq_true] at entryValid
  refine ⟨fun isBreak => ?_, 0x3A, ?_, by decide⟩
  · have inLine : '\n' ∈ FrontMatter.printEntry entry := mem_flatMap_ascii (by decide) isBreak
    simp only [FrontMatter.printEntry, List.mem_append, List.mem_cons] at inLine
    rcases inLine with inKey | same | same | inValue
    · have named := entryValid.1
      simp only [FrontMatter.isKey, Bool.and_eq_true, List.all_eq_true] at named
      cases named.2 _ inKey
    · cases same
    · cases same
    · exact FrontMatter.lineFeed_not_mem_entry entryValid.2 inValue
  · have colon : String.utf8EncodeChar ':' = [0x3A] := rfl
    simp [FrontMatter.printEntry, colon]

variable {fields entries : Fields}

theorem opened_printPage (entries : Fields) (body : Bytes) : Header.Opened (printPage entries body) := by
  refine ⟨?_, ?_⟩
  · rw [printPage_eq]
    simp only [List.length_append, List.length_cons, Header.leastSize, opening]
    omega
  · rw [printPage, Text.Utf8.encode_append, Text.Utf8.encode_append, encode_dashes, List.append_assoc,
      List.append_assoc]
    exact List.prefix_append _ _

/-- The first closing line of a written page is the one behind its front matter. -/
theorem firstCloses_printPage (valid : FrontMatter.areEntries entries = true) (body : Bytes) :
    Header.FirstCloses (printPage entries body)
      (3 + ((entryBytes entries).flatMap (lineFeed :: ·)).length)
      (3 + ((entryBytes entries).flatMap (lineFeed :: ·)).length + 5) := by
  refine Header.firstCloses_of_search ?_
  have behind : (printPage entries body).drop 3 =
      (entryBytes entries).flatMap (lineFeed :: ·) ++ lineFeed :: (opening ++ body) := by
    rw [printPage_eq]
    rfl
  rw [Header.search, behind]
  exact Header.searchFrom_lines (entryBytes_open valid) 3 3 body

/-- What stands between the lines of dashes, which the last line feed belongs to. -/
theorem frontMatter_printPage (entries : Fields) (body : Bytes) :
    ((printPage entries body).take (3 + ((entryBytes entries).flatMap (lineFeed :: ·)).length)).drop 4 =
      Text.Utf8.encode (String.ofList (FrontMatter.printLines entries).tail) := by
  rw [printPage_eq, show 3 = [dash, dash, dash].length from rfl, List.take_length_add_append,
    List.take_left, flatMap_entryBytes, Text.Utf8.encode_ofList]
  cases entries with
  | nil => rfl
  | cons entry rest => rfl

/-- The header of a written page is what was written between the lines of dashes. -/
theorem header_printPage (valid : FrontMatter.areEntries entries = true) (body : Bytes) (reader : Reader)
    (bytes : reader.bytes = printPage entries body) (intact : reader.broken = false) :
    (Header.read reader).1 =
      .ok (some
        { frontMatter := String.ofList (FrontMatter.printLines entries).tail
          contentOffset := 3 + ((entryBytes entries).flatMap (lineFeed :: ·)).length + 5 }) := by
  have opened := opened_printPage entries body
  have first := firstCloses_printPage valid body
  rw [← bytes] at opened first
  rw [Header.read_of_firstCloses intact opened first, bytes, frontMatter_printPage,
    Text.Utf8.decodeLossy_encode]

theorem drop_printPage (entries : Fields) (body : Bytes) :
    (printPage entries body).drop (3 + ((entryBytes entries).flatMap (lineFeed :: ·)).length + 5) =
      body := by
  rw [printPage_eq, ← List.drop_drop, ← List.drop_drop]
  change (((entryBytes entries).flatMap (lineFeed :: ·) ++ lineFeed :: (opening ++ body)).drop _).drop 5 =
    body
  rw [List.drop_left]
  rfl

theorem read_of_content {fs : FileSystem} {sourceFile : Path} {content : Bytes}
    (found : Page.content fs sourceFile = .ok content) : fs.read sourceFile = .ok content := by
  unfold Page.content at found
  unfold FileSystem.read
  cases place : fs.find true sourceFile with
  | error error =>
      rw [place] at found
      cases found
  | ok located =>
      obtain ⟨location, entry⟩ := located
      rw [place] at found
      cases entry with
      | file bytes time =>
          cases found
          rfl
      | directory time => cases found
      | link target => cases found

/-- A page has the fields of the front matter that its header holds, and its body begins behind the
header. -/
theorem exists_read {fs : FileSystem} {sourceFile : Path} {content : Bytes} {header : Header}
    (found : Page.content fs sourceFile = .ok content)
    (opens : (Header.read (.ofBytes content)).1 = .ok (some header))
    (parsed : FrontMatter.parse header.frontMatter = .ok fields) (config : Config)
    (sourceDirectory : Path) (extension : String) (format : PageFormat) :
    ∃ page, Page.read fs config sourceDirectory sourceFile extension format = .ok page ∧
      page.meta? = some fields ∧ page.readBody fs = .ok (content.drop header.contentOffset) := by
  have metaRead : readMeta content = .ok (some fields, header.contentOffset) := by
    simp only [readMeta, opens, parsed]
  obtain ⟨page, made, sameMeta, sameOffset, sameFile⟩ :
      ∃ page, ofContent config sourceDirectory sourceFile extension format content = .ok page ∧
        page.meta? = some fields ∧ page.contentOffset = header.contentOffset ∧
        page.sourceFile = sourceFile := by
    unfold ofContent
    rw [metaRead]
    exact ⟨_, rfl, rfl, rfl, rfl⟩
  refine ⟨page, ?_, sameMeta, ?_⟩
  · simp only [Page.read, found, made, bind, Except.bind]
  · simp only [readBody, sameFile, read_of_content found, sameOffset]

/-- Reading a page undoes writing it: its header holds the front matter, whose fields are those that were
written, in whatever order, and what is behind the header is the body. -/
theorem read_printPage (ordered : fields.Ordered) (valid : FrontMatter.areEntries fields = true)
    (order : entries.Perm fields) (body : Bytes) :
    ∃ header : Header,
      (∀ reader : Reader, reader.bytes = printPage entries body → reader.broken = false →
        (Header.read reader).1 = .ok (some header)) ∧
      FrontMatter.parse header.frontMatter = .ok fields ∧
      (printPage entries body).drop header.contentOffset = body ∧
      ∀ fs config sourceDirectory sourceFile extension format,
        Page.content fs sourceFile = .ok (printPage entries body) →
        ∃ page, Page.read fs config sourceDirectory sourceFile extension format = .ok page ∧
          page.meta? = some fields ∧ page.readBody fs = .ok body := by
  have opens := header_printPage (FrontMatter.areEntries_of_perm valid order) body
  have parsed := FrontMatter.parse_printLines ordered valid order
  have behind := drop_printPage entries body
  refine ⟨_, opens, parsed, behind, ?_⟩
  intro fs config sourceDirectory sourceFile extension format found
  have whole : (Reader.ofBytes (printPage entries body)).bytes = printPage entries body := by
    simp [Reader.ofBytes, Reader.bytes]
  obtain ⟨page, made, sameMeta, read⟩ :=
    exists_read found (opens _ whole rfl) parsed config sourceDirectory extension format
  refine ⟨page, made, sameMeta, ?_⟩
  rwa [behind] at read

/-- Front matter whose last key could be taken for the closing line, were it not for the colon. -/
def sampleFields : Fields :=
  [("---", .array [.null, .number (.int (-7)), .object [("a>", .string "1\n2")]]),
    ("weight", .number (.int (-9223372036854775808)))]

theorem read_printPage_sample :
    ∃ header : Header,
      (∀ reader : Reader, reader.bytes = printPage sampleFields.reverse [0x2D, 0xFF] →
        reader.broken = false → (Header.read reader).1 = .ok (some header)) ∧
      FrontMatter.parse header.frontMatter = .ok sampleFields ∧
      (printPage sampleFields.reverse [0x2D, 0xFF]).drop header.contentOffset = [0x2D, 0xFF] ∧
      ∀ fs config sourceDirectory sourceFile extension format,
        Page.content fs sourceFile = .ok (printPage sampleFields.reverse [0x2D, 0xFF]) →
        ∃ page, Page.read fs config sourceDirectory sourceFile extension format = .ok page ∧
          page.meta? = some sampleFields ∧ page.readBody fs = .ok [0x2D, 0xFF] :=
  read_printPage (by decide) (by decide) sampleFields.reverse_perm [0x2D, 0xFF]

end StaticSite.Page
