import StaticSite.Proofs.Page.FrontMatter

/-!
Front matter line by line. A text is cut at its keys, wherever these stand; here it is split into lines
first, each line is looked at by itself, and the lines are gathered under the keys that they begin with.
Both ways give the same entries.
-/

namespace StaticSite.FrontMatter

open Json (Value Fields)

def lines (text : List Char) : List (List Char) := text.splitOn '\n'

/-- Whether a line begins with one or more characters of keys and a colon. -/
def isKeyLine (line : List Char) : Bool :=
  (line.dropWhile isKeyChar).head? == some ':' && line.head? != some ':'

/-- What stands before the first colon of a line. -/
def nameOf (line : List Char) : String := String.ofList (line.takeWhile (· != ':'))

/-- What stands behind the first colon of a line. -/
def behindName (line : List Char) : List Char := (line.dropWhile (· != ':')).tail

/-- The keys that lines begin with, each with the rest of its line and the lines up to the next key. -/
def entriesOfLines : List (List Char) → List (String × List Char)
  | [] => []
  | line :: others =>
    if isKeyLine line then
      (nameOf line, Text.trim (['\n'].intercalate (behindName line :: others.takeWhile (!isKeyLine ·)))) ::
        entriesOfLines others
    else entriesOfLines others

example : entriesOfLines (lines "top\na: 1\n b: 2\r\n: x\nc.d:\na:'é'".toList) =
    [("a", "1\n b: 2\r\n: x".toList), ("c.d", []), ("a", "'é'".toList)] := by
  decide +kernel

/-! ## Keys -/

/-- A text that is a key, a colon and a further text. -/
structure Keyed (text name value : List Char) : Prop where
  whole : text = name ++ ':' :: value
  nonempty : name ≠ []
  chars : ∀ c ∈ name, isKeyChar c = true

variable {text name value line rest : List Char}

theorem isKeyChar_colon : isKeyChar ':' = false := rfl

theorem isKeyChar_lineFeed : isKeyChar '\n' = false := rfl

theorem Keyed.key? (keyed : Keyed text name value) : key? text = some (name, value) := by
  rw [keyed.whole]
  exact key?_append keyed.nonempty keyed.chars value

theorem keyed_of_key? (found : key? text = some (name, value)) : Keyed text name value := by
  have whole := List.takeWhile_append_dropWhile (p := isKeyChar) (l := text)
  unfold FrontMatter.key? at found
  split at found
  · rename_i behind
    split at found
    · cases found
    · rename_i nonempty
      cases found
      rw [behind] at whole
      exact ⟨whole.symm, by simpa using nonempty, fun c member => List.mem_takeWhile_imp member⟩
  · cases found

theorem Keyed.ne_colon (keyed : Keyed text name value) : ∀ c ∈ name, (c != ':') = true := by
  intro c member
  rw [bne_iff_ne]
  intro same
  have char := keyed.chars c member
  rw [same] at char
  cases char

theorem Keyed.takeWhile (keyed : Keyed text name value) : text.takeWhile (· != ':') = name := by
  rw [keyed.whole]
  exact Text.takeWhile_append_of_head keyed.ne_colon (by simp)

theorem Keyed.behindName (keyed : Keyed text name value) : behindName text = value := by
  have behind : text.dropWhile (· != ':') = ':' :: value := by
    rw [keyed.whole]
    exact Text.dropWhile_append_of_head keyed.ne_colon (by simp)
  rw [FrontMatter.behindName, behind, List.tail_cons]

theorem Keyed.isKeyLine (keyed : Keyed text name value) : isKeyLine text = true := by
  have behind : text.dropWhile isKeyChar = ':' :: value := by
    rw [keyed.whole]
    exact Text.dropWhile_append_of_head keyed.chars (by simp [isKeyChar_colon])
  have first : text.head? ≠ some ':' := by
    cases name with
    | nil => exact absurd rfl keyed.nonempty
    | cons c name =>
        have char := keyed.ne_colon c (by simp)
        rw [keyed.whole]
        simpa using char
  simp [FrontMatter.isKeyLine, behind, first]

theorem exists_keyed_of_isKeyLine (begins : isKeyLine line = true) : ∃ name value, Keyed line name value := by
  simp only [FrontMatter.isKeyLine, Bool.and_eq_true, beq_iff_eq, bne_iff_ne] at begins
  obtain ⟨value, behind⟩ := List.head?_eq_some_iff.mp begins.1
  have whole := List.takeWhile_append_dropWhile (p := isKeyChar) (l := line)
  rw [behind] at whole
  refine ⟨line.takeWhile isKeyChar, value, whole.symm, ?_, fun c member => List.mem_takeWhile_imp member⟩
  intro empty
  rw [empty, List.nil_append] at whole
  rw [← whole] at begins
  exact begins.2 rfl

/-- A key does not go beyond the line that it stands in. -/
theorem Keyed.of_append (keyed : Keyed (line ++ '\n' :: rest) name value) :
    ∃ inside, Keyed line name inside ∧ value = inside ++ '\n' :: rest := by
  have apart : '\n' ∉ name := by
    intro member
    have char := keyed.chars _ member
    rw [isKeyChar_lineFeed] at char
    cases char
  rcases List.append_eq_append_iff.mp keyed.whole with ⟨more, inName, behind⟩ | ⟨more, inLine, behind⟩
  · cases more with
    | nil => cases behind
    | cons c more =>
        cases behind
        exact absurd (by rw [inName]; simp) apart
  · cases more with
    | nil => cases behind
    | cons c more =>
        cases behind
        exact ⟨more, ⟨inLine, keyed.nonempty, keyed.chars⟩, rfl⟩

theorem Keyed.append (keyed : Keyed line name value) (rest : List Char) :
    Keyed (line ++ rest) name (value ++ rest) :=
  ⟨by rw [keyed.whole, List.append_assoc, List.cons_append], keyed.nonempty, keyed.chars⟩

/-! ## Lines -/

/-- A text is its first line, alone or before a line feed and the lines of what follows. -/
theorem lines_cases (text : List Char) : ('\n' ∉ text ∧ lines text = [text]) ∨
    ∃ line rest, text = line ++ '\n' :: rest ∧ '\n' ∉ line ∧ lines text = line :: lines rest := by
  by_cases single : '\n' ∈ text
  · obtain ⟨line, rest, whole, apart⟩ := List.eq_append_cons_of_mem single
    refine .inr ⟨line, rest, whole, apart, ?_⟩
    rw [whole]
    exact List.splitOn_append_cons_self_of_not_mem apart rest
  · exact .inl ⟨single, List.splitOn_eq_singleton single⟩

theorem intercalate_lines (text : List Char) : ['\n'].intercalate (lines text) = text :=
  List.intercalate_splitOn '\n'

theorem lineFeed_not_mem_of_mem_lines (member : line ∈ lines text) : '\n' ∉ line := by
  induction split : lines text generalizing text with
  | nil => exact absurd split (List.splitOn_ne_nil _ _)
  | cons first others ih =>
      rcases lines_cases text with ⟨single, alone⟩ | ⟨first, rest, rfl, single, more⟩
      · rw [alone, List.mem_singleton] at member
        rwa [member]
      · rw [more] at member split
        obtain ⟨-, behind⟩ := List.cons.inj split
        rcases List.mem_cons.mp member with rfl | member
        · exact single
        · exact ih member behind

/-- The lines of what follows a key are those of the text, without the key. -/
theorem Keyed.lines {others : List (List Char)} (keyed : Keyed text name value)
    (split : lines text = line :: others) :
    ∃ inside, Keyed line name inside ∧ FrontMatter.lines value = inside :: others := by
  rcases lines_cases text with ⟨single, alone⟩ | ⟨first, rest, rfl, single, more⟩
  · cases alone.symm.trans split
    refine ⟨value, keyed, List.splitOn_eq_singleton fun member => single ?_⟩
    rw [keyed.whole]
    simp [member]
  · cases more.symm.trans split
    obtain ⟨inside, here, rfl⟩ := keyed.of_append
    refine ⟨inside, here, List.splitOn_append_cons_self_of_not_mem (fun member => single ?_) rest⟩
    rw [here.whole]
    simp [member]

/-- A text begins with a key if its first line does. -/
theorem isSome_key?_of_lines {others : List (List Char)} (split : lines text = line :: others) :
    (key? text).isSome = isKeyLine line := by
  rw [Bool.eq_iff_iff, Option.isSome_iff_exists]
  constructor
  · rintro ⟨⟨name, value⟩, found⟩
    have keyed := keyed_of_key? found
    rcases lines_cases text with ⟨-, alone⟩ | ⟨first, rest, rfl, -, more⟩
    · cases alone.symm.trans split
      exact keyed.isKeyLine
    · cases more.symm.trans split
      obtain ⟨inside, first, -⟩ := keyed.of_append
      exact first.isKeyLine
  · intro begins
    obtain ⟨name, value, keyed⟩ := exists_keyed_of_isKeyLine begins
    rcases lines_cases text with ⟨-, alone⟩ | ⟨first, rest, rfl, -, more⟩
    · cases alone.symm.trans split
      exact ⟨_, keyed.key?⟩
    · cases more.symm.trans split
      exact ⟨_, (keyed.append _).key?⟩

/-- Lines from the first one that begins with a key. -/
def fromKey (lines : List (List Char)) : List (List Char) := lines.dropWhile (!isKeyLine ·)

theorem cutAtKey_single (single : '\n' ∉ text) : cutAtKey text = (text, []) := by
  have cut := cutAtKey_append_of_not_mem single []
  simpa [cutAtKey] using cut

theorem cutAtKey_plain (plain : (key? rest).isSome = false) :
    cutAtKey ('\n' :: rest) = ('\n' :: (cutAtKey rest).1, (cutAtKey rest).2) := by
  simp only [cutAtKey, plain, Bool.and_false, Bool.false_eq_true, if_false]

/-- A text is cut before its first line, other than the one it begins within, that begins with a key. -/
theorem cutAtKey_lines {others : List (List Char)} (split : lines text = line :: others) :
    ∃ ending, cutAtKey text = (['\n'].intercalate (line :: others.takeWhile (!isKeyLine ·)) ++ ending,
        ['\n'].intercalate (fromKey others)) ∧ ∀ c ∈ ending, Text.isBlank c = true := by
  -- on the lines behind the first: one that begins with a key ends the cut, any other is passed
  induction others generalizing text line with
  | nil =>
      rcases lines_cases text with ⟨single, alone⟩ | ⟨first, rest, rfl, -, more⟩
      · cases alone.symm.trans split
        refine ⟨[], ?_, by simp⟩
        simpa [fromKey] using cutAtKey_single single
      · obtain ⟨-, none_⟩ := List.cons.inj (more.symm.trans split)
        exact absurd none_ (List.splitOn_ne_nil _ _)
  | cons next others ih =>
      rcases lines_cases text with ⟨-, alone⟩ | ⟨first, rest, rfl, single, more⟩
      · cases alone.symm.trans split
      · obtain ⟨rfl, behind⟩ := List.cons.inj (more.symm.trans split)
        have begins := isSome_key?_of_lines behind
        rw [cutAtKey_append_of_not_mem single]
        cases key : isKeyLine next with
        | true =>
            have whole := intercalate_lines rest
            rw [behind] at whole
            refine ⟨['\n'], ?_, by simp [Text.isBlank]⟩
            rw [cutAtKey_lineFeed (begins.trans key)]
            simp [fromKey, key, whole]
        | false =>
            obtain ⟨ending, cut, blank⟩ := ih behind
            refine ⟨ending, ?_, blank⟩
            rw [cutAtKey_plain (begins.trans key), cut]
            simp [fromKey, key, List.intercalate_cons_cons]

/-! ## Entries -/

theorem entriesOfLines_fromKey (lines : List (List Char)) :
    entriesOfLines (fromKey lines) = entriesOfLines lines := by
  induction lines with
  | nil => rfl
  | cons line lines ih =>
      cases key : isKeyLine line with
      | true => simp [fromKey, key]
      | false =>
          have passed : fromKey (line :: lines) = fromKey lines := by simp [fromKey, key]
          rw [passed, ih]
          simp [entriesOfLines, key]

/-- What is cut off before a key has the lines from the key on. -/
theorem lines_fromKey {others : List (List Char)} (split : lines text = line :: others)
    (more : fromKey others ≠ []) : lines (['\n'].intercalate (fromKey others)) = fromKey others := by
  have single : ∀ l ∈ fromKey others, '\n' ∉ l := by
    intro l member
    have inText : l ∈ lines text := by
      rw [split]
      exact List.mem_cons_of_mem _ ((List.dropWhile_suffix _).subset member)
    exact lineFeed_not_mem_of_mem_lines inText
  exact List.splitOn_intercalate '\n' single more

theorem entriesOfLines_cut {others : List (List Char)} (split : lines text = line :: others) :
    entriesOfLines (lines (['\n'].intercalate (fromKey others))) = entriesOfLines others := by
  rw [← entriesOfLines_fromKey others]
  by_cases more : fromKey others = []
  · rw [more]
    rfl
  · rw [lines_fromKey split more]

/-- An entry with its key as a text, and its value without the blanks around it. -/
def tidied (entry : List Char × List Char) : String × List Char :=
  (String.ofList entry.1, Text.trim entry.2)

theorem begins_fromKey {others : List (List Char)} (split : lines text = line :: others) :
    ['\n'].intercalate (fromKey others) = [] ∨
      (key? (['\n'].intercalate (fromKey others))).isSome = true := by
  have head := List.head?_dropWhile_not (!isKeyLine ·) others
  cases first : fromKey others with
  | nil => exact .inl rfl
  | cons l rest =>
      have split' := lines_fromKey split (by simp [first])
      have key : isKeyLine l = true := by
        rw [← fromKey, first] at head
        simpa using head
      rw [first] at split'
      exact .inr ((isSome_key?_of_lines split').trans key)

/-- The entries of a text that begins with a key, or is empty. -/
theorem entriesFrom_lines (text : List Char) (begins : text = [] ∨ (key? text).isSome = true) :
    (entriesFrom text).map tidied = entriesOfLines (lines text) := by
  -- on the text: what is left behind the first entry is shorter, and begins with a key again
  induction size : text.length using Nat.strongRecOn generalizing text with
  | ind length ih =>
  subst size
  rcases begins with rfl | begins
  · rw [entriesFrom_nil]
    rfl
  obtain ⟨⟨name, value⟩, found⟩ := Option.isSome_iff_exists.mp begins
  have keyed := keyed_of_key? found
  obtain ⟨line, others, split⟩ := List.exists_cons_of_ne_nil (List.splitOn_ne_nil '\n' text)
  obtain ⟨inside, first, splitValue⟩ := keyed.lines split
  obtain ⟨ending, cut, blank⟩ := cutAtKey_lines splitValue
  have shorter : (['\n'].intercalate (fromKey others)).length < text.length := by
    have cutShorter := cutAtKey_rest_le value
    rw [cut] at cutShorter
    exact Nat.lt_of_le_of_lt cutShorter (key?_rest_lt found)
  rw [entriesFrom_of_key? found, cut, List.map_cons, tidied,
    Text.trim_append_of_blank _ blank, ih _ shorter _ (begins_fromKey splitValue) rfl,
    entriesOfLines_cut splitValue]
  change _ = entriesOfLines (text.splitOn '\n')
  rw [split, entriesOfLines, if_pos first.isKeyLine, nameOf, first.takeWhile, first.behindName]

/-- The entries of a text are those of its lines. -/
theorem entries_lines (text : List Char) : (entries text).map tidied = entriesOfLines (lines text) := by
  obtain ⟨line, others, split⟩ := List.exists_cons_of_ne_nil (List.splitOn_ne_nil '\n' text)
  unfold entries
  cases begins : (key? text).isSome with
  | true =>
      rw [if_pos rfl]
      exact entriesFrom_lines text (.inr begins)
  | false =>
      obtain ⟨ending, cut, -⟩ := cutAtKey_lines split
      have plain : isKeyLine line = false := (isSome_key?_of_lines split).symm.trans begins
      rw [if_neg Bool.false_ne_true, cut, entriesFrom_lines _ (begins_fromKey split),
        entriesOfLines_cut split]
      change _ = entriesOfLines (text.splitOn '\n')
      rw [split, entriesOfLines, if_neg (by simp [plain])]

/-! ## Fields -/

/-- A value begins like a literal, but cannot be read as one. -/
def Refused (raw : List Char) (problem : Template.Problem) : Prop :=
  beginsLiteral raw = true ∧ ∃ position, Template.parseLiteral raw = .error ⟨position, problem⟩

/-- The last of the values that entries have for a key. -/
def LastOf (entries : List (String × List Char)) (key : String) (raw : List Char) : Prop :=
  ∃ front rest, entries = front ++ (key, raw) :: rest ∧ ∀ later ∈ rest, later.1 ≠ key

theorem not_lastOf_nil (key : String) (raw : List Char) : ¬ LastOf [] key raw := by
  rintro ⟨front, rest, same, -⟩
  cases front <;> cases same

theorem lastOf_cons {first : String × List Char} {others : List (String × List Char)} {key : String}
    {raw : List Char} : LastOf (first :: others) key raw ↔
      LastOf others key raw ∨ first = (key, raw) ∧ ∀ later ∈ others, later.1 ≠ key := by
  constructor
  · rintro ⟨_ | ⟨entry, front⟩, rest, same, last⟩
    · cases same
      exact .inr ⟨rfl, last⟩
    · cases same
      exact .inl ⟨front, rest, rfl, last⟩
  · rintro (⟨front, rest, rfl, last⟩ | ⟨rfl, last⟩)
    · exact ⟨first :: front, rest, rfl, last⟩
    · exact ⟨[], others, rfl, last⟩

theorem interpret_eq_error {key : String} {raw : List Char} {error : Error} :
    interpret key raw = .error error ↔
      ∃ problem, Refused raw problem ∧ error = .invalidValue key problem := by
  unfold interpret Refused
  cases begins : beginsLiteral raw with
  | false =>
      simp only [Bool.false_eq_true, if_false, false_and, exists_false, iff_false]
      split <;> simp
  | true =>
      simp only [if_true, true_and]
      cases read : Template.parseLiteral raw with
      | ok value => simp
      | error found =>
          obtain ⟨position, problem⟩ := found
          simp [eq_comm]

theorem exists_interpret (key : String) {raw : List Char} (accepted : ∀ problem, ¬ Refused raw problem) :
    ∃ value, interpret key raw = .ok value := by
  cases read : interpret key raw with
  | ok value => exact ⟨value, rfl⟩
  | error error =>
      obtain ⟨problem, refused, -⟩ := interpret_eq_error.mp read
      exact absurd refused (accepted problem)

theorem not_refused_of_interpret {key : String} {raw : List Char} {value : Value}
    (read : interpret key raw = .ok value) (problem : Template.Problem) : ¬ Refused raw problem := by
  intro refused
  rw [interpret_eq_error.mpr ⟨problem, refused, rfl⟩] at read
  cases read

section Collect

variable {fields result : Fields} {entries : List (List Char × List Char)}

theorem collect_tidied (entry : List Char × List Char) (rest : List (List Char × List Char)) :
    collect fields (entry :: rest) =
      interpret (tidied entry).1 (tidied entry).2 >>= fun value =>
        collect (fields.insert (tidied entry).1 value) rest := rfl

/-- The first value that is refused ends the collecting. -/
theorem collect_eq_error {error : Error} : collect fields entries = .error error ↔
    ∃ front key raw rest problem, entries.map tidied = front ++ (key, raw) :: rest ∧ Refused raw problem ∧
      (∀ earlier ∈ front, ∀ problem, ¬ Refused earlier.2 problem) ∧ error = .invalidValue key problem := by
  induction entries generalizing fields with
  | nil => simp [collect]
  | cons entry entries ih =>
      rw [collect_tidied, bind_eq_error, interpret_eq_error, List.map_cons]
      constructor
      · rintro (⟨problem, refused, rfl⟩ | ⟨value, read, failed⟩)
        · exact ⟨[], _, _, _, problem, rfl, refused, by simp, rfl⟩
        · obtain ⟨front, key, raw, rest, problem, same, refused, earlier, rfl⟩ := ih.mp failed
          refine ⟨tidied entry :: front, key, raw, rest, problem, by rw [same]; rfl, refused, ?_, rfl⟩
          rw [List.forall_mem_cons]
          exact ⟨not_refused_of_interpret read, earlier⟩
      · rintro ⟨_ | ⟨first, front⟩, key, raw, rest, problem, same, refused, earlier, rfl⟩
        · obtain ⟨here, -⟩ := List.cons.inj same
          rw [here]
          exact .inl ⟨problem, refused, rfl⟩
        · obtain ⟨rfl, behind⟩ := List.cons.inj same
          rw [List.forall_mem_cons] at earlier
          obtain ⟨value, read⟩ := exists_interpret (tidied entry).1 earlier.1
          exact .inr ⟨value, read, ih.mpr ⟨front, key, raw, rest, problem, behind, refused, earlier.2, rfl⟩⟩

theorem accepted_of_collect (collected : collect fields entries = .ok result) :
    ∀ entry ∈ entries.map tidied, ∀ problem, ¬ Refused entry.2 problem := by
  induction entries generalizing fields with
  | nil => simp
  | cons entry entries ih =>
      rw [collect_tidied] at collected
      obtain ⟨value, read, collected⟩ := bind_eq_ok.mp collected
      rw [List.map_cons, List.forall_mem_cons]
      exact ⟨not_refused_of_interpret read, ih collected⟩

theorem ordered_collect (ordered : fields.Ordered) (collected : collect fields entries = .ok result) :
    result.Ordered := by
  induction entries generalizing fields with
  | nil =>
      cases collected
      exact ordered
  | cons entry entries ih =>
      rw [collect_tidied] at collected
      obtain ⟨value, -, collected⟩ := bind_eq_ok.mp collected
      exact ih (ordered.insert _ _) collected

/-- A key has the value of its last entry, or else the one that it had before. -/
theorem get?_collect (collected : collect fields entries = .ok result) (key : String) (value : Value) :
    result.get? key = some value ↔
      (∃ raw, LastOf (entries.map tidied) key raw ∧ interpret key raw = .ok value) ∨
        (∀ entry ∈ entries.map tidied, entry.1 ≠ key) ∧ fields.get? key = some value := by
  induction entries generalizing fields with
  | nil =>
      cases collected
      simp [not_lastOf_nil]
  | cons entry entries ih =>
      rw [collect_tidied] at collected
      obtain ⟨found, read, collected⟩ := bind_eq_ok.mp collected
      rw [ih collected, Fields.get?_insert, List.map_cons]
      generalize tidied entry = first at read
      obtain ⟨name, raw⟩ := first
      simp only [lastOf_cons, List.forall_mem_cons, Prod.mk.injEq]
      by_cases same : key = name
      · subst same
        rw [if_pos rfl]
        constructor
        · rintro (⟨raw', last, read'⟩ | ⟨last, here⟩)
          · exact .inl ⟨raw', .inl last, read'⟩
          · cases here
            exact .inl ⟨raw, .inr ⟨⟨rfl, rfl⟩, last⟩, read⟩
        · rintro (⟨raw', last | ⟨⟨-, rfl⟩, last⟩, read'⟩ | ⟨⟨apart, -⟩, -⟩)
          · exact .inl ⟨raw', last, read'⟩
          · cases read.symm.trans read'
            exact .inr ⟨last, rfl⟩
          · exact absurd rfl apart
      · have apart : name ≠ key := Ne.symm same
        simp [same, apart]

end Collect

/-- Front matter is read line by line. A line that begins with a key and a colon begins an entry, which goes
on up to the next such line. The first entry that looks like a literal and is none is the error; where there
is no such entry, each key has what its last entry means. -/
theorem parse_reads_lines (source : String) :
    (∀ error, parse source = .error error ↔
      ∃ front key raw rest problem,
        entriesOfLines (lines source.toList) = front ++ (key, raw) :: rest ∧ Refused raw problem ∧
          (∀ earlier ∈ front, ∀ problem, ¬ Refused earlier.2 problem) ∧
            error = .invalidValue key problem) ∧
    (∀ fields, parse source = .ok fields ↔
      (∀ entry ∈ entriesOfLines (lines source.toList), ∀ problem, ¬ Refused entry.2 problem) ∧
        fields.Ordered ∧
          ∀ key value, fields.get? key = some value ↔
            ∃ raw, LastOf (entriesOfLines (lines source.toList)) key raw ∧
              interpret key raw = .ok value) := by
  have refused_iff : ∀ error, parse source = .error error ↔ _ := fun _ => collect_eq_error
  have value_iff {fields : Fields} (collected : parse source = .ok fields) (key : String) (value : Value) :
      fields.get? key = some value ↔
        ∃ raw, LastOf ((entries source.toList).map tidied) key raw ∧ interpret key raw = .ok value := by
    rw [get?_collect collected]
    simp [Fields.get?]
  rw [← entries_lines]
  refine ⟨refused_iff, fun fields => ⟨fun collected => ?_, ?_⟩⟩
  · exact ⟨accepted_of_collect collected, ordered_collect .nil collected, value_iff collected⟩
  · rintro ⟨accepted, ordered, values⟩
    cases collected : parse source with
    | error error =>
        obtain ⟨front, key, raw, rest, problem, same, refused, -⟩ := (refused_iff error).mp collected
        exact absurd refused (accepted (key, raw) (by simp [same]) problem)
    | ok found =>
        congr 1
        apply (ordered_collect .nil collected).ext ordered
        intro key
        apply Option.ext
        intro value
        rw [values, value_iff collected]

end StaticSite.FrontMatter
