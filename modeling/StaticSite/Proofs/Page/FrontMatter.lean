import StaticSite.Page.FrontMatter
import StaticSite.Proofs.Template.Literal

/-!
Front matter with an entry on each line, a key and the compact text of its value, is read as those
entries. The text of a value holds no line feed, so a value ends at the one before the next key.
-/

namespace StaticSite.FrontMatter

open Json (Value Fields)

/-- Whether a name can be written as a key. -/
def isKey (name : String) : Bool := !name.toList.isEmpty && name.toList.all isKeyChar

/-- Whether a value can be written behind a key: an integer of 64 bits with a sign, or a literal that
begins like one. -/
def isEntryValue : Value → Bool
  | .number (.int n) => -Nat.pow 2 63 ≤ n && n < Nat.pow 2 63
  | .string _ => true
  | .array items => (Value.array items).isLiteral
  | .object members => (Value.object members).isLiteral
  | _ => false

/-- Whether fields are the entries of some front matter. -/
def areEntries (fields : Fields) : Bool := fields.all fun field => isKey field.1 && isEntryValue field.2

theorem areEntries_cons {first : String × Value} {rest : Fields} : areEntries (first :: rest) = true ↔
    (isKey first.1 = true ∧ isEntryValue first.2 = true) ∧ areEntries rest = true := by
  simp only [areEntries, List.all_cons, Bool.and_eq_true]

theorem areEntries_of_perm {entries fields : Fields} (valid : areEntries fields = true)
    (order : entries.Perm fields) : areEntries entries = true := by
  rw [areEntries, List.all_eq_true] at valid ⊢
  exact fun field member => valid field (order.mem_iff.mp member)

/-- The line of an entry, without its line feed. -/
def printEntry (field : String × Value) : List Char :=
  field.1.toList ++ ':' :: ' ' :: field.2.printChars

/-- The lines of entries, each behind a line feed. -/
def printLines (fields : Fields) : List Char := fields.flatMap fun field => '\n' :: printEntry field

theorem isBlank_of_mem_printInt {c : Char} {n : Int} (member : c ∈ Json.printInt n) :
    Text.isBlank c = false := by
  rcases Json.mem_printInt member with rfl | digit
  · rfl
  · simp only [Decimal.isDigit, Bool.and_eq_true, decide_eq_true_eq, Char.le_def, UInt32.le_iff_toNat_le,
      Char.reduceVal, UInt32.reduceToNat] at digit
    change 48 ≤ c.toNat ∧ c.toNat ≤ 57 at digit
    simp only [Text.isBlank, Bool.or_eq_false_iff, Bool.and_eq_false_iff, decide_eq_false_iff_not,
      beq_eq_false_iff_ne]
    omega

variable {key : String} {value : Value}

/-- The value of an entry is an integer, or a literal between quotes, brackets or braces. -/
theorem entryValue_cases (entry : isEntryValue value = true) :
    (∃ n, value = .number (.int n)) ∨
      value.isLiteral = true ∧ beginsLiteral value.printChars = true ∧ Text.Trimmed value.printChars := by
  cases value with
  | null => cases entry
  | bool b => cases entry
  | string s => exact .inr ⟨rfl, rfl, .between rfl rfl _⟩
  | array items => exact .inr ⟨entry, rfl, .between rfl rfl _⟩
  | object members => exact .inr ⟨entry, rfl, .between rfl rfl _⟩
  | number n =>
      cases n with
      | float f => cases entry
      | int n => exact .inl ⟨n, rfl⟩

theorem trimmed_printChars (entry : isEntryValue value = true) : Text.Trimmed value.printChars := by
  rcases entryValue_cases entry with ⟨n, rfl⟩ | ⟨_, _, trimmed⟩
  · exact .of_forall (Json.printInt_ne_nil n) fun c member => isBlank_of_mem_printInt member
  · exact trimmed

theorem lineFeed_not_mem_entry (entry : isEntryValue value = true) : '\n' ∉ value.printChars := by
  rcases entryValue_cases entry with ⟨n, rfl⟩ | ⟨literal, _, _⟩
  · intro member
    cases isBlank_of_mem_printInt member
  · exact Json.lineFeed_not_mem_printChars _ literal

theorem interpret_printInt (key : String) {n : Int} (entry : isEntryValue (.number (.int n)) = true) :
    interpret key (Json.printInt n) = .ok (.number (.int n)) := by
  have plain : beginsLiteral (Json.printInt n) = false := by
    cases chars : Json.printInt n with
    | nil => rfl
    | cons c more =>
        have begins : c = '-' ∨ Decimal.isDigit c = true := Json.mem_printInt (by rw [chars]; simp)
        have different (d : Char) (other : Decimal.isDigit d = false) (notMinus : d ≠ '-') :
            (c == d) = false := by
          refine beq_eq_false_iff_ne.mpr ?_
          intro same
          subst same
          rcases begins with same | digit
          · exact notMinus same
          · rw [digit] at other
            cases other
        simp only [beginsLiteral, different '"' rfl (by decide), different '\'' rfl (by decide),
          different '[' rfl (by decide), different '\x7b' rfl (by decide), Bool.or_self]
  have whole : integer? (Json.printInt n) = some n := by
    rw [integer?, Decimal.readInt?_printInt]
    exact Option.filter_some_pos entry
  simp only [interpret, plain, Bool.false_eq_true, if_false, number?, whole]

theorem interpret_printChars (key : String) (entry : isEntryValue value = true) :
    interpret key value.printChars = .ok value := by
  rcases entryValue_cases entry with ⟨n, rfl⟩ | ⟨literal, begins, _⟩
  · exact interpret_printInt key entry
  · rw [interpret, if_pos begins, Template.parseLiteral_printChars literal]

theorem interpret_trim (key : String) (entry : isEntryValue value = true) (after : List Char)
    (blank : ∀ c ∈ after, Text.isBlank c = true) :
    interpret key (Text.trim (' ' :: (value.printChars ++ after))) = .ok value := by
  have trimmed := (trimmed_printChars entry).trim_eq [' '] after (by simp [Text.isBlank]) blank
  rw [List.singleton_append] at trimmed
  rw [trimmed]
  exact interpret_printChars key entry

theorem key?_append {name : List Char} (nonempty : name ≠ []) (all : ∀ c ∈ name, isKeyChar c = true)
    (rest : List Char) : key? (name ++ ':' :: rest) = some (name, rest) := by
  have ends : ∀ c ∈ (':' :: rest).head?, isKeyChar c = false := by
    intro c head
    cases head
    rfl
  have behind := Text.dropWhile_append_of_head all ends
  have front := Text.takeWhile_append_of_head all ends
  simp [key?, behind, front, nonempty]

theorem key?_printEntry {field : String × Value} (named : isKey field.1 = true) (rest : List Char) :
    key? (printEntry field ++ rest) = some (field.1.toList, ' ' :: (field.2.printChars ++ rest)) := by
  simp only [isKey, Bool.and_eq_true, Bool.not_eq_true', List.isEmpty_eq_false_iff,
    List.all_eq_true] at named
  simp only [printEntry, List.append_assoc, List.cons_append]
  exact key?_append named.1 named.2 _

theorem cutAtKey_append_of_not_mem {line : List Char} (single : '\n' ∉ line) (rest : List Char) :
    cutAtKey (line ++ rest) = (line ++ (cutAtKey rest).1, (cutAtKey rest).2) := by
  induction line with
  | nil => rfl
  | cons c line ih =>
      rw [List.mem_cons, not_or] at single
      have other : ¬ c = '\n' := fun same => single.1 same.symm
      simp only [List.cons_append, cutAtKey, other, decide_false, Bool.false_and, Bool.false_eq_true,
        if_false, ih single.2]

theorem cutAtKey_lineFeed {rest : List Char} (begins : (key? rest).isSome = true) :
    cutAtKey ('\n' :: rest) = (['\n'], rest) := by
  simp only [cutAtKey, begins, decide_true, Bool.and_self, if_true]

theorem entriesFrom_of_key? {text name rest : List Char} (found : key? text = some (name, rest)) :
    entriesFrom text = (name, (cutAtKey rest).1) :: entriesFrom (cutAtKey rest).2 := by
  rw [entriesFrom]
  split
  · rename_i none_
    rw [found] at none_
    cases none_
  · rename_i some_
    rw [found] at some_
    cases some_
    rfl

theorem entriesFrom_nil : entriesFrom [] = [] := by
  rw [entriesFrom]
  rfl

theorem printLines_cons (field : String × Value) (rest : Fields) :
    printLines (field :: rest) = '\n' :: (printEntry field ++ printLines rest) := rfl

theorem collect_cons {name raw : List Char} {fields : Fields} (rest : List (List Char × List Char))
    (means : interpret (String.ofList name) (Text.trim raw) = .ok value) :
    collect fields ((name, raw) :: rest) = collect (fields.insert (String.ofList name) value) rest := by
  simp only [collect, means, bind, Except.bind]

/-- Entries on lines of their own are put in one after the other. -/
theorem collect_printLines (rest : Fields) {first : String × Value} (fields : Fields)
    (valid : areEntries (first :: rest) = true) :
    collect fields (entriesFrom (printEntry first ++ printLines rest)) =
      .ok (fields.overriddenBy (first :: rest)) := by
  induction rest generalizing first fields with
  | nil =>
      obtain ⟨⟨named, entry⟩, -⟩ := areEntries_cons.mp valid
      have single : '\n' ∉ ' ' :: first.2.printChars := by simp [lineFeed_not_mem_entry entry]
      have cut := cutAtKey_append_of_not_mem single []
      have found := key?_printEntry named []
      have means := interpret_trim first.1 entry [] (by simp)
      rw [List.append_nil] at cut means
      rw [List.append_nil, List.append_nil] at found
      rw [← String.ofList_toList (s := first.1)] at means
      rw [show printLines [] = [] from rfl, List.append_nil, entriesFrom_of_key? found, cut]
      simp only [cutAtKey, List.append_nil, entriesFrom_nil]
      rw [collect_cons [] means, String.ofList_toList]
      rfl
  | cons next rest ih =>
      obtain ⟨⟨named, entry⟩, others⟩ := areEntries_cons.mp valid
      obtain ⟨⟨nextNamed, -⟩, -⟩ := areEntries_cons.mp others
      have single : '\n' ∉ ' ' :: first.2.printChars := by simp [lineFeed_not_mem_entry entry]
      have begins : (key? (printEntry next ++ printLines rest)).isSome = true := by
        rw [key?_printEntry nextNamed]
        rfl
      have cut := cutAtKey_append_of_not_mem single (printLines (next :: rest))
      rw [printLines_cons, cutAtKey_lineFeed begins] at cut
      have found := key?_printEntry named (printLines (next :: rest))
      have means := interpret_trim first.1 entry ['\n'] (by simp [Text.isBlank])
      rw [← String.ofList_toList (s := first.1)] at means
      rw [entriesFrom_of_key? found, printLines_cons, ← List.cons_append, cut, List.cons_append]
      rw [collect_cons _ means, String.ofList_toList]
      exact ih _ others

/-- Front matter with an entry on each line gives the fields that were written, in whatever order. -/
theorem parse_printLines {fields entries : Fields} (ordered : fields.Ordered)
    (valid : areEntries fields = true) (order : entries.Perm fields) :
    parse (String.ofList (printLines entries).tail) = .ok fields := by
  rw [← Fields.ofList_of_perm ordered order]
  have valid := areEntries_of_perm valid order
  unfold parse FrontMatter.entries
  rw [String.toList_ofList]
  cases entries with
  | nil =>
      have none_ : key? [] = none := rfl
      simp only [printLines, List.flatMap_nil, List.tail_nil, none_, cutAtKey, entriesFrom_nil]
      rfl
  | cons first rest =>
      obtain ⟨⟨named, -⟩, -⟩ := areEntries_cons.mp valid
      rw [printLines_cons, List.tail_cons, key?_printEntry named, Option.isSome_some, if_pos rfl]
      exact collect_printLines rest [] valid

end StaticSite.FrontMatter
