import Mathlib.Tactic.Common
import StaticSite.Text.Markup

/-!
Escaped text holds no character with a meaning in markup except where an entity begins, and the
characters that the entities stand for can be put back.
-/

namespace StaticSite.Text

def entities : List String := ["&amp;", "&lt;", "&gt;", "&#34;", "&#39;"]

/-- The text with each of the five entities replaced by its character. -/
def unescape : List Char → List Char
  | '&' :: 'a' :: 'm' :: 'p' :: ';' :: rest => '&' :: unescape rest
  | '&' :: 'l' :: 't' :: ';' :: rest => '<' :: unescape rest
  | '&' :: 'g' :: 't' :: ';' :: rest => '>' :: unescape rest
  | '&' :: '#' :: '3' :: '4' :: ';' :: rest => '"' :: unescape rest
  | '&' :: '#' :: '3' :: '9' :: ';' :: rest => '\'' :: unescape rest
  | c :: rest => c :: unescape rest
  | [] => []

def unescapeMarkup (text : String) : String := String.ofList (unescape text.toList)

/-- A text that no reader of markup can take for anything but text. -/
structure Harmless (text : String) : Prop where
  plain : ∀ c ∈ text.toList, c ∉ ['<', '>', '"', '\'']
  entity : ∀ before rest, text.toList = before ++ '&' :: rest →
    ∃ entity ∈ entities, entity.toList <+: '&' :: rest

theorem escapeChar_cases (c : Char) :
    escapeChar c = [c] ∧ c ∉ ['&', '<', '>', '"', '\''] ∨
      ∃ entity ∈ entities, escapeChar c = entity.toList := by
  unfold escapeChar
  split
  case h_6 =>
    refine .inl ⟨rfl, ?_⟩
    simp_all
  all_goals exact .inr (by simp [entities])

theorem unescape_cons {c : Char} (plain : c ≠ '&') (rest : List Char) :
    unescape (c :: rest) = c :: unescape rest := by
  conv_lhs => unfold unescape
  split <;> simp_all

theorem unescape_escapeChar (c : Char) (rest : List Char) :
    unescape (escapeChar c ++ rest) = c :: unescape rest := by
  unfold escapeChar
  split
  case h_6 different _ _ _ _ => exact unescape_cons different rest
  all_goals rfl

theorem unescapeMarkup_escapeMarkup (text : String) : unescapeMarkup (escapeMarkup text) = text := by
  have undone (chars : List Char) : unescape (chars.flatMap escapeChar) = chars := by
    induction chars with
    | nil => rfl
    | cons c rest ih => rw [List.flatMap_cons, unescape_escapeChar, ih]
  rw [unescapeMarkup, escapeMarkup, String.toList_ofList, undone, String.ofList_toList]

theorem plain_of_mem_entity {entity : String} (member : entity ∈ entities) {c : Char}
    (inside : c ∈ entity.toList) : c ∉ ['<', '>', '"', '\''] := by
  have plain : entities.all fun entity => entity.toList.all (· ∉ ['<', '>', '"', '\'']) := by decide
  have plain := List.all_eq_true.mp (List.all_eq_true.mp plain entity member) c inside
  exact of_decide_eq_true plain

theorem ampersand_not_mem_tail {entity : String} (member : entity ∈ entities) :
    '&' ∉ entity.toList.tail := by
  have absent : entities.all ('&' ∉ ·.toList.tail) := by decide
  exact of_decide_eq_true (List.all_eq_true.mp absent entity member)

/-- An ampersand in an entity stands at its beginning. -/
theorem nil_of_entity_eq {entity : String} (member : entity ∈ entities) {before rest : List Char}
    (split : entity.toList = before ++ '&' :: rest) : before = [] := by
  cases before with
  | nil => rfl
  | cons c before =>
      have absent := ampersand_not_mem_tail member
      rw [split, List.cons_append, List.tail_cons] at absent
      exact absurd (List.mem_append_right before (List.mem_cons_self ..)) absent

theorem entity_of_ampersand {chars before rest : List Char}
    (split : chars.flatMap escapeChar = before ++ '&' :: rest) :
    ∃ entity ∈ entities, entity.toList <+: '&' :: rest := by
  induction chars generalizing before with
  | nil => cases before <;> simp at split
  | cons c chars ih =>
      rw [List.flatMap_cons] at split
      rcases List.append_eq_append_iff.mp split with ⟨between, rfl, others⟩ | ⟨between, escaped, others⟩
      · exact ih others
      · cases between with
        | nil =>
            have beginning : chars.flatMap escapeChar = [] ++ '&' :: rest := others.symm
            exact ih beginning
        | cons first between =>
            obtain ⟨rfl, rfl⟩ : first = '&' ∧ between ++ chars.flatMap escapeChar = rest := by
              simpa [eq_comm] using others
            rcases escapeChar_cases c with ⟨single, plain⟩ | ⟨entity, member, same⟩
            · have inside : '&' ∈ escapeChar c := by rw [escaped]; simp
              rw [single, List.mem_singleton] at inside
              exact absurd (by simp [← inside]) plain
            · refine ⟨entity, member, ?_⟩
              rw [same] at escaped
              have start := nil_of_entity_eq member escaped
              rw [escaped, start]
              exact ⟨_, rfl⟩

theorem harmless_escapeMarkup (text : String) : Harmless (escapeMarkup text) where
  plain := by
    intro c member
    rw [escapeMarkup, String.toList_ofList, List.mem_flatMap] at member
    obtain ⟨d, -, inside⟩ := member
    rcases escapeChar_cases d with ⟨single, plain⟩ | ⟨entity, isEntity, same⟩
    · rw [single, List.mem_singleton] at inside
      subst inside
      exact fun bad => plain (List.mem_cons_of_mem _ bad)
    · rw [same] at inside
      exact plain_of_mem_entity isEntity inside
  entity := by
    intro before rest split
    rw [escapeMarkup, String.toList_ofList] at split
    exact entity_of_ampersand split

/-! ## Code -/

/-- The text with each of the three entities of escaped code replaced by its character. -/
def unescapeCodeChars : List Char → List Char
  | '&' :: 'a' :: 'm' :: 'p' :: ';' :: rest => '&' :: unescapeCodeChars rest
  | '&' :: 'l' :: 't' :: ';' :: rest => '<' :: unescapeCodeChars rest
  | '&' :: 'g' :: 't' :: ';' :: rest => '>' :: unescapeCodeChars rest
  | c :: rest => c :: unescapeCodeChars rest
  | [] => []

def unescapeCode (text : String) : String := String.ofList (unescapeCodeChars text.toList)

theorem unescapeCodeChars_cons {c : Char} (plain : c ≠ '&') (rest : List Char) :
    unescapeCodeChars (c :: rest) = c :: unescapeCodeChars rest := by
  conv_lhs => unfold unescapeCodeChars
  split <;> simp_all

theorem unescapeCodeChars_escapeCodeChar (c : Char) (rest : List Char) :
    unescapeCodeChars (escapeCodeChar c ++ rest) = c :: unescapeCodeChars rest := by
  unfold escapeCodeChar
  split
  case h_4 different _ _ => exact unescapeCodeChars_cons different rest
  all_goals rfl

theorem unescapeCode_escapeCode (code : String) : unescapeCode (escapeCode code) = code := by
  have undone (chars : List Char) : unescapeCodeChars (chars.flatMap escapeCodeChar) = chars := by
    induction chars with
    | nil => rfl
    | cons c rest ih => rw [List.flatMap_cons, unescapeCodeChars_escapeCodeChar, ih]
  rw [unescapeCode, escapeCode, String.toList_ofList, undone, String.ofList_toList]

end StaticSite.Text
