import Mathlib.Data.List.DropRight
import StaticSite.Text.Blank
import StaticSite.Text.Location

/-!
Lines and columns read off the text before a place, without an index of lines.
-/

namespace StaticSite.Text

/-- The place right behind a text: its line feeds and the bytes since the last of them, counted from
one. -/
def Location.behind (before : List Char) : Location :=
  { line := 1 + before.count '\n', column := 1 + byteLength (before.rtakeWhile (· != '\n')) }

/-- A byte offset between two characters of a text, or at one of its ends. -/
def Boundary (text : List Char) (position : Nat) : Prop :=
  ∃ before, before <+: text ∧ byteLength before = position

theorem Boundary.le {text : List Char} {position : Nat} (boundary : Boundary text position) :
    position ≤ byteLength text := by
  obtain ⟨before, ⟨behind, rfl⟩, rfl⟩ := boundary
  rw [byteLength_append]
  exact Nat.le_add_right _ _

theorem boundary_start (text : List Char) : Boundary text 0 := ⟨[], List.nil_prefix, rfl⟩

theorem boundary_end (text : List Char) : Boundary text (byteLength text) :=
  ⟨text, List.prefix_rfl, rfl⟩

theorem Boundary.append {rest : List Char} {position : Nat} (boundary : Boundary rest position)
    (front : List Char) : Boundary (front ++ rest) (byteLength front + position) := by
  obtain ⟨before, leads, rfl⟩ := boundary
  exact ⟨front ++ before, (List.prefix_append_right_inj front).mpr leads, byteLength_append front before⟩

/-- Boundaries of a part of a text are boundaries of the text. -/
theorem Boundary.within {part : List Char} {position : Nat} (boundary : Boundary part position)
    (before behind : List Char) : Boundary (before ++ part ++ behind) (byteLength before + position) := by
  obtain ⟨front, leads, same⟩ := boundary.append before
  exact ⟨front, leads.trans (List.prefix_append _ behind), same⟩

theorem lineStartsFrom_append (offset : Nat) (left right : List Char) :
    lineStartsFrom offset (left ++ right) =
      lineStartsFrom offset left ++ lineStartsFrom (offset + byteLength left) right := by
  induction left generalizing offset with
  | nil => rfl
  | cons c left ih =>
      simp only [List.cons_append, lineStartsFrom, ih, byteLength_cons, Nat.add_assoc]
      split <;> rfl

theorem lt_of_mem_lineStartsFrom {offset start : Nat} {text : List Char}
    (member : start ∈ lineStartsFrom offset text) : offset < start := by
  induction text generalizing offset with
  | nil => cases member
  | cons c text ih =>
      have wide := c.utf8Size_pos
      have later : start ∈ lineStartsFrom (offset + c.utf8Size) text → offset < start := fun inRest =>
        Nat.lt_trans (Nat.lt_add_of_pos_right wide) (ih inRest)
      simp only [lineStartsFrom] at member
      split at member
      · rcases List.mem_cons.mp member with rfl | member
        · exact Nat.lt_add_of_pos_right wide
        · exact later member
      · exact later member

theorem le_of_mem_lineStartsFrom {offset start : Nat} {text : List Char}
    (member : start ∈ lineStartsFrom offset text) : start ≤ offset + byteLength text := by
  induction text generalizing offset with
  | nil => cases member
  | cons c text ih =>
      have later : start ∈ lineStartsFrom (offset + c.utf8Size) text →
          start ≤ offset + byteLength (c :: text) := fun inRest => by
        have bound := ih inRest
        rwa [Nat.add_assoc] at bound
      simp only [lineStartsFrom] at member
      split at member
      · rcases List.mem_cons.mp member with rfl | member
        · rw [byteLength_cons]
          omega
        · exact later member
      · exact later member

theorem length_lineStartsFrom (offset : Nat) (text : List Char) :
    (lineStartsFrom offset text).length = text.count '\n' := by
  induction text generalizing offset with
  | nil => rfl
  | cons c text ih =>
      simp only [lineStartsFrom, List.count_cons]
      split
      · simp_all
      · simp_all

/-- The bytes since the last line feed are those behind the start of the last line. -/
theorem getLastD_lineStartsFrom (before : List Char) :
    (lineStartsFrom 0 before).getLastD 0 + byteLength (before.rtakeWhile (· != '\n')) =
      byteLength before := by
  induction before using List.reverseRecOn with
  | nil => rfl
  | append_singleton before c ih =>
      rw [lineStartsFrom_append, byteLength_append, Nat.zero_add]
      by_cases feed : c = '\n'
      · simp [lineStartsFrom, feed]
      · simp [lineStartsFrom, feed, ← ih]
        omega

/-- The index of lines finds the place behind any part that a text begins with. -/
theorem locate_behind {text before : List Char} (leads : before <+: text) :
    (LineIndex.ofText text).locate (byteLength before) = Location.behind before := by
  obtain ⟨behind, rfl⟩ := leads
  have held : (lineStartsFrom 0 (before ++ behind)).takeWhile (· ≤ byteLength before) =
      lineStartsFrom 0 before := by
    rw [lineStartsFrom_append, Nat.zero_add]
    have first : ∀ start ∈ lineStartsFrom 0 before, decide (start ≤ byteLength before) = true := by
      intro start member
      simpa using le_of_mem_lineStartsFrom member
    have later : (lineStartsFrom (byteLength before) behind).takeWhile (· ≤ byteLength before) = [] := by
      rw [List.takeWhile_eq_nil_iff]
      intro nonempty
      simpa using lt_of_mem_lineStartsFrom (List.getElem_mem nonempty)
    rw [List.takeWhile_append_of_pos first, later, List.append_nil]
  have last := getLastD_lineStartsFrom before
  simp only [LineIndex.locate, LineIndex.ofText, held, Location.behind, length_lineStartsFrom]
  congr 1 <;> omega

/-- No column is found by going back from a line that begins later. -/
theorem lineStart_le (index : LineIndex) (position : Nat) :
    (index.laterStarts.takeWhile (· ≤ position)).getLastD 0 ≤ position := by
  cases last : (index.laterStarts.takeWhile (· ≤ position)).getLast? with
  | none => simp [List.getLastD_eq_getLast?, last]
  | some start =>
      have held := List.mem_takeWhile_imp (List.mem_of_getLast? last)
      simpa [List.getLastD_eq_getLast?, last] using held

end StaticSite.Text
