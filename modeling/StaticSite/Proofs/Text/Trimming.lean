import Mathlib.Data.List.TakeWhile
import StaticSite.Text.Blank

/-!
Runs of characters of one kind, and trimming text of the blanks around it.
-/

namespace StaticSite.Text

/-- Characters of one kind are taken up to text that does not begin with one. -/
theorem takeWhile_append_of_head {p : Char → Bool} {part rest : List Char} (all : ∀ c ∈ part, p c = true)
    (ends : ∀ c ∈ rest.head?, p c = false) : (part ++ rest).takeWhile p = part := by
  rw [List.takeWhile_append_of_pos all]
  cases rest with
  | nil => simp
  | cons c rest => simp [ends c rfl]

theorem dropWhile_append_of_head {p : Char → Bool} {part rest : List Char} (all : ∀ c ∈ part, p c = true)
    (ends : ∀ c ∈ rest.head?, p c = false) : (part ++ rest).dropWhile p = rest := by
  rw [List.dropWhile_append_of_pos all]
  cases rest with
  | nil => rfl
  | cons c rest => simp [ends c rfl]

/-- Text that begins and ends in characters that are not blank. -/
structure Trimmed (text : List Char) : Prop where
  nonempty : text ≠ []
  begins : ∀ c ∈ text.head?, isBlank c = false
  ends : ∀ c ∈ text.getLast?, isBlank c = false

theorem Trimmed.between {first last : Char} (begins : isBlank first = false) (ends : isBlank last = false)
    (middle : List Char) : Trimmed (first :: (middle ++ [last])) := by
  refine ⟨List.cons_ne_nil _ _, ?_, ?_⟩
  · intro c head
    cases head
    exact begins
  · rw [← List.cons_append, List.getLast?_concat]
    intro c head
    cases head
    exact ends

theorem Trimmed.of_forall {text : List Char} (nonempty : text ≠ []) (all : ∀ c ∈ text, isBlank c = false) :
    Trimmed text :=
  ⟨nonempty, fun c head => all c (List.mem_of_mem_head? head),
    fun c last => all c (List.mem_of_mem_getLast? last)⟩

theorem Trimmed.trim_eq {text : List Char} (trimmed : Trimmed text) (before after : List Char)
    (blankBefore : ∀ c ∈ before, isBlank c = true) (blankAfter : ∀ c ∈ after, isBlank c = true) :
    trim (before ++ (text ++ after)) = text := by
  have head : (text ++ after).head? = text.head? := by
    cases text with
    | nil => exact absurd rfl trimmed.nonempty
    | cons c text => rfl
  have left : trimLeft (before ++ (text ++ after)) = text ++ after :=
    dropWhile_append_of_head blankBefore (by rw [head]; exact trimmed.begins)
  have right : ((text ++ after).reverse).dropWhile isBlank = text.reverse := by
    rw [List.reverse_append]
    refine dropWhile_append_of_head (fun c member => blankAfter c (List.mem_reverse.mp member)) ?_
    rw [List.head?_reverse]
    exact trimmed.ends
  rw [trim, left, trimRight, right, List.reverse_reverse]

theorem trim_append_of_blank (text : List Char) {after : List Char} (blank : ∀ c ∈ after, isBlank c = true) :
    trim (text ++ after) = trim text := by
  have nothing : trimLeft after = [] := List.dropWhile_eq_nil_iff.mpr blank
  have reversed : ∀ c ∈ after.reverse, isBlank c = true := fun c member =>
    blank c (List.mem_reverse.mp member)
  cases left : trimLeft text with
  | nil =>
      have whole : trimLeft (text ++ after) = [] := by
        rw [trimLeft] at left
        rw [trimLeft, List.dropWhile_append, left]
        exact nothing
      rw [trim, trim, left, whole]
  | cons c more =>
      have whole : trimLeft (text ++ after) = c :: more ++ after := by
        rw [trimLeft] at left
        rw [trimLeft, List.dropWhile_append, left]
        rfl
      rw [trim, trim, left, whole, trimRight, List.reverse_append, List.dropWhile_append_of_pos reversed]
      rfl

end StaticSite.Text
