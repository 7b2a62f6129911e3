import Mathlib
import StaticSite.Template.Functions

/-!
Two texts of an array. What `join` makes of an array and what is printed of it have the same texts between the same
commas, but for one kind of item: a null is printed as nothing, and `join` writes its name.
-/

namespace StaticSite.Template

open Json (Value)

variable {α : Type} {items : List Value}

/-- The text of an item when its array is printed. -/
def itemText : Value → String
  | .null => ""
  | item => toText item

theorem itemTexts_eq_map (items : List Value) : itemTexts items = items.map itemText := by
  induction items with
  | nil => rfl
  | cons item rest ih => cases item <;> simp only [itemTexts, itemText, List.map_cons, ih]

theorem toText_array (items : List Value) : toText (.array items) = ",".intercalate (items.map itemText) := by
  rw [toText, itemTexts_eq_map]

theorem joinItems_array (items : List Value) :
    joinItems [.array items] = .ok (.string (",".intercalate (items.map toText))) := rfl

/-- An item with its name for a null. -/
def named : Value → Value
  | .null => .string "null"
  | item => item

theorem itemText_named (item : Value) : itemText (named item) = toText item := by cases item <;> rfl

/-- The array that prints as `join` writes the given one. -/
theorem toText_map_named (items : List Value) :
    toText (.array (items.map named)) = ",".intercalate (items.map toText) := by
  rw [toText_array, List.map_map]
  exact congrArg _ (List.map_congr_left fun item _ => itemText_named item)

theorem length_intercalate_map (separator : String) {text longer : α → String} {extra : α → Nat}
    (lengths : ∀ a, (longer a).length = (text a).length + extra a) (as : List α) :
    (separator.intercalate (as.map longer)).length =
      (separator.intercalate (as.map text)).length + (as.map extra).sum := by
  simp only [← String.length_toList] at lengths
  simp only [← String.length_toList, String.toList_intercalate, List.map_map]
  induction as with
  | nil => rfl
  | cons a rest ih =>
      cases rest with
      | nil => simp [lengths]
      | cons next others =>
          simp only [List.map_cons, List.intercalate_cons_cons, List.length_append, List.sum_cons,
            Function.comp_apply, lengths] at ih ⊢
          omega

/-- The characters that `join` writes and printing does not. -/
def extraOf : Value → Nat
  | .null => 4
  | _ => 0

theorem length_toText (item : Value) : (toText item).length = (itemText item).length + extraOf item := by
  cases item <;> rfl

theorem extraOf_eq_zero_iff {item : Value} : extraOf item = 0 ↔ item ≠ .null := by
  cases item <;> simp [extraOf]

/-- What is joined is what is printed exactly if no item is null. -/
theorem joined_eq_printed_iff :
    ",".intercalate (items.map toText) = toText (.array items) ↔ Value.null ∉ items := by
  rw [toText_array]
  constructor
  · intro same member
    have lengths := length_intercalate_map "," length_toText items
    rw [same] at lengths
    have none_extra : (items.map extraOf).sum = 0 := by omega
    exact extraOf_eq_zero_iff.mp (List.sum_eq_zero_iff_forall_eq_nat.mp none_extra _ (List.mem_map_of_mem member)) rfl
  · intro absent
    refine congrArg _ (List.map_congr_left fun item member => ?_)
    cases item with
    | null => exact absurd member absent
    | _ => rfl

/-- What `join` writes: the texts of the items with the separator between them, which by default is what is printed of
the array with names for its nulls, and so what is printed of the array itself exactly if none of its own items is
null. -/
theorem join_writes_items (items : List Value) :
    ∃ join, standardFunction? "join" = some join ∧
      join [.array items] = .ok (.string (toText (.array (items.map named)))) ∧
      join [.array items] = .ok (.string (",".intercalate (items.map toText))) ∧
      (join [.array items] = .ok (.string (toText (.array items))) ↔ Value.null ∉ items) ∧
      ∀ separator more, join (.array items :: separator :: more) =
        .ok (.string ((toText separator).intercalate (items.map toText))) := by
  refine ⟨joinItems, rfl, ?_, joinItems_array items, ?_, fun separator more => rfl⟩
  · rw [toText_map_named, joinItems_array]
  · rw [joinItems_array, ← joined_eq_printed_iff]
    simp

/-- A null is printed as nothing, and joined as its name. -/
theorem join_names_null :
    ¬ ∀ items, joinItems [.array items] = .ok (.string (toText (.array items))) := by
  intro agree
  have empty := agree [.null]
  rw [joinItems_array, Except.ok.injEq, Value.string.injEq, joined_eq_printed_iff] at empty
  exact empty (by simp)

end StaticSite.Template
