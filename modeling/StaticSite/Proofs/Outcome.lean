/-!
The outcomes of computations that may fail, by themselves and one after the other.
-/

namespace StaticSite

variable {ε α β : Type}

theorem bind_eq_ok {x : Except ε α} {next : α → Except ε β} {result : β} :
    (x >>= next) = .ok result ↔ ∃ value, x = .ok value ∧ next value = .ok result := by
  cases x <;> simp [bind, Except.bind]

theorem bind_eq_error {x : Except ε α} {next : α → Except ε β} {error : ε} :
    (x >>= next) = .error error ↔ x = .error error ∨ ∃ value, x = .ok value ∧ next value = .error error := by
  cases x <;> simp [bind, Except.bind]

theorem toOption_bind (x : Except ε α) (next : α → Except ε β) :
    (x >>= next).toOption = x.toOption.bind fun value => (next value).toOption := by
  cases x <;> rfl

theorem eq_ok_of_toOption {x : Except ε α} {value : α} (found : x.toOption = some value) : x = .ok value := by
  cases x with
  | error error => cases found
  | ok other => cases found; rfl

end StaticSite
