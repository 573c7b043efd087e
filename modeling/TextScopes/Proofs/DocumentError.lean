import TextScopes.DocumentError

/-!
# Documents that are read

A document is read in steps, and the first that fails refuses it. So of a document that is read
every step has given something.
-/

namespace TextScopes.DocumentError

variable {α β : Type}

/-- Reading that goes on and succeeds has succeeded before. -/
theorem exists_of_bind_eq_ok {x : Except DocumentError α}
    {f : α → Except DocumentError β} {b : β}
    (h : (x >>= f) = .ok b) : ∃ a, x = .ok a ∧ f a = .ok b := by
  cases x with
  | error e => cases h
  | ok a => exact ⟨a, rfl, h⟩

/-- What is required is there. -/
theorem require_eq_ok {key : String} {field : Option α} {a : α} :
    require key field = .ok a ↔ field = some a := by
  cases field <;> simp [require]

end TextScopes.DocumentError
