import TextScopes.Span
import TextScopes.Theme.Attributes

/-!
# Scopes

A scope names a span of a text and may carry the display attributes that a theme gives it. Two
scopes are the same when name and span are; what they carry does not count.
-/

namespace TextScopes

/-- A named span of a text. -/
structure Scope where
  name : String
  span : Span
  /-- The display attributes attached to the scope. -/
  attributes : Option Attributes
  deriving DecidableEq, Inhabited, Repr

namespace Scope

/-- The name of the scope that spans a whole text. -/
def globalName : String := "GLOBAL"

/-- A scope with nothing attached. -/
def plain (name : String) (span : Span) : Scope := ⟨name, span, none⟩

/-- The scope that spans a whole text of `length` bytes. -/
def spanning (length : Nat) : Scope := plain globalName ⟨0, length⟩

/-- Whether two scopes have the same name and span (`eq`). -/
def same (a b : Scope) : Bool := a.name = b.name && a.span = b.span

/-- The scope over another span. -/
def withSpan (scope : Scope) (span : Span) : Scope := { scope with span := span }

theorem same_iff (a b : Scope) : a.same b = true ↔ a.name = b.name ∧ a.span = b.span := by
  simp [same]

end Scope

end TextScopes
