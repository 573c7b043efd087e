import TextScopes.Table
import TextScopes.Json.Value
import TextScopes.Decimal.Reading

/-!
# Names of captured groups

A rule may name groups of its match by their numbers. A document writes them as an object
whose keys are decimal numbers and whose values are objects with a name; fields of
another form are passed over.
-/

namespace TextScopes

/-- Scope names by group number (`CaptureCollection`). -/
abbrev Captures := Table Nat String

namespace Captures

/-- The numbers of groups lie below this. -/
def numberBound : Nat := UInt64.size

/-- The group number that a key writes: decimal digits, a plus sign allowed before them. -/
def number? (key : String) : Option Nat := do
  let digits := match key.toList with
    | '+' :: rest => rest
    | cs => cs
  let n ← Decimal.natural? digits
  if n < numberBound then some n else none

/-- The group number and the name that a field of a document gives. -/
def ofField? (field : String × Json.Value) : Option (Nat × String) := do
  let n ← number? field.1
  let name ← (← field.2.get? "name").asString?
  return (n, name)

/-- The names that the fields of a document give (`from_map`); of two fields for one
group the later counts. -/
def ofFields (fields : List (String × Json.Value)) : Captures :=
  Table.ofList (fields.filterMap ofField?)

end Captures

end TextScopes
