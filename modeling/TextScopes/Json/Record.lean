import TextScopes.Json.Value

/-!
# Records written in JSON

A record is written as an object, where unknown keys are passed over, or as an array of its fields
in declaration order, where only trailing fields with a default may be missing and none may be
added. An optional field may be absent or null; a field with a default may be absent but not null.
-/

namespace TextScopes.Json

/-- The fields of a record in declaration order, and how many of them at the front an array has to
hold. -/
structure Shape where
  names : List String
  required : Nat

/-- What a document gives for each field of a record; nothing when it writes no record. -/
def Shape.fields? (shape : Shape) : Value → Option (List (String × Value))
  | .object fields => some fields
  | .array items =>
    if shape.required ≤ items.length ∧ items.length ≤ shape.names.length then
      some (shape.names.zip items)
    else none
  | _ => none

/-- Reads an optional field: absent and null give `none`, a value of the wrong type fails. -/
def optional {α : Type} (fields : List (String × Value)) (key : String)
    (read : Value → Option α) :
    Option (Option α) :=
  match getField? fields key with
  | none => some none
  | some .null => some none
  | some v => (read v).map some

/-- Reads a field that has a default for when it is absent. -/
def withDefault {α : Type} (fields : List (String × Value)) (key : String) (default : α)
    (read : Value → Option α) : Option α :=
  match getField? fields key with
  | none => some default
  | some v => read v

/-- The strings of an array that holds nothing else. -/
def stringList? (v : Value) : Option (List String) := do
  let items ← v.asArray?
  items.mapM Value.asString?

end TextScopes.Json
