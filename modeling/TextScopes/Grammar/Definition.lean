import TextScopes.DocumentError
import TextScopes.Grammar.Reference
import TextScopes.Json.Reader

/-!
# Definitions of grammars

A definition is what the document of a grammar says, its required fields checked and its patterns
not yet looked at. `languages` lists the other languages that it refers to.
-/

namespace TextScopes

/-- The document of a grammar. -/
structure Definition where
  uuid : Uuid
  name : String
  /-- The name by which other grammars refer to this one. -/
  scopeName : String
  fileTypes : List String
  patterns : List Json.Value
  repository : List (String × Json.Value)
  deriving Inhabited

namespace Definition

/-- The record that writes a grammar. -/
def shape : Json.Shape :=
  ⟨["uuid", "name", "scopeName", "fileTypes", "patterns", "repository"], 5⟩

/-- The fields of a grammar's document. -/
structure Fields where
  uuid : Option String
  name : Option String
  scopeName : Option String
  fileTypes : List String
  patterns : Option (List Json.Value)
  repository : List (String × Json.Value)

/-- The fields that a value gives, when they are of the right types. -/
def Fields.ofValue? (v : Json.Value) : Option Fields := do
  let fields ← shape.fields? v
  let uuid ← Json.optional fields "uuid" Json.Value.asString?
  let name ← Json.optional fields "name" Json.Value.asString?
  let scopeName ← Json.optional fields "scopeName" Json.Value.asString?
  let fileTypes ← Json.withDefault fields "fileTypes" [] Json.stringList?
  let patterns ← Json.optional fields "patterns" Json.Value.asArray?
  let repository ← Json.withDefault fields "repository" [] Json.Value.asObject?
  return ⟨uuid, name, scopeName, fileTypes, patterns, repository⟩

/-- Reads a definition from its document (`from_value`). -/
def ofValue (v : Json.Value) : Except DocumentError Definition := do
  match Fields.ofValue? v with
  | none => .error .malformed
  | some fields =>
    let uuid ← DocumentError.readUuid (← DocumentError.require "uuid" fields.uuid)
    let name ← DocumentError.require "name" fields.name
    let scopeName ← DocumentError.require "scopeName" fields.scopeName
    let patterns ← DocumentError.require "patterns" fields.patterns
    return ⟨uuid, name, scopeName, fields.fileTypes, patterns, fields.repository⟩

/-- Reads a definition from the text of its document (`from_json`). -/
def ofText (text : String) : Except DocumentError Definition :=
  match Json.read? text Json.nestingLimit with
  | some v => ofValue v
  | none => .error .malformed

/-- The includes in a value, at every depth: that of an object before those inside it
(`collect_includes`). -/
def includes : Json.Value → List String
  | .object fields =>
    ((Json.getField? fields "include").bind Json.Value.asString?).toList ++ ofFields fields
  | .array items => ofItems items
  | _ => []
where
  ofFields : List (String × Json.Value) → List String
    | [] => []
    | (_, v) :: rest => includes v ++ ofFields rest
  ofItems : List Json.Value → List String
    | [] => []
    | v :: rest => includes v ++ ofItems rest

/-- The other languages that the definition refers to, by the place of the first reference
(`referenced_languages`). -/
def languages (definition : Definition) : List String :=
  let values := definition.patterns ++ definition.repository.map (·.2)
  let names := (values.flatMap includes).filterMap fun text => (Reference.ofText text).language?
  (names.filter (· ≠ definition.scopeName)).eraseDups

end Definition

end TextScopes
