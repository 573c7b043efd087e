import TextScopes.Grammar.Rule
import TextScopes.Grammar.Reference
import TextScopes.Json.Record

/-!
# Entries of a grammar's document

An entry is an include or a rule with the entries that it holds and a repository of its own. Every
value is read as an entry; one that gives no rule is kept without a kind. What its repository
declares is then still there, though nothing refers to it.
-/

namespace TextScopes

/-- An entry as it is declared. -/
inductive Entry (E : Engine) where
  | link (reference : Reference)
  /-- A rule; without a kind it is malformed. -/
  | rule (name : Option String) (kind? : Option (Kind E)) (patterns : List (Entry E))
    (repository : List (String × Entry E))

namespace Entry

variable {E : Engine}

/-- The entry of a value that is no record of the right types. -/
def malformed : Entry E := .rule none none [] []

/-- Whether the entry gives a rule. -/
def isWellFormed : Entry E → Bool
  | .link _ => true
  | .rule _ kind? _ _ => kind?.isSome

/-- The record that writes an entry. -/
def shape : Json.Shape :=
  ⟨["name", "match", "begin", "end", "captures", "beginCaptures", "endCaptures",
    "applyEndPatternLast", "patterns", "include", "repository"], 11⟩

/-- Reads a flag: a truth value, or an integer that is not zero (`is_set`). -/
def flag? : Json.Value → Option Bool
  | .bool b => some b
  | .number (.natural n) => if n < Nat.pow 2 63 then some (n ≠ 0) else none
  | .number (.negative n) => some (n ≠ 0)
  | _ => none

/-- The fields of an entry. -/
structure Fields where
  name : Option String
  matching : Option String
  opening : Option String
  closing : Option String
  captures : Option (List (String × Json.Value))
  openingCaptures : Option (List (String × Json.Value))
  closingCaptures : Option (List (String × Json.Value))
  closingLast : Option Bool
  patterns : Option (List Json.Value)
  link : Option String
  repository : Option (List (String × Json.Value))

/-- The fields that a value gives, when they are of the right types. -/
def Fields.ofValue? (v : Json.Value) : Option Fields := do
  let fields ← shape.fields? v
  let text (key : String) := Json.optional fields key Json.Value.asString?
  let object (key : String) := Json.optional fields key Json.Value.asObject?
  let name ← text "name"
  let matching ← text "match"
  let opening ← text "begin"
  let closing ← text "end"
  let captures ← object "captures"
  let openingCaptures ← object "beginCaptures"
  let closingCaptures ← object "endCaptures"
  let closingLast ← Json.optional fields "applyEndPatternLast" flag?
  let patterns ← Json.optional fields "patterns" Json.Value.asArray?
  let link ← text "include"
  let repository ← object "repository"
  return ⟨name, matching, opening, closing, captures, openingCaptures, closingCaptures,
    closingLast, patterns, link, repository⟩

/-- Compiles an expression whose references are to its own groups (`compile_standalone`). -/
def standalone? (E : Engine) (pattern : String) : Option (Expression E) :=
  ((Expression.ofPattern E pattern .grammar).bind Expression.standalone).toOption

/-- The captures that the first of two fields gives, or the second when the first is absent. -/
def capturesOf (own common : Option (List (String × Json.Value))) : Captures :=
  Captures.ofFields ((own.or common).getD [])

/-- What the fields make of a rule: a match, else a region, else a holder of rules. An expression
that does not compile, a region without an end and a holder of nothing give no rule. -/
def Fields.kind? (E : Engine) (fields : Fields) : Option (Kind E) :=
  match fields.matching, fields.opening with
  | some pattern, _ => do
    let opening ← standalone? E pattern
    return .matching opening (capturesOf fields.captures none)
  | none, some pattern => do
    -- The end is a template when it refers to the groups of the begin.
    let closing ← (Expression.ofPattern E (← fields.closing) .grammar).toOption
    let opening ← standalone? E pattern
    return .region opening closing (capturesOf fields.openingCaptures fields.captures)
      (capturesOf fields.closingCaptures fields.captures) (fields.closingLast.getD false)
  | none, none => if fields.patterns.getD [] matches [] then none else some .container

/-- The values that a rule holds; a match holds none. -/
def Fields.inner (fields : Fields) : List Json.Value :=
  if fields.matching.isSome then [] else fields.patterns.getD []

/-- Reads the entry that a value writes, to the depth given. -/
def read (E : Engine) : Nat → Json.Value → Entry E
  | 0, _ => malformed
  | depth + 1, v =>
    match Fields.ofValue? v with
    | none => malformed
    | some fields =>
      -- An include counts before anything else that the entry says.
      match fields.link with
      | some text => .link (Reference.ofText text)
      | none =>
        .rule fields.name (fields.kind? E) (fields.inner.map (read E depth))
          ((fields.repository.getD []).map fun (key, v) => (key, read E depth v))

/-- The entry that a value writes. -/
def ofValue (E : Engine) (v : Json.Value) : Entry E := read E v.depth v

end Entry

end TextScopes
