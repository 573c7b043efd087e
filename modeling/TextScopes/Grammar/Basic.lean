import TextScopes.Grammar.Graph

/-!
# Compiled grammars

A grammar is compiled from its definition and those of the languages that it refers to. What it
needs of another language and does not get matches nothing.
-/

namespace TextScopes

/-- A compiled grammar. -/
structure Grammar (E : Engine) where
  uuid : Uuid
  name : String
  scopeName : String
  fileTypes : List String
  graph : Graph E

namespace Grammar

variable {E : Engine}

/-- The graph of languages, their links followed with `base` as the one that is compiled. -/
def settle (languages : Languages E) (base : String) : Graph E :=
  ⟨languages.map fun language =>
    (language.scopeName, language.slots.map (languages.settle base))⟩

/-- Compiles a definition with those that it may refer to. -/
def compile (E : Engine) (definition : Definition) (others : List Definition) :
    Except DocumentError (Grammar E) := do
  let language ← Language.ofDefinition E definition
  let languages := Languages.extend E [language] others
  return ⟨definition.uuid, definition.name, definition.scopeName, definition.fileTypes,
    settle languages definition.scopeName⟩

/-- Compiles the text of a document by itself. -/
def ofText (E : Engine) (text : String) : Except DocumentError (Grammar E) := do
  compile E (← Definition.ofText text) []

/-- The rule that holds the top-level patterns. -/
def root (grammar : Grammar E) : RuleId := ⟨grammar.scopeName, 0⟩

/-- The rule with an identifier; one that is not there matches nothing. -/
def rule (grammar : Grammar E) (id : RuleId) : Rule E := (grammar.graph.rule? id).getD (.inert E)

/-- The rules that are tried inside a rule, in order. -/
def candidates (grammar : Grammar E) (id : RuleId) : List RuleId := grammar.graph.candidates id

end Grammar

end TextScopes
