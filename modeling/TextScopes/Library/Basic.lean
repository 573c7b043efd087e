import TextScopes.Grammar.Basic
import TextScopes.Theme.Basic
import TextScopes.FileTree

/-!
# Libraries of documents

A library finds the documents of languages and themes by their identifiers. A language is loaded
with all the languages that it refers to, directly or through others.
-/

namespace TextScopes

/-- What a document is about. -/
inductive DocumentKind where
  | language
  | theme
  deriving DecidableEq, Inhabited, Repr

namespace DocumentKind

/-- The end of the file names of documents of this kind. -/
def extension : DocumentKind → String
  | language => "tmLanguage.json"
  | theme => "tmTheme.json"

/-- The file name of the document with an identifier (`file_name`). -/
def fileName (kind : DocumentKind) (identifier : String) : String :=
  identifier ++ "." ++ kind.extension

end DocumentKind

/-- Where documents are found. -/
structure Library where
  /-- The path of the document with an identifier. -/
  locate? : DocumentKind → String → Option String
  /-- The text at a path. -/
  read : String → Except ReadError String
  /-- The bytes of all documents: more than the languages that they can give. -/
  extent : Nat

namespace Library

/-- The document with an identifier, decoded (`read_document`). -/
def document? (library : Library) (kind : DocumentKind) (identifier : String) :
    Option Json.Value := do
  let path ← library.locate? kind identifier
  let text ← (library.read path).toOption
  Json.read? text Json.nestingLimit

/-- The definition of a language (`load_definition`). -/
def definition? (library : Library) (identifier : String) : Option Definition := do
  (Definition.ofValue (← library.document? .language identifier)).toOption

/-- The theme with an identifier (`load_theme`). -/
def theme? (library : Library) (identifier : String) : Option Theme := do
  (Theme.ofValue (← library.document? .theme identifier)).toOption

/-- The first language that waits, was not asked for before and is there; with it all that have been
asked for now, and those that still wait. -/
def next? (library : Library) (asked : List String) :
    List String → Option (Definition × List String × List String)
  | [] => none
  | name :: waiting =>
    if name ∈ asked then next? library asked waiting
    else
      -- A name is asked for once, whether or not there is a definition.
      match library.definition? name with
      | some definition => some (definition, name :: asked, waiting)
      | none => next? library (name :: asked) waiting

/-- The languages that wait and those that they refer to, breadth first, `limit` of them at most. -/
def collect (library : Library) : Nat → List String → List String → List Definition
  | 0, _, _ => []
  | limit + 1, asked, waiting =>
    match library.next? asked waiting with
    | none => []
    | some (definition, asked, waiting) =>
      definition :: collect library limit asked (waiting ++ definition.languages)

/-- The languages that a definition refers to, directly or through others. -/
def dependencies (library : Library) (definition : Definition) : List Definition :=
  library.collect library.extent [definition.scopeName] definition.languages

/-- The grammar with an identifier, compiled with all that it refers to (`compile_grammar`). -/
def grammar? (E : Engine) (library : Library) (identifier : String) : Option (Grammar E) := do
  let definition ← library.definition? identifier
  (Grammar.compile E definition (library.dependencies definition)).toOption

end Library

end TextScopes
