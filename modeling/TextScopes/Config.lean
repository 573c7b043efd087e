import TextScopes.Json.Skip
import TextScopes.Json.Printer
import TextScopes.FileTree

/-!
# Configuration

What the registry remembers, how long a line may be to be tokenized, and where documents are looked
for. A configuration is written as a JSON record, every field of which has a default.
-/

namespace TextScopes

/-- The settings of a registry. -/
structure Config where
  /-- Whether compiled grammars are kept by identifier. -/
  cacheGrammars : Bool
  /-- Whether themes are kept by identifier. -/
  cacheThemes : Bool
  /-- Lines of more bytes than this are passed over. -/
  maxLineLength : Nat
  /-- Directories searched for documents, the first one first. -/
  grammarDirs : List String
  deriving DecidableEq, Repr

/-- Why a configuration is refused. -/
inductive ConfigError where
  /-- The file cannot be read or written. -/
  | inaccessible
  | malformed
  | zeroLineLength
  | emptyDirectory
  deriving DecidableEq, Repr

namespace ConfigError

/-- The wording of the two complaints about a configuration's values. -/
def message : ConfigError → String
  | inaccessible => "IO error"
  | malformed => "Parse error"
  | zeroLineLength => "Validation error: max_line_length must be greater than 0"
  | emptyDirectory => "Validation error: grammar_dirs cannot contain an empty path"

end ConfigError

namespace Config

/-- The line length that is tokenized unless a configuration says otherwise. -/
def defaultMaxLineLength : Nat := 20000

/-- The configuration of an empty record. -/
def default : Config := ⟨true, true, defaultMaxLineLength, []⟩

instance : Inhabited Config := ⟨default⟩

/-- The record that writes a configuration. -/
def shape : Json.Shape :=
  ⟨["cache_grammars", "cache_themes", "max_line_length", "grammar_dirs"], 0⟩

/-- The configuration that the fields of a record give. -/
def ofFields? (fields : List (String × Json.Value)) : Option Config := do
  let cacheGrammars ← Json.withDefault fields "cache_grammars" true Json.Value.asBool?
  let cacheThemes ← Json.withDefault fields "cache_themes" true Json.Value.asBool?
  let maxLineLength ←
    Json.withDefault fields "max_line_length" defaultMaxLineLength Json.Value.asNatural?
  let grammarDirs ← Json.withDefault fields "grammar_dirs" [] Json.stringList?
  return ⟨cacheGrammars, cacheThemes, maxLineLength, grammarDirs⟩

/-- Reads a configuration from a decoded document. -/
def ofValue (v : Json.Value) : Except ConfigError Config :=
  match (shape.fields? v).bind ofFields? with
  | some config => .ok config
  | none => .error .malformed

/-- Reads a configuration from its text. -/
def ofText (text : String) : Except ConfigError Config :=
  match (Json.recordText? shape text).bind ofFields? with
  | some config => .ok config
  | none => .error .malformed

/-- The record that writes the configuration. -/
def toValue (config : Config) : Json.Value :=
  .object [
    ("cache_grammars", .bool config.cacheGrammars),
    ("cache_themes", .bool config.cacheThemes),
    ("max_line_length", .number (.natural config.maxLineLength)),
    ("grammar_dirs", .array (config.grammarDirs.map .string))]

/-- The text that is saved for the configuration. -/
def toText (config : Config) : String := config.toValue.pretty ""

/-- Loads the configuration from the file at a path (`load_from_file`). -/
def load (tree : FileTree) (path : String) : Except ConfigError Config :=
  match tree.read path with
  | .ok text => ofText text
  | .error _ => .error .inaccessible

/-- Saves the configuration in the file at a path (`save_to_file`). -/
def save (config : Config) (tree : FileTree) (path : String) : Except ConfigError FileTree :=
  match tree.write? path config.toText.toUTF8 with
  | some tree => .ok tree
  | none => .error .inaccessible

/-- The first complaint about the configuration's values, if there is one. -/
def validate (config : Config) : Except ConfigError Unit :=
  if config.maxLineLength = 0 then .error .zeroLineLength
  else if "" ∈ config.grammarDirs then .error .emptyDirectory
  else .ok ()

/-- Reading the record of a configuration gives the configuration back. -/
theorem ofValue_toValue (config : Config) : ofValue config.toValue = .ok config := by
  obtain ⟨a, b, c, d⟩ := config
  have h : (d.map Json.Value.string).mapM Json.Value.asString? = some d := by
    induction d with
    | nil => rfl
    | cons x xs ih => simp [List.mapM_cons, Json.Value.asString?, ih]
  simp [ofValue, toValue, Json.Shape.fields?, ofFields?, Json.withDefault, Json.getField?,
    Json.Value.asBool?, Json.Value.asNatural?, Json.stringList?, Json.Value.asArray?, h]

end Config

end TextScopes
