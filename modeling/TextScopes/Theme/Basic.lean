import TextScopes.Store.Basic
import TextScopes.DocumentError

/-!
# Themes

A theme gives display attributes to scopes by their exact names. Its document lists settings
entries, each for the names of a selector; the attributes of a name are those of the entries for it
put over each other in the order of the document. A theme can be attached to the scopes of a store,
and it parts a text into runs that look the same.
-/

namespace TextScopes

/-- Display attributes by scope name. -/
structure Theme where
  uuid : Uuid
  name : String
  semanticClass : Option String
  /-- The settings of the margin beside the text. -/
  gutter : Attributes
  /-- The attributes of each name. -/
  entries : Table String Attributes
  deriving DecidableEq, Inhabited, Repr

namespace Theme

/-- A settings entry: the selector, if it has one, and the attributes. -/
structure Entry where
  selector : Option String
  attributes : Attributes
  deriving DecidableEq, Inhabited, Repr

namespace Entry

/-- The record that writes an entry. -/
def shape : Json.Shape := ⟨["scope", "settings"], 1⟩

/-- The entry that a value writes. -/
def ofValue? (v : Json.Value) : Option Entry := do
  let fields ← shape.fields? v
  let selector ← Json.optional fields "scope" Json.Value.asString?
  let settings ← Json.withDefault fields "settings" [] Json.Value.asObject?
  return ⟨selector, Attributes.ofSettings settings⟩

/-- The names that an entry is for: the parts of its selector between commas, trimmed, the empty
ones left out; the global name when it has no selector. -/
def names (entry : Entry) : List String :=
  match entry.selector with
  | none => [Scope.globalName]
  | some selector =>
    (((Text.splitOn (· = ',') selector.toList).map Text.trim).filter (· ≠ [])).map String.ofList

end Entry

/-- The table with `top` put over the attributes of `name`. -/
def overlay (top : Attributes) (entries : Table String Attributes) (name : String) :
    Table String Attributes :=
  match entries.find? name with
  | some base => entries.insert name (base.override top)
  | none => entries.insert name top

/-- The table of names after one more entry. -/
def addEntry (entries : Table String Attributes) (entry : Entry) : Table String Attributes :=
  entry.names.foldl (overlay entry.attributes) entries

/-- The table of names that settings give; entries that are no settings are passed over. -/
def table (settings : List Json.Value) : Table String Attributes :=
  (settings.filterMap Entry.ofValue?).foldl addEntry .empty

/-- The record that writes a theme. -/
def shape : Json.Shape := ⟨["uuid", "name", "semanticClass", "gutterSettings", "settings"], 5⟩

/-- The fields of a theme's document. -/
structure Fields where
  uuid : Option String
  name : Option String
  semanticClass : Option String
  gutter : List (String × Json.Value)
  settings : Option (List Json.Value)

/-- The fields that a value gives, when they are of the right types. -/
def Fields.ofValue? (v : Json.Value) : Option Fields := do
  let fields ← shape.fields? v
  let uuid ← Json.optional fields "uuid" Json.Value.asString?
  let name ← Json.optional fields "name" Json.Value.asString?
  let semanticClass ← Json.optional fields "semanticClass" Json.Value.asString?
  let gutter ← Json.withDefault fields "gutterSettings" [] Json.Value.asObject?
  let settings ← Json.optional fields "settings" Json.Value.asArray?
  return ⟨uuid, name, semanticClass, gutter, settings⟩

/-- Reads a theme from its document (`from_value`). -/
def ofValue (v : Json.Value) : Except DocumentError Theme := do
  match Fields.ofValue? v with
  | none => .error .malformed
  | some fields =>
    let uuid ← DocumentError.readUuid (← DocumentError.require "uuid" fields.uuid)
    let name ← DocumentError.require "name" fields.name
    let settings ← DocumentError.require "settings" fields.settings
    return ⟨uuid, name, fields.semanticClass, Attributes.ofSettings fields.gutter,
      table settings⟩

/-- Reads a theme from the text of its document (`from_json`). -/
def ofText (text : String) : Except DocumentError Theme :=
  match Json.read? text Json.nestingLimit with
  | some v => ofValue v
  | none => .error .malformed

/-- The attributes for exactly this scope name (`attributes_for`). -/
def attributesFor? (theme : Theme) (name : String) : Option Attributes :=
  theme.entries.find? name

/-- The attributes of the entries without a selector (`global_settings`). -/
def globalSettings? (theme : Theme) : Option Attributes := theme.attributesFor? Scope.globalName

/-- The number of names that have attributes. -/
def size (theme : Theme) : Nat := theme.entries.size

/-- Attaches to every scope the attributes for its name, or none. -/
def annotate (theme : Theme) (store : Store) : Store :=
  store.map fun scope => { scope with attributes := theme.attributesFor? scope.name }

/-- The look of the byte at `offset`: the global settings, and over them the attributes for the
names of the scopes that cover it, from the outermost inwards. -/
def attributesAt (theme : Theme) (store : Store) (offset : Nat) : Attributes :=
  ((store.stack offset).filterMap fun scope => theme.attributesFor? scope.name).foldl
    Attributes.override (theme.globalSettings?.getD .empty)

/-- A stretch of text and the look of all of it. -/
structure Run where
  span : Span
  attributes : Attributes
  deriving DecidableEq, Inhabited, Repr

/-- Every offset once, in ascending order. -/
def distinct : List Nat → List Nat
  | a :: b :: rest => if a = b then distinct (b :: rest) else a :: distinct (b :: rest)
  | as => as

/-- The offsets where the scopes of a store start or stop, and the ends of its text. -/
def boundaries (store : Store) : List Nat :=
  let ends := store.toList.flatMap fun (_, scope) => [scope.span.start, scope.span.stop]
  distinct ((0 :: store.length :: ends).mergeSort (· ≤ ·))

/-- The spans between neighbouring offsets. -/
def spansBetween : List Nat → List Span
  | a :: b :: rest => ⟨a, b⟩ :: spansBetween (b :: rest)
  | _ => []

/-- Joins neighbouring runs that look the same. -/
def joinRuns : List Run → List Run
  | [] => []
  | r :: rest =>
    match joinRuns rest with
    | [] => [r]
    | s :: joined =>
      -- The joined run has the look of the first.
      if r.attributes.same s.attributes then
        ⟨⟨r.span.start, s.span.stop⟩, r.attributes⟩ :: joined
      else r :: s :: joined

/-- The text of a store in runs that look the same, none of which can be joined with the next
(`attributed_runs`). -/
def runs (theme : Theme) (store : Store) : List Run :=
  joinRuns ((spansBetween (boundaries store)).map fun span =>
    ⟨span, theme.attributesAt store span.start⟩)

end Theme

end TextScopes
