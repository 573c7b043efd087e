import TextScopes.Config
import TextScopes.Library.Basic
import TextScopes.Tokenizer.Basic

/-!
# Registries

A registry answers grammars and themes by identifier. As its configuration says, it keeps what
it has answered until it is told to forget. What cannot be loaded is not kept, so that it is
looked for anew each time.
-/

namespace TextScopes

/-- A value, and the number of the load that gave it: two answers with one number are one value. -/
structure Loaded (α : Type) where
  value : α
  serial : Nat

/-- What answers grammars and themes by identifier. -/
structure Registry (E : Engine) where
  config : Config
  library : Library
  /-- The grammars that are kept. -/
  grammars : Table String (Loaded (Grammar E))
  /-- The themes that are kept. -/
  themes : Table String (Loaded Theme)
  /-- How often something has been loaded. -/
  loads : Nat

namespace Registry

variable {E : Engine}

/-- A registry that keeps nothing yet. -/
def new (config : Config) (library : Library) : Registry E :=
  ⟨config, library, .empty, .empty, 0⟩

/-- The grammar with an identifier, loaded and kept. -/
def loadGrammar (registry : Registry E) (identifier : String) :
    Option (Loaded (Grammar E)) × Registry E :=
  match registry.library.grammar? E identifier with
  | none => (none, registry)
  | some grammar =>
    let loaded : Loaded (Grammar E) := ⟨grammar, registry.loads⟩
    let kept := if registry.config.cacheGrammars then registry.grammars.insert identifier loaded
      else registry.grammars
    -- Each load has a number of its own, kept or not.
    (some loaded, { registry with grammars := kept, loads := registry.loads + 1 })

/-- The grammar with an identifier: the one that is kept, or a new one. -/
def grammar (registry : Registry E) (identifier : String) :
    Option (Loaded (Grammar E)) × Registry E :=
  match if registry.config.cacheGrammars then registry.grammars.find? identifier else none with
  | some kept => (some kept, registry)
  | none => registry.loadGrammar identifier

/-- The theme with an identifier, loaded and kept. -/
def loadTheme (registry : Registry E) (identifier : String) : Option (Loaded Theme) × Registry E :=
  match registry.library.theme? identifier with
  | none => (none, registry)
  | some theme =>
    let loaded : Loaded Theme := ⟨theme, registry.loads⟩
    let kept := if registry.config.cacheThemes then registry.themes.insert identifier loaded
      else registry.themes
    (some loaded, { registry with themes := kept, loads := registry.loads + 1 })

/-- The theme with an identifier: the one that is kept, or a new one. -/
def theme (registry : Registry E) (identifier : String) : Option (Loaded Theme) × Registry E :=
  match if registry.config.cacheThemes then registry.themes.find? identifier else none with
  | some kept => (some kept, registry)
  | none => registry.loadTheme identifier

/-- A tokenizer for the grammar with an identifier, for lines of the length that is
configured (`parser`). -/
def tokenizer (registry : Registry E) (identifier : String) :
    Option (Tokenizer E) × Registry E :=
  let (loaded, registry) := registry.grammar identifier
  (loaded.map fun loaded => ⟨loaded.value, registry.config.maxLineLength⟩, registry)

/-- Forgets what is kept (`clear_caches`). -/
def clear (registry : Registry E) : Registry E :=
  { registry with grammars := .empty, themes := .empty }

/-- The registry over other documents; what is kept stays. -/
def withLibrary (registry : Registry E) (library : Library) : Registry E :=
  { registry with library := library }

/-- The number of grammars that are kept (`cached_grammar_count`). -/
def grammarCount (registry : Registry E) : Nat := registry.grammars.size

/-- The number of themes that are kept (`cached_theme_count`). -/
def themeCount (registry : Registry E) : Nat := registry.themes.size

end Registry

end TextScopes
