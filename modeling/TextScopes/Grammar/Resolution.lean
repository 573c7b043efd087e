import TextScopes.Grammar.Language

/-!
# Where includes lead

A link leads to the place that its reference names, and from there on when a link is found there
again. What a chain of links ends in is what every link on it stands for; a chain that meets a
missing place, or comes back to one of its own, stands for nothing.

Each chain is followed once here. The program overwrites links with copies instead, in
`resolve_internal` for every language and in `resolve_external` and `finish` for all of them; the
rules that it comes to are the same.
-/

namespace TextScopes

/-- The value under a key in the first of the repositories that has one (`lookup`). -/
def Repository.lookup? (visible : List Repository) (key : String) : Option Nat :=
  visible.findSome? (List.lookup key)

/-- Languages that refer to one another; the first is the one that is compiled. -/
abbrev Languages (E : Engine) := List (Language E)

namespace Languages

variable {E : Engine}

/-- The language of a name. -/
def find? (languages : Languages E) (name : String) : Option (Language E) :=
  List.find? (·.scopeName = name) languages

/-- What is at a place. -/
def slot? (languages : Languages E) (id : RuleId) : Option (Slot E) := do
  (← languages.find? id.language).slots[id.index]?

/-- The places of all languages together. -/
def size (languages : Languages E) : Nat := (languages.map (·.slots.size)).foldr (· + ·) 0

/-- The place that a link names, when `base` is the language that is compiled. -/
def target? (languages : Languages E) (base : String) (link : Link) : Option RuleId :=
  match link.reference with
  | .entry key => (Repository.lookup? link.visible key).map (⟨link.language, ·⟩)
  | .self => some ⟨link.language, 0⟩
  | .base => some ⟨base, 0⟩
  | .language name => (languages.find? name).map fun _ => ⟨name, 0⟩
  | .languageEntry name key => do
    -- Only the outermost repository of another language can be seen.
    let language ← languages.find? name
    let index ← Repository.lookup? [language.repository] key
    return ⟨name, index⟩

/-- The rule that a chain of at most `limit` links from a place on ends in. -/
def follow? (languages : Languages E) (base : String) : Nat → RuleId → Option (Rule E)
  | 0, _ => none
  | limit + 1, id =>
    match languages.slot? id with
    | some (.rule rule) => some rule
    | some (.link link) => (languages.target? base link).bind (follow? languages base limit)
    | none => none

/-- The rule at a place once its links are followed: a chain that visits more places than there are
has come back to one. -/
def settle (languages : Languages E) (base : String) : Slot E → Rule E
  | .rule rule => rule
  | .link link =>
    ((languages.target? base link).bind (languages.follow? base languages.size)).getD (.inert E)

/-- The languages of definitions that refer to one another, in their order. Of two with one name,
and of those that are refused, only the first that is not refused counts. -/
def extend (E : Engine) (languages : Languages E) : List Definition → Languages E
  | [] => languages
  | definition :: rest =>
    match languages.find? definition.scopeName with
    | some _ => extend E languages rest
    | none =>
      match Language.ofDefinition E definition with
      | .ok language => extend E (languages ++ [language]) rest
      | .error _ => extend E languages rest

end Languages

end TextScopes
