import TextScopes.Store.Level
import TextScopes.Edit

/-!
# Stores of scopes

A `Store`, the program's `ScopedString`, holds a text and the scopes found in it, by levels: the
outermost scopes on level 0, those inside them on level 1, and so on. A global scope over the whole
text stands below all levels; it is stored beside them, as `base_scope`, and laid over the new text
by every edit. The queries go by offset; the edits keep every scope on the text that it names.
-/

namespace TextScopes

/-- A text and its scopes, level by level (`ScopedString`). -/
structure Store where
  text : String
  levels : List Level
  /-- The scope below all levels, over the whole text. -/
  globalScope : Scope
  deriving DecidableEq, Inhabited, Repr

namespace Store

/-- A text without scopes (`new`). -/
def ofText (text : String) : Store := ⟨text, [], .spanning text.utf8ByteSize⟩

/-- The bytes of the text. -/
def length (store : Store) : Nat := store.text.utf8ByteSize

/-- The number of scopes, the global one included (`number_of_scopes`). -/
def scopeCount (store : Store) : Nat := 1 + (store.levels.map List.length).foldr (· + ·) 0

/-- The number of levels, the global one included (`number_of_levels`). -/
def levelCount (store : Store) : Nat := store.levels.length + 1

/-- The scopes on the levels from number `n` on, each with its level. -/
def number : Nat → List Level → List (Nat × Scope)
  | _, [] => []
  | n, level :: levels => level.map (fun scope => (n, scope)) ++ number (n + 1) levels

/-- The scopes with their levels, level by level, the global one left out (`iter`). -/
def toList (store : Store) : List (Nat × Scope) := number 0 store.levels

/-- The store with `f` applied to every scope (`for_each_scope_mut`). -/
def map (f : Scope → Scope) (store : Store) : Store :=
  { store with levels := store.levels.map (·.map f) }

/-- Levels without the empty ones behind the last that holds a scope (`trim_levels`). -/
def trim (levels : List Level) : List Level := (levels.reverse.dropWhile List.isEmpty).reverse

/-- Puts `scope` on the first level from number `n` on where it collides with nothing, opening
levels as needed. -/
def place (scope : Scope) : Nat → List Level → List Level
  | 0, [] => [[scope]]
  | 0, level :: levels =>
    -- A level that is taken is passed over, and never shared.
    if level.collides scope.span then level :: place scope 0 levels
    else level.insert scope :: levels
  -- The levels up to the one asked for are opened, and stay empty.
  | n + 1, [] => [] :: place scope n []
  | n + 1, level :: levels => level :: place scope n levels

/-- Adds `scope` on `level`, or further in where that level is taken. An empty scope adds
nothing. -/
def add (store : Store) (scope : Scope) (level : Nat) : Store :=
  if scope.span.isEmpty then store else { store with levels := place scope level store.levels }

/-- Adds `scope` as far out as nothing collides with it (`add_at_top`). -/
def addAtTop (store : Store) (scope : Scope) : Store := store.add scope 0

/-- The innermost scope that covers `offset` (`topmost_scope`). -/
def topmost (store : Store) (offset : Nat) : Scope :=
  (store.levels.reverse.findSome? (·.find? offset)).getD store.globalScope

/-- From the innermost of the scopes given on, the scope that follows the last one that is the same
as `scope` in a row of those. -/
def nextBelow (scope : Scope) (found : Bool) : List Scope → Option Scope
  | [] => none
  | candidate :: rest =>
    if found then some candidate else nextBelow scope (candidate.same scope) rest

/-- The scope right below `scope` among those that cover `offset` (`lower_scope`). -/
def lower (store : Store) (scope : Scope) (offset : Nat) : Scope :=
  (nextBelow scope false (store.levels.reverse.filterMap (·.find? offset))).getD store.globalScope

/-- The level that holds `scope` (`level_of`). -/
def levelOf? (store : Store) (scope : Scope) : Option Nat :=
  store.levels.findIdx? fun level =>
    match level.find? scope.span.start with
    | some candidate => candidate.same scope
    | none => false

/-- The scopes that cover `offset`, from the global one inwards (`scope_stack`). -/
def stack (store : Store) (offset : Nat) : List Scope :=
  store.globalScope :: store.levels.filterMap (·.find? offset)

/-- The scopes of the levels from number `n` on that lie within reach of `span`, each with its
level. -/
def reach (span : Span) : Nat → List Level → List (Nat × Scope)
  | _, [] => []
  | n, level :: levels =>
    (level.within span).map (fun scope => (n, scope)) ++ reach span (n + 1) levels

/-- The order by start and then from outside in. -/
def startsBefore (a b : Nat × Scope) : Bool :=
  a.2.span.start < b.2.span.start || (a.2.span.start = b.2.span.start && a.1 ≤ b.1)

/-- The scopes that share a byte with `span` or reach over it, by start and then from outside in,
behind the global one (`scopes_in`). -/
def scopesIn (store : Store) (span : Span) : List Scope :=
  store.globalScope :: ((reach span 0 store.levels).mergeSort startsBefore).map (·.2)

/-- Puts `inserted` into the text at `offset`: scopes behind it move, those around it grow. -/
def insert (store : Store) (offset : Nat) (inserted : String) : Store :=
  let text := Text.insert store.text offset inserted
  ⟨text, store.levels.map (·.afterInsert offset inserted.utf8ByteSize),
    store.globalScope.withSpan ⟨0, text.utf8ByteSize⟩⟩

/-- Takes the bytes in `span` out of the text: scopes are clipped, and dropped when nothing is left
of them (`delete_characters`). -/
def delete (store : Store) (span : Span) : Store :=
  let text := Text.delete store.text span
  ⟨text, trim (store.levels.map (·.afterDelete span)),
    store.globalScope.withSpan ⟨0, text.utf8ByteSize⟩⟩

/-- Applies an edit to text and scopes. -/
def apply (store : Store) : Edit → Store
  | .insert offset text => store.insert offset text
  | .delete span => store.delete span

/-- Removes the scopes that lie within `span`, and gives them by level and start
(`remove_scopes`). -/
def removeScopes (store : Store) (span : Span) : List Scope × Store :=
  -- Levels in the middle may be left empty; only the last ones are taken away.
  let parts := store.levels.map (·.extract span)
  (parts.flatMap (·.1), { store with levels := trim (parts.map (·.2)) })

/-- Removes the scope on `level` that starts at `start`, and gives it
(`remove_scope_starting_at`). -/
def removeAt? (store : Store) (level start : Nat) : Option (Scope × Store) :=
  match store.levels[level]? with
  | none => none
  | some scopes =>
    match scopes.extractAt? start with
    | none => none
    | some (found, rest) =>
      some (found, { store with levels := trim (store.levels.set level rest) })

end Store

end TextScopes
