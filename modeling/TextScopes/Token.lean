import TextScopes.Store.Basic

/-!
# Tokens

A token is a scope that a tokenizer found, with the level of a store on which it belongs. Tokens
come in the order in which they are found: what is inside a region comes before the region.
-/

namespace TextScopes

/-- A scope that was found, and its level. -/
structure Token where
  name : String
  span : Span
  level : Nat
  deriving DecidableEq, Inhabited, Repr

namespace Token

/-- The scope that the token stands for. -/
def scope (token : Token) : Scope := .plain token.name token.span

/-- A token for what has a name, and none for what has none. -/
def ofName (name : Option String) (span : Span) (level : Nat) : List Token :=
  (name.map fun name => ⟨name, span, level⟩).toList

end Token

/-- Adds the scope of a token on its level. -/
def Store.addToken (store : Store) (token : Token) : Store := store.add token.scope token.level

end TextScopes
