import TextScopes.Expression.Basic
import TextScopes.Grammar.Captures

/-!
# Rules

A rule either matches an expression, or opens a region that lasts to a match of a second expression,
or only holds other rules. Rules refer to those that they hold by identifiers: the language that
declares the rule, and the rule's number in it.
-/

namespace TextScopes

/-- A rule by the language that declares it and its number there. -/
structure RuleId where
  language : String
  index : Nat
  deriving DecidableEq, Inhabited, Repr

/-- What a rule does. -/
inductive Kind (E : Engine) where
  /-- Names what an expression matches. -/
  | matching (opening : Expression E) (captures : Captures)
  /-- Opens a region at a match of `opening`, to be closed by one of `closing`. When both could
  match at one place, `closingLast` says that the rules inside the region come first. -/
  | region (opening closing : Expression E) (openingCaptures closingCaptures : Captures)
    (closingLast : Bool)
  /-- Holds other rules. -/
  | container
  /-- Stands for an include that leads nowhere, and matches nothing. -/
  | inert

namespace Kind

variable {E : Engine}

/-- The expression whose match starts the rule (`opening_regex`). -/
def opening? : Kind E → Option (Expression E)
  | matching opening _ => some opening
  | region opening _ _ _ _ => some opening
  | container => none
  | inert => none

/-- Whether the rule can open a region. -/
def opensRegion : Kind E → Bool
  | region _ _ _ _ _ => true
  | _ => false

end Kind

/-- A rule of a grammar. -/
structure Rule (E : Engine) where
  /-- The name of the scopes that the rule finds. -/
  name : Option String
  kind : Kind E
  /-- The rules that it holds. -/
  children : List RuleId

namespace Rule

/-- The rule that matches nothing. -/
def inert (E : Engine) : Rule E := ⟨none, .inert, []⟩

instance {E : Engine} : Inhabited (Rule E) := ⟨inert E⟩

end Rule

end TextScopes
