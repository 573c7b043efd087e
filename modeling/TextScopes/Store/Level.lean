import TextScopes.Scope

/-!
# One level of a store

A level lists scopes that do not overlap in ascending order. Because of that order the scopes that
start at or before an offset are a front part of the level, and those that stop after it are a back
part, so that every query and edit is a cut of the list.
-/

namespace TextScopes

/-- Scopes that do not overlap, in ascending order. -/
abbrev Level := List Scope

namespace Level

/-- The scopes at the front that stop at or before `offset`. -/
def before (level : Level) (offset : Nat) : Level := level.takeWhile (·.span.stop ≤ offset)

/-- The scopes from the first that stops after `offset` on (`first_ending_after`). -/
def after (level : Level) (offset : Nat) : Level := level.dropWhile (·.span.stop ≤ offset)

/-- The scope that covers `offset`: of those that start there or before, the last can be the only
one that reaches it (`find_in_level`). -/
def find? (level : Level) (offset : Nat) : Option Scope :=
  match (level.takeWhile (·.span.start ≤ offset)).getLast? with
  | some scope => if offset < scope.span.stop then some scope else none
  | none => none

/-- Whether a scope of the level shares a byte with `span` (`intersects_level`). -/
def collides (level : Level) (span : Span) : Bool :=
  match (level.after span.start).head? with
  | some scope => scope.span.start < span.stop
  | none => false

/-- Puts the scope before the first that does not start earlier. -/
def insert (level : Level) (scope : Scope) : Level :=
  level.takeWhile (·.span.start < scope.span.start) ++
    scope :: level.dropWhile (·.span.start < scope.span.start)

/-- The scopes that share a byte with `span` or, when that is empty, reach over it. -/
def within (level : Level) (span : Span) : List Scope :=
  (level.after span.start).takeWhile (·.span.start < span.stop)

/-- The level after `count` bytes are inserted at `offset`; scopes before it stay. -/
def afterInsert (level : Level) (offset count : Nat) : Level :=
  level.before offset ++
    (level.after offset).map fun scope => scope.withSpan (scope.span.afterInsert offset count)

/-- What is left of a scope after a deletion; nothing when it vanishes. -/
def afterDelete? (deleted : Span) (scope : Scope) : Option Scope :=
  let span := scope.span.afterDelete deleted
  if span.isEmpty then none else some (scope.withSpan span)

/-- The level after the bytes in `deleted` are gone; scopes before them stay. -/
def afterDelete (level : Level) (deleted : Span) : Level :=
  level.before deleted.start ++ (level.after deleted.start).filterMap (afterDelete? deleted)

/-- Parts the scopes contained in `span` from the rest of the level. -/
def extract (level : Level) (span : Span) : List Scope × Level :=
  let candidates := level.within span
  let rest := (level.after span.start).dropWhile (·.span.start < span.stop)
  (candidates.filter fun scope => span.contains scope.span,
    level.before span.start ++ (candidates.filter fun scope => !span.contains scope.span) ++ rest)

/-- Parts the scope that starts at `start` from the rest of the level. -/
def extractAt? (level : Level) (start : Nat) : Option (Scope × Level) :=
  match level with
  | [] => none
  | scope :: rest =>
    if scope.span.start = start then some (scope, rest)
    else (extractAt? rest start).map fun (found, rest) => (found, scope :: rest)

/-- The two parts of a level make it up. -/
theorem before_append_after (level : Level) (offset : Nat) :
    level.before offset ++ level.after offset = level :=
  List.takeWhile_append_dropWhile

end Level

end TextScopes
