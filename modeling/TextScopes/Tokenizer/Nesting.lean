import TextScopes.Expression.Basic
import TextScopes.Grammar.Captures
import TextScopes.Token

/-!
# Scopes of captured groups

The named groups of a match are cut to the match and nested into one another, in the order of their
starts, the longer first. A group that overlaps one before it without lying inside is left out.
-/

namespace TextScopes.Captures

/-- The named groups that took part in a match, cut to it; those with nothing left are left out. -/
def clipped (captures : Captures) (found : Match) : List (Span × String) :=
  captures.entries.filterMap fun (index, name) => do
    let span := (← found.group? index).clip found.span
    if span.isEmpty then none else some (span, name)

/-- The order in which groups are nested: by start, and the longer before the shorter. -/
def outsideIn (a b : Span × String) : Bool :=
  a.1.start < b.1.start || (a.1.start = b.1.start && b.1.stop ≤ a.1.stop)

/-- The groups around `span` among those that are open, the innermost first, once those that stop
before it are closed; nothing when it overlaps the innermost of them without lying inside. -/
def around (span : Span) : List Span → List Span × Bool
  | [] => ([], true)
  | top :: outer =>
    if top.contains span then (top :: outer, true)
    else if top.stop ≤ span.start then around span outer
    -- The span starts inside the group and stops outside of it.
    else (top :: outer, false)

/-- The groups with the number of groups around each, when those in `opened` are open. -/
def nest (opened : List Span) : List (Span × String) → List (Nat × Span × String)
  | [] => []
  | (span, name) :: rest =>
    match around span opened with
    | (outer, true) => (outer.length, span, name) :: nest (span :: outer) rest
    | (outer, false) => nest outer rest

/-- The tokens of a match's groups, when the line that was searched starts at `offset` and what is
right inside the match belongs on `level` (`emit_captures`). -/
def tokens (captures : Captures) (found : Match) (offset level : Nat) : List Token :=
  (nest [] ((captures.clipped found).mergeSort outsideIn)).map fun (depth, span, name) =>
    ⟨name, span.shift offset, level + depth⟩

end TextScopes.Captures
