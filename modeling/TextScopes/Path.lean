import TextScopes.Text.Blank

/-!
# Paths

A path is a text whose steps are parted by slashes. Two paths are the same when their steps are:
repeated slashes, one at the end, and single dots count for nothing, but for a dot at the front.
-/

namespace TextScopes.Path

/-- The path to `inner` from the directory `outer`; a path from the root stays as it is. -/
def join (outer inner : String) : String :=
  if inner.startsWith "/" then inner
  else if outer = "" ∨ outer.endsWith "/" then outer ++ inner
  else outer ++ "/" ++ inner

/-- The pieces between the slashes, the empty ones included. -/
def pieces (path : String) : List String :=
  (Text.splitOn (· = '/') path.toList).map String.ofList

/-- Whether a piece leads on from a directory. -/
def isStep (piece : String) : Bool := piece ≠ "" && piece ≠ "."

/-- The steps of a path within a directory. -/
def inner (path : String) : List String := (pieces path).filter isStep

/-- The steps of a path; the first tells a path from the root, or from a dot, from other ones. -/
def steps (path : String) : List String :=
  match pieces path with
  | "" :: rest => if rest = [] then [] else "/" :: inner path
  | "." :: _ => "." :: inner path
  | _ => inner path

/-- Whether two paths have the same steps. -/
def same (a b : String) : Bool := steps a = steps b

/-- Paths are the same when their steps are. -/
theorem same_iff (a b : String) : same a b = true ↔ steps a = steps b := by
  simp [same]

end TextScopes.Path
