import TextScopes.Grammar.Resolution

/-!
# Graphs of rules

The rules of a compiled grammar refer to one another, in cycles where a grammar includes itself.
`reachable` walks over all rules that one leads to; `candidates` lists the rules that are tried
inside one, with those that only hold others replaced by what they hold. Both bear the names that
they have in the program.
-/

namespace TextScopes

/-- The rules of several languages, by name and number (`PatternGraph`). -/
structure Graph (E : Engine) where
  languages : List (String × Array (Rule E))

namespace Graph

variable {E : Engine}

/-- The number of rules. -/
def size (graph : Graph E) : Nat := (graph.languages.map (·.2.size)).foldr (· + ·) 0

/-- The rule with an identifier. -/
def rule? (graph : Graph E) (id : RuleId) : Option (Rule E) := do
  let (_, rules) ← graph.languages.find? (·.1 = id.language)
  rules[id.index]?

/-- What a rule does; nothing for one that is not there. -/
def kind (graph : Graph E) (id : RuleId) : Kind E :=
  match graph.rule? id with
  | some rule => rule.kind
  | none => .inert

/-- The rules that a rule holds. -/
def children (graph : Graph E) (id : RuleId) : List RuleId :=
  match graph.rule? id with
  | some rule => rule.children
  | none => []

/-- How often one rule of the graph holds another. -/
def edgeCount (graph : Graph E) : Nat :=
  (graph.languages.flatMap (·.2.toList)).foldr (fun rule count => rule.children.length + count) 0

/-- Puts the rules not seen yet, and not twice, before those that wait, in their order. -/
def pushFresh (seen waiting : List RuleId) (ids : List RuleId) : List RuleId × List RuleId :=
  -- The first of the rules comes to stand in front, so that its children are visited first.
  ids.reverse.foldl (fun (seen, waiting) id =>
    if id ∈ seen then (seen, waiting) else (id :: seen, id :: waiting)) (seen, waiting)

/-- Visits the rules that wait and all that they lead to, `limit` of them at most. -/
def visit (graph : Graph E) : Nat → List RuleId → List RuleId → List RuleId
  | 0, _, _ => []
  | _ + 1, _, [] => []
  | limit + 1, seen, id :: waiting =>
    let (seen, waiting) := pushFresh seen waiting (graph.children id)
    id :: visit graph limit seen waiting

/-- The rules that a rule leads to, each once, the rule itself first. -/
def reachable (graph : Graph E) (id : RuleId) : List RuleId :=
  graph.visit (graph.size + 1) [id] [id]

/-- Walks over rules in order, in place of a container over those that it holds (`flatten_into`).
A rule that matches is listed where it is first met, and a container is gone into only once;
`limit` bounds the steps. -/
def flatten (graph : Graph E) :
    Nat → List RuleId → List RuleId → List RuleId → List RuleId
  | 0, _, _, found => found.reverse
  | _ + 1, _, found, [] => found.reverse
  | limit + 1, entered, found, id :: rest =>
    match graph.kind id with
    -- What a container holds takes its place.
    | .container =>
      if id ∈ entered then flatten graph limit entered found rest
      else flatten graph limit (id :: entered) found (graph.children id ++ rest)
    | .inert => flatten graph limit entered found rest
    | _ =>
      if id ∈ found then flatten graph limit entered found rest
      else flatten graph limit entered (id :: found) rest

/-- The rules that are tried inside a rule, in order. -/
def candidates (graph : Graph E) (id : RuleId) : List RuleId :=
  let inner := graph.children id
  graph.flatten (inner.length + graph.edgeCount + 1) [] [] inner

end Graph

end TextScopes
