import Mathlib.Logic.Function.Basic
import TextScopes.Proofs.Grammar.Walk

/-!
# Graphs under other identifiers

The rules of a graph may stand in another graph under other identifiers, and among rules that are
not in the first (`Graph.Renames`). The walk for candidates looks at a rule's kind and at what it
holds, and compares identifiers with those that it has met. So it goes in the other graph as in the
first (`Graph.Renames.walk`), and a rule of the first has the same candidates there, under their
other identifiers (`Graph.Renames.candidates_eq`).
-/

namespace TextScopes

variable {E : Engine}

/-- A rule that knows those that it holds by other identifiers. -/
def Rule.rename (ρ : RuleId → RuleId) (rule : Rule E) : Rule E :=
  { rule with children := rule.children.map ρ }

/-- A rule that matches nothing holds none. -/
@[simp]
theorem Rule.rename_inert (ρ : RuleId → RuleId) : (Rule.inert E).rename ρ = .inert E := rfl

/-- A rule is itself under the identifiers that it knows. -/
@[simp]
theorem Rule.rename_id (rule : Rule E) : rule.rename id = rule := by
  rw [Rule.rename, List.map_id]

namespace Graph

variable {ρ : RuleId → RuleId} {graph larger : Graph E} {id : RuleId}
  {entered found todo result : List RuleId}

/-- The rules of a graph, which hold none but one another, are in another one under other
identifiers. -/
structure Renames (ρ : RuleId → RuleId) (graph larger : Graph E) : Prop where
  injective : Function.Injective ρ
  rule : ∀ id rule, graph.rule? id = some rule → larger.rule? (ρ id) = some (rule.rename ρ)
  closed : ∀ id rule, graph.rule? id = some rule →
    ∀ child ∈ rule.children, ∃ held, graph.rule? child = some held
  names : (graph.languages.map (·.1)).Nodup
  largerNames : (larger.languages.map (·.1)).Nodup

namespace Renames

/-- A rule does what it does under its other identifier. -/
theorem kind_eq (h : graph.Renames ρ larger) {rule : Rule E} (hrule : graph.rule? id = some rule) :
    larger.kind (ρ id) = graph.kind id := by
  rw [kind, kind, hrule, h.rule id rule hrule, Rule.rename]

/-- A rule holds what it holds, under the other identifiers. -/
theorem children_eq (h : graph.Renames ρ larger) {rule : Rule E}
    (hrule : graph.rule? id = some rule) :
    larger.children (ρ id) = (graph.children id).map ρ := by
  rw [children, children, hrule, h.rule id rule hrule, Rule.rename]

/-- What a rule holds are rules of the graph. -/
theorem exists_rule_of_mem_children (h : graph.Renames ρ larger) {rule : Rule E}
    (hrule : graph.rule? id = some rule) :
    ∀ child ∈ graph.children id, ∃ held, graph.rule? child = some held := by
  rw [children, hrule]
  exact h.closed id rule hrule

/-- A walk over rules of the graph is one in the other graph, under the other identifiers. -/
theorem walk (h : graph.Renames ρ larger) (hwalk : graph.Walk entered found todo result)
    (htodo : ∀ id ∈ todo, ∃ rule, graph.rule? id = some rule) :
    larger.Walk (entered.map ρ) (found.map ρ) (todo.map ρ) (result.map ρ) := by
  have hmem : ∀ {id : RuleId} {ids : List RuleId}, ρ id ∈ ids.map ρ ↔ id ∈ ids :=
    List.mem_map_of_injective h.injective
  -- Each step is taken under the new names, since what waits is in the graph.
  induction hwalk with
  | done =>
    rw [List.map_reverse]
    exact .done
  | @enter entered found todo result id container fresh later ih =>
    obtain ⟨⟨rule, hrule⟩, hrest⟩ := List.forall_mem_cons.1 htodo
    refine .enter ((h.kind_eq hrule).trans container) (hmem.not.2 fresh) ?_
    rw [h.children_eq hrule, ← List.map_append]
    refine ih fun other hother => ?_
    rcases List.mem_append.1 hother with hheld | hwaits
    · exact h.exists_rule_of_mem_children hrule other hheld
    · exact hrest other hwaits
  | again container old later ih =>
    obtain ⟨⟨rule, hrule⟩, hrest⟩ := List.forall_mem_cons.1 htodo
    exact .again ((h.kind_eq hrule).trans container) (hmem.2 old) (ih hrest)
  | inert inert later ih =>
    obtain ⟨⟨rule, hrule⟩, hrest⟩ := List.forall_mem_cons.1 htodo
    exact .inert ((h.kind_eq hrule).trans inert) (ih hrest)
  | list opens fresh later ih =>
    obtain ⟨⟨rule, hrule⟩, hrest⟩ := List.forall_mem_cons.1 htodo
    exact .list ((h.kind_eq hrule).symm ▸ opens) (hmem.not.2 fresh) (ih hrest)
  | listed opens old later ih =>
    obtain ⟨⟨rule, hrule⟩, hrest⟩ := List.forall_mem_cons.1 htodo
    exact .listed ((h.kind_eq hrule).symm ▸ opens) (hmem.2 old) (ih hrest)

/-- A rule has the candidates that it has, under their other identifiers. -/
theorem candidates_eq (h : graph.Renames ρ larger) {rule : Rule E}
    (hrule : graph.rule? id = some rule) :
    larger.candidates (ρ id) = (graph.candidates id).map ρ := by
  have hwalk := h.walk (walk_candidates h.names id) (h.exists_rule_of_mem_children hrule)
  have hlarger := walk_candidates h.largerNames (ρ id)
  rw [h.children_eq hrule] at hlarger
  exact hlarger.unique hwalk

end Renames

end Graph

end TextScopes
