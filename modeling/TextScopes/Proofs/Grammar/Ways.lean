import Mathlib.Data.List.Forall2
import Mathlib.Data.List.Lex
import TextScopes.Proofs.Grammar.Walk

/-!
# Ways through containers

What a rule holds is numbered in its order. A way down from a rule follows such numbers through
containers, and goes into none of them twice (`Graph.Way`). The numbers of a way are its path; they
determine the containers and where the way ends (`Graph.Way.unique`). Paths are compared number by
number, and one that another goes on from comes before it.

To go on from two paths by one number keeps their order, unless the second goes on from the first
already. A way that goes on from a way to a container has gone into it (`Graph.Way.mem_of_extends`),
so a way that is free to go into a container does not come before the least way to it, taken on by
the same number (`Graph.LeastWay.concat_le`).
-/

namespace TextScopes

/-- A path is left of another if it comes before it, whatever it goes on with. -/
def LeftOf (path other : List Nat) : Prop := ∀ further, path ++ further < other

/-- A path that is left of another comes before it. -/
theorem LeftOf.lt {path other : List Nat} (h : LeftOf path other) : path < other := by
  simpa using h []

/-- A path that is left of another stays so when it goes on. -/
theorem LeftOf.append {path other : List Nat} (h : LeftOf path other) (further : List Nat) :
    LeftOf (path ++ further) other := fun more => by
  rw [List.append_assoc]
  exact h _

/-- Of two paths that go on from one, that with the smaller number is left of the other. -/
theorem LeftOf.concat {place next : Nat} (h : place < next) (path : List Nat) :
    LeftOf (path ++ [place]) (path ++ [next]) := fun further => by
  rw [List.append_assoc]
  exact List.append_left_lt (List.cons_lt_cons_iff.2 (.inl h))

/-- A path comes before those that go on from it. -/
theorem lt_concat (path : List Nat) (place : Nat) : path < path ++ [place] := by
  have h : path ++ [] < path ++ [place] := List.append_left_lt (List.nil_lt_cons place [])
  rwa [List.append_nil] at h

/-- A path that comes before another, which does not go on from it, is left of it. -/
theorem leftOf_of_lt {path other : List Nat} (h : path < other) (hextends : ¬path <+: other) :
    LeftOf path other := by
  intro further
  -- On the places that both paths have in common.
  induction path generalizing other with
  | nil => exact absurd List.nil_prefix hextends
  | cons place path ih =>
    cases other with
    | nil => exact absurd h (List.not_lt_nil _)
    | cons next other =>
      rcases List.cons_lt_cons_iff.1 h with hlt | ⟨rfl, hlt⟩
      · exact List.cons_lt_cons_iff.2 (.inl hlt)
      · refine List.cons_lt_cons_iff.2 (.inr ⟨rfl, ih hlt fun hpath => hextends ?_⟩)
        exact List.prefix_cons_inj _ |>.2 hpath

namespace Graph

variable {E : Engine} {graph : Graph E} {id holder rule : RuleId} {path : List Nat}
  {through : List RuleId}

/-- A way down from a rule, by its path, the containers that it goes into, the last first, and the
rule where it ends. The rule that it comes from does not count as gone into. -/
inductive Way (graph : Graph E) (id : RuleId) : List Nat → List RuleId → RuleId → Prop
  | held {place : Nat} {rule : RuleId} (held : (graph.children id)[place]? = some rule) :
      Way graph id [place] [] rule
  | inside {path : List Nat} {through : List RuleId} {holder rule : RuleId} {place : Nat}
      (way : Way graph id path through holder) (container : graph.kind holder = .container)
      (fresh : holder ∉ through) (held : (graph.children holder)[place]? = some rule) :
      Way graph id (path ++ [place]) (holder :: through) rule

/-- A way takes at least one number. -/
theorem Way.ne_nil (h : graph.Way id path through rule) : path ≠ [] := by
  cases h with
  | held => exact List.cons_ne_nil _ _
  | inside => exact List.concat_ne_nil _ _

/-- The last step of a way is taken from the rule that it comes from, or inside a container. -/
theorem way_concat_iff {place : Nat} :
    graph.Way id (path ++ [place]) through rule ↔
      (path = [] ∧ through = [] ∧ (graph.children id)[place]? = some rule) ∨
        ∃ holder before, through = holder :: before ∧ graph.Way id path before holder ∧
          graph.kind holder = .container ∧ holder ∉ before ∧
            (graph.children holder)[place]? = some rule := by
  constructor
  · intro h
    generalize hwhole : path ++ [place] = whole at h
    cases h with
    | @held last _ held =>
      have hwhole : path ++ [place] = [] ++ [last] := hwhole
      obtain ⟨rfl, ⟨⟩⟩ := List.append_inj' hwhole rfl
      exact .inl ⟨rfl, rfl, held⟩
    | inside way container fresh held =>
      obtain ⟨rfl, ⟨⟩⟩ := List.append_inj' hwhole rfl
      exact .inr ⟨_, _, rfl, way, container, fresh, held⟩
  · rintro (⟨rfl, rfl, held⟩ | ⟨holder, before, rfl, way, container, fresh, held⟩)
    · exact .held held
    · exact .inside way container fresh held

/-- A path leads to one rule, through the same containers. -/
theorem Way.unique {through' : List RuleId} {rule' : RuleId} (h : graph.Way id path through rule)
    (h' : graph.Way id path through' rule') : through = through' ∧ rule = rule' := by
  -- A path says at each step which of the rules to take.
  induction h generalizing through' rule' with
  | @held place _ held =>
    have hstep : graph.Way id ([] ++ [place]) through' rule' := h'
    rcases way_concat_iff.1 hstep with ⟨-, rfl, held'⟩ | ⟨_, _, -, way, -⟩
    · exact ⟨rfl, Option.some.inj (held.symm.trans held')⟩
    · exact absurd rfl way.ne_nil
  | inside way container fresh held ih =>
    rcases way_concat_iff.1 h' with ⟨rfl, -⟩ | ⟨holder', before, rfl, way', -, -, held'⟩
    · exact absurd rfl way.ne_nil
    · obtain ⟨rfl, rfl⟩ := ih way'
      exact ⟨rfl, Option.some.inj (held.symm.trans held')⟩

/-- A way that goes on from a way to a rule has gone into it. -/
theorem Way.mem_of_extends {front : List Nat} {before : List RuleId}
    (h : graph.Way id path through rule) (hfront : graph.Way id front before holder)
    (hextends : front <+: path) (hne : front ≠ path) : holder ∈ through := by
  -- From the end of the path: the front is the path itself or lies on what is before.
  induction h with
  | @held place =>
    have hstep : front <+: [] ++ [place] := hextends
    rcases List.prefix_concat_iff.1 hstep with heq | hnil
    · exact absurd heq hne
    · exact absurd (List.prefix_nil.1 hnil) hfront.ne_nil
  | @inside path through _ _ _ way _ _ _ ih =>
    rcases List.prefix_concat_iff.1 hextends with heq | hextends
    · exact absurd heq hne
    · by_cases heq : front = path
      · subst heq
        obtain ⟨-, rfl⟩ := hfront.unique way
        exact List.mem_cons_self
      · exact List.mem_cons_of_mem _ (ih hextends heq)

/-- A path of a way to a rule, before which comes no path of another. -/
structure LeastWay (graph : Graph E) (id rule : RuleId) (path : List Nat) : Prop where
  way : ∃ through, graph.Way id path through rule
  least : ∀ other through, graph.Way id other through rule → path ≤ other

/-- A way to a container that it may go into does not come before the least, with one number after
both. -/
theorem LeastWay.concat_le {least : List Nat} (h : graph.LeastWay id holder least)
    (way : graph.Way id path through holder) (fresh : holder ∉ through) (place : Nat) :
    least ++ [place] ≤ path ++ [place] := by
  obtain ⟨before, hway⟩ := h.way
  rcases (h.least _ _ way).eq_or_lt with rfl | hlt
  · exact le_rfl
  · -- The way does not go on from the least: behind it, it would not go into the container again.
    have hleft : LeftOf least path := leftOf_of_lt hlt fun hextends =>
      fresh (way.mem_of_extends hway hextends hlt.ne)
    calc least ++ [place] ≤ path := (hleft [place]).le
      _ ≤ path ++ [place] := (lt_concat path place).le

end Graph

end TextScopes
