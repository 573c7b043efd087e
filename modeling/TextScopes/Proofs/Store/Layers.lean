import Mathlib.Data.List.Basic
import TextScopes.Proofs.Store.Sound

/-!
# The layers over an offset

The stack at an offset forgets on which level each of its scopes stands. `Store.layers` keeps the
levels: it looks each one up as the stack does (`Store.stack_eq_layers`), and over levels in order
it is a choice among the entries of the store (`Store.layers_eq_filter`), at most one of each level,
from outside in (`Store.pairwise_layers`).
-/

namespace TextScopes

/-- The scopes of a level that cover an offset are the one that is found there, or none. -/
theorem Level.Ordered.filter_covers {level : Level} (h : level.Ordered) (offset : Nat) :
    level.filter (·.span.covers offset) = (level.find? offset).toList := by
  have hmem : ∀ scope, scope ∈ level.filter (·.span.covers offset) ↔
      level.find? offset = some scope := by
    intro scope
    rw [List.mem_filter, h.find?_eq_some_iff, Span.covers_iff]
  have hapart := h.apart.filter (·.span.covers offset)
  generalize level.filter (·.span.covers offset) = covering at hmem hapart ⊢
  rcases covering with _ | ⟨first, _ | ⟨second, rest⟩⟩
  · have hnone : level.find? offset = none :=
      Option.eq_none_iff_forall_ne_some.2 fun scope hfind => List.not_mem_nil ((hmem scope).2 hfind)
    rw [hnone, Option.toList_none]
  · rw [(hmem first).1 List.mem_cons_self, Option.toList_some]
  · -- The second of two scopes would start behind the first, and not cover what that covers.
    have hfirst := (h.find?_eq_some_iff.1 ((hmem first).1 List.mem_cons_self)).2
    have hsecond := (h.find?_eq_some_iff.1 ((hmem second).1 (by simp))).2
    have hle : first.span.stop ≤ second.span.start := List.rel_of_pairwise_cons hapart (by simp)
    omega

namespace Store

variable {store : Store} {levels : List Level} {offset : Nat}

/-- What the levels from number `n` on have at an offset, each with its level. -/
def layersFrom (offset : Nat) : Nat → List Level → List (Nat × Scope)
  | _, [] => []
  | n, level :: levels =>
    (level.find? offset).toList.map (fun scope => (n, scope)) ++ layersFrom offset (n + 1) levels

/-- The scopes that are found at an offset, each with its level, from outside in. -/
def layers (store : Store) (offset : Nat) : List (Nat × Scope) := layersFrom offset 0 store.levels

/-- What an entry is besides where it stands in the text: its level, its name and what it
carries. -/
def label (x : Nat × Scope) : Nat × String × Option Attributes := (x.1, x.2.name, x.2.attributes)

/-- The stack at an offset are the layers there, behind the global scope. -/
theorem stack_eq_layers (store : Store) (offset : Nat) :
    store.stack offset = store.globalScope :: (store.layers offset).map (·.2) := by
  have hlevels : ∀ (n : Nat) (levels : List Level),
      (layersFrom offset n levels).map (·.2) = levels.filterMap (·.find? offset) := by
    intro n levels
    induction levels generalizing n with
    | nil => rfl
    | cons level levels ih =>
      rw [layersFrom, List.map_append, List.map_map, ih, List.filterMap_cons]
      cases level.find? offset <;> rfl
  rw [stack, layers, hlevels]

/-- Over levels in order the layers at an offset are the entries that cover it. -/
theorem layersFrom_eq_filter (h : ∀ level ∈ levels, level.Ordered) (offset n : Nat) :
    layersFrom offset n levels = (number n levels).filter (·.2.span.covers offset) := by
  induction levels generalizing n with
  | nil => rfl
  | cons level levels ih =>
    obtain ⟨hlevel, hlevels⟩ := List.forall_mem_cons.1 h
    rw [layersFrom, number, List.filter_append, ih hlevels, ← hlevel.filter_covers,
      List.filter_map]
    rfl

/-- In a store whose levels are in order the layers at an offset are the entries that cover it. -/
theorem layers_eq_filter (h : ∀ level ∈ store.levels, level.Ordered) (offset : Nat) :
    store.layers offset = store.toList.filter (·.2.span.covers offset) :=
  layersFrom_eq_filter h offset 0

/-- An entry is a layer where its span covers the offset. -/
theorem mem_layers (h : ∀ level ∈ store.levels, level.Ordered) {x : Nat × Scope} :
    x ∈ store.layers offset ↔ x ∈ store.toList ∧ x.2.span.covers offset = true := by
  rw [layers_eq_filter h, List.mem_filter]

/-- The layers at an offset stand on different levels, and are listed from outside in. -/
theorem pairwise_layers (h : ∀ level ∈ store.levels, level.Ordered) (offset : Nat) :
    (store.layers offset).Pairwise (·.1 < ·.1) := by
  rw [layers_eq_filter h]
  refine ((pairwise_number h 0).filter _).imp_of_mem fun {a b} ha hb hab => ?_
  have hacovers := (Span.covers_iff _ _).1 (List.mem_filter.1 ha).2
  have hbcovers := (Span.covers_iff _ _).1 (List.mem_filter.1 hb).2
  rcases hab with hlt | ⟨-, hle⟩
  · exact hlt
  · omega

end Store

end TextScopes
