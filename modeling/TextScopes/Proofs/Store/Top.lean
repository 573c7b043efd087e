import TextScopes.Proofs.Store.Nesting
import TextScopes.Proofs.Store.Queries

/-!
# Scopes that are added at the top

A scope is added on the first level where it is in nobody's way, over the whole of its span. In a
store without a flaw it comes to lie over every scope that is already there at any of its bytes
(`Store.layer_lt_of_free`): a scope that stands further in lies inside one of each level further
out, so one above the level that is taken would have one on that level, and that would be in the
way. The scope need not lie inside the scopes with which it shares bytes; the store may have a flaw
then, but the stacks are right.
-/

namespace TextScopes

namespace Store

variable {store : Store} {scope : Scope} {offset : Nat}

namespace IsForest

/-- Below a layer there is one on every level further out. -/
theorem exists_layer (h : store.IsForest) {n k : Nat} {other : Scope}
    (hother : (n + k, other) ∈ store.layers offset) :
    ∃ below, (n, below) ∈ store.layers offset := by
  -- The induction is on the levels between, from the layer outwards.
  induction k generalizing other with
  | zero => exact ⟨other, hother⟩
  | succ k ih =>
    obtain ⟨hmem, hcovers⟩ := (mem_layers h.ordered).1 hother
    have hlevel : other ∈ levelAt store.levels (n + k + 1) := mem_toList.1 hmem
    unfold levelAt at hlevel
    cases hupper : store.levels[n + k + 1]? with
    | none =>
      rw [hupper] at hlevel
      cases hlevel
    | some upper =>
      rw [hupper, Option.getD_some] at hlevel
      obtain ⟨hbound, -⟩ := List.getElem?_eq_some_iff.1 hupper
      have hlower : store.levels[n + k]? = some store.levels[n + k] :=
        List.getElem?_eq_getElem (Nat.lt_of_succ_lt hbound)
      -- The scope that encloses a layer covers what the layer covers.
      obtain ⟨parent, hparent, hcontains⟩ := h.enclosed _ _ _ hlower hupper other hlevel
      have hlayer : (n + k, parent) ∈ store.layers offset := by
        refine (mem_layers h.ordered).2 ⟨mem_toList.2 ?_, ?_⟩
        · rw [levelAt, hlower]
          exact hparent
        · rw [Span.contains_iff] at hcontains
          simp only [Span.covers_iff] at hcovers ⊢
          omega
      exact ih hlayer

/-- A level on which a scope is in nobody's way lies above all layers at the bytes of the scope. -/
theorem layer_lt_of_free (h : store.IsForest) {m : Nat}
    (hfree : (levelAt store.levels m).collides scope.span = false)
    (hcovers : scope.span.covers offset = true) : ∀ x ∈ store.layers offset, x.1 < m := by
  -- A layer as high as the free level would bring one on that level, in the way of the scope.
  rintro ⟨n, other⟩ hother
  by_contra hge
  obtain ⟨k, rfl⟩ := Nat.exists_eq_add_of_le (Nat.le_of_not_lt hge)
  obtain ⟨below, hbelow⟩ := h.exists_layer hother
  obtain ⟨hmem, hshared⟩ := (mem_layers h.ordered).1 hbelow
  have hapart :=
    (ordered_levelAt h.ordered m).collides_eq_false_iff.1 hfree below (mem_toList.1 hmem)
  simp only [Span.covers_iff] at hcovers hshared
  omega

end IsForest

/-- The number of scopes counts the entries and the global scope. -/
theorem scopeCount_eq (store : Store) : store.scopeCount = 1 + store.toList.length := by
  have hnumber : ∀ (n : Nat) (levels : List Level),
      (number n levels).length = (levels.map List.length).foldr (· + ·) 0 := by
    intro n levels
    induction levels generalizing n with
    | nil => rfl
    | cons level levels ih =>
      rw [number, List.length_append, List.length_map, ih]
      rfl
  rw [scopeCount, toList, hnumber]

/-- A scope with a byte that is added at the top of a store without a flaw becomes the innermost at
each of its bytes: the stack there is the one of before with the scope at its end, and the scope is
the topmost. The stacks elsewhere stay as they are, and there is one scope more. Nothing is asked of
how the scope lies to those that are stored. -/
theorem stack_addAtTop (hcheck : store.check = none) (hshown : scope.span.isEmpty = false) :
    (∀ offset, scope.span.covers offset = true →
      (store.addAtTop scope).stack offset = store.stack offset ++ [scope] ∧
        (store.addAtTop scope).topmost offset = scope) ∧
    (∀ offset, scope.span.covers offset = false →
      (store.addAtTop scope).stack offset = store.stack offset) ∧
    (store.addAtTop scope).scopeCount = store.scopeCount + 1 := by
  have hforest := check_eq_none_iff.1 hcheck
  have hbyte : scope.span.start < scope.span.stop := by
    rw [← Bool.not_eq_true, Span.isEmpty_iff] at hshown
    omega
  obtain ⟨m, -, hfree, hplaced⟩ := place_first hforest.ordered hbyte
  have hadd : store.addAtTop scope = { store with levels := place scope 0 store.levels } := by
    rw [addAtTop, Store.add, if_neg (by simp [hshown])]
  have hperm : (store.addAtTop scope).toList.Perm ((m, scope) :: store.toList) := by
    have := hplaced.perm 0
    rw [Nat.zero_add] at this
    rwa [hadd]
  have hordered : ∀ level ∈ (store.addAtTop scope).levels, level.Ordered := by
    rw [hadd]
    exact hplaced.ordered
  -- The layers with the scope are those of before, and the scope where it covers the offset.
  have hlayers : ∀ offset, (store.addAtTop scope).layers offset =
      store.layers offset ++ if scope.span.covers offset then [(m, scope)] else [] := by
    intro offset
    -- Both have the same entries, and each lists them by their levels.
    have hsame : ((store.addAtTop scope).layers offset).Perm
        (store.layers offset ++ if scope.span.covers offset then [(m, scope)] else []) := by
      rw [layers_eq_filter hordered, layers_eq_filter hforest.ordered]
      refine (hperm.filter _).trans ?_
      rw [List.filter_cons]
      split
      · exact (List.perm_append_singleton _ _).symm
      · rw [List.append_nil]
    refine hsame.eq_of_pairwise (fun a b _ _ hab hba => absurd hab (Nat.lt_asymm hba))
      (pairwise_layers hordered offset) ?_
    refine List.pairwise_append.2 ⟨pairwise_layers hforest.ordered offset, by split <;> simp,
      ?_⟩
    -- The scope is on a level above all layers that it meets.
    intro x hx y hy
    split at hy
    · next hcovers =>
      obtain rfl := List.mem_singleton.1 hy
      exact hforest.layer_lt_of_free hfree hcovers x hx
    · cases hy
  have hglobal : (store.addAtTop scope).globalScope = store.globalScope := by
    rw [hadd]
  refine ⟨fun offset hcovers => ?_, fun offset hcovers => ?_, ?_⟩
  · have hstack : (store.addAtTop scope).stack offset = store.stack offset ++ [scope] := by
      rw [stack_eq_layers, stack_eq_layers, hlayers, if_pos hcovers, hglobal, List.map_append]
      rfl
    have htop := getLast?_stack (store.addAtTop scope) offset
    rw [hstack, List.getLast?_concat] at htop
    exact ⟨hstack, (Option.some.inj htop).symm⟩
  · rw [stack_eq_layers, stack_eq_layers, hlayers, if_neg (by simp [hcovers]), hglobal,
      List.append_nil]
  · -- There is one entry more.
    rw [scopeCount_eq, scopeCount_eq, hperm.length_eq, List.length_cons]
    omega

/-- A mark that begins inside both scopes of `boxed` and stops behind them lies over both where they
are, and over the global scope where they are not. -/
theorem stack_addAtTop_boxed : boxed.check = none ∧ (Span.isEmpty ⟨3, 6⟩) = false ∧
    (boxed.addAtTop (.plain "mark" ⟨3, 6⟩)).stack 3 =
      [boxed.globalScope, .plain "outer" ⟨1, 5⟩, .plain "inner" ⟨2, 4⟩,
        .plain "mark" ⟨3, 6⟩] ∧
    (boxed.addAtTop (.plain "mark" ⟨3, 6⟩)).stack 5 =
      [boxed.globalScope, .plain "mark" ⟨3, 6⟩] ∧
    (boxed.addAtTop (.plain "mark" ⟨3, 6⟩)).stack 2 =
      [boxed.globalScope, .plain "outer" ⟨1, 5⟩, .plain "inner" ⟨2, 4⟩] ∧
    (boxed.addAtTop (.plain "mark" ⟨3, 6⟩)).scopeCount = 4 := by
  have hcheck : boxed.check = none := by decide
  have hshown : Span.isEmpty ⟨3, 6⟩ = false := by decide
  have hmark : (Scope.plain "mark" ⟨3, 6⟩).span.isEmpty = false := hshown
  obtain ⟨hinside, houtside, hcount⟩ := stack_addAtTop hcheck hmark
  refine ⟨hcheck, hshown, ?_, ?_, ?_, ?_⟩
  · rw [(hinside 3 (by decide)).1]
    decide
  · rw [(hinside 5 (by decide)).1]
    decide
  · rw [houtside 2 (by decide)]
    decide
  · rw [hcount]
    decide

end Store

end TextScopes
