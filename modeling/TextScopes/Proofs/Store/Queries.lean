import TextScopes.Proofs.Store.Layers

/-!
# What the queries of a store answer

A query cuts each level where the order of its scopes lets it, and looks at little more than one
scope. Here its answer is said without cuts, by a scan of all scopes that the store lists: those
that cover an offset, those that are the same as a given one, and those that lie within reach of a
span (`Store.queries_eq_scan`).

A level in order has no more than one scope over an offset, and its scopes within reach of a span
stand together, so that both cuts are choices among the scopes of the level
(`Level.Ordered.filter_covers`, `Level.Ordered.within_eq_filter`). What the levels give one after
the other is then a choice among the entries of the store, since these are listed level by level
(`Store.layers_eq_filter`, `Store.reach_eq_filter`). Nothing is asked of how the scopes of one level
lie to those of the next: levels may be empty, and scopes may have none around them.
-/

namespace TextScopes

namespace Level.Ordered

variable {level : Level}

/-- The scopes of a level within reach of a span start before it stops, and stop behind its
start. -/
theorem within_eq_filter (h : level.Ordered) (span : Span) :
    level.within span = level.filter (·.span.intersects span) := by
  have hafter : Level.Ordered (level.after span.start) := h.sublist (List.dropWhile_sublist _)
  unfold Level.within
  rw [takeWhile_eq_filter (hafter.pairwise_start span.stop), h.after_eq_filter, List.filter_filter]
  refine List.filter_congr fun scope _ => ?_
  unfold Span.intersects
  rw [← decide_not]
  simp only [Nat.not_le]

/-- What a level finds where a scope starts is the same just when the level has one that is. -/
theorem any_same_iff (h : level.Ordered) (scope : Scope) :
    (level.find? scope.span.start).any (·.same scope) = true ↔
    ∃ x ∈ level, x.same scope = true := by
  rw [Option.any_eq_true]
  constructor
  · -- What is found there is on the level.
    rintro ⟨x, hfind, hsame⟩
    exact ⟨x, (h.find?_eq_some_iff.1 hfind).1, hsame⟩
  · -- A scope is found at its own start.
    rintro ⟨x, hx, hsame⟩
    have hspan := ((Scope.same_iff x scope).1 hsame).2
    have hshown := h.shown x hx
    rw [hspan] at hshown
    refine ⟨x, h.find?_eq_some_iff.2 ⟨hx, ?_⟩, hsame⟩
    rw [hspan]
    exact ⟨Nat.le_refl _, hshown⟩

end Level.Ordered

namespace Store

variable {store : Store} {levels : List Level} {scope found : Scope}

/-- The scopes within reach of a span are a choice among the entries. -/
theorem reach_eq_filter (h : ∀ level ∈ levels, level.Ordered) (span : Span) (n : Nat) :
    reach span n levels = (number n levels).filter (·.2.span.intersects span) := by
  induction levels generalizing n with
  | nil => rfl
  | cons level levels ih =>
    obtain ⟨hlevel, hlevels⟩ := List.forall_mem_cons.1 h
    rw [reach, number, List.filter_append, ih hlevels, hlevel.within_eq_filter, List.filter_map]
    rfl

/-- What follows the innermost of the scopes that are the same as one, when these are
listed from inside out. -/
theorem nextBelow_append {inner rest : List Scope} (hinner : ∀ x ∈ inner, x.same scope = false)
    (hfound : found.same scope = true) :
    nextBelow scope false (inner ++ found :: rest) = rest.head? := by
  induction inner with
  | nil =>
    rw [List.nil_append, nextBelow, if_neg Bool.false_ne_true, hfound]
    cases rest <;> rfl
  | cons first inner ih =>
    obtain ⟨hfirst, hinner⟩ := List.forall_mem_cons.1 hinner
    rw [List.cons_append, nextBelow, if_neg Bool.false_ne_true, hfirst]
    exact ih hinner

/-- Nothing follows a scope that is not there. -/
theorem nextBelow_eq_none {scopes : List Scope} (h : ∀ x ∈ scopes, x.same scope = false) :
    nextBelow scope false scopes = none := by
  induction scopes with
  | nil => rfl
  | cons first scopes ih =>
    obtain ⟨hfirst, hscopes⟩ := List.forall_mem_cons.1 h
    rw [nextBelow, if_neg Bool.false_ne_true, hfirst]
    exact ih hscopes

/-- The topmost scope is the last of the stack. -/
theorem getLast?_stack (store : Store) (offset : Nat) :
    (store.stack offset).getLast? = some (store.topmost offset) := by
  have htop : store.levels.reverse.findSome? (·.find? offset) =
      (store.levels.filterMap (·.find? offset)).getLast? := by
    rw [← List.head?_filterMap, List.filterMap_reverse, List.head?_reverse]
  unfold stack topmost
  rw [htop, List.getLast?_cons]

/-- The scope below another in the stack is the one that stands before its innermost occurrence. -/
theorem lower_of_stack {offset : Nat} {outer inner : List Scope} {below : Scope}
    (hstack : store.stack offset = outer ++ below :: found :: inner)
    (hfound : found.same scope = true) (hinner : ∀ x ∈ inner, x.same scope = false) :
    store.lower scope offset = below := by
  have hinner' : ∀ x ∈ inner.reverse, x.same scope = false := fun x hx =>
    hinner x (List.mem_reverse.1 hx)
  unfold stack at hstack
  unfold lower
  rw [List.filterMap_reverse]
  cases outer with
  | nil =>
    -- Only the global scope stands below.
    obtain ⟨rfl, hscopes⟩ := List.cons.inj hstack
    rw [hscopes, List.reverse_cons, nextBelow_append hinner' hfound]
    rfl
  -- The stored scopes are asked from inside out.
  | cons first outer =>
    rw [List.cons_append] at hstack
    obtain ⟨-, hscopes⟩ := List.cons.inj hstack
    have hreverse : (outer ++ below :: found :: inner).reverse =
        inner.reverse ++ found :: below :: outer.reverse := by simp
    rw [hscopes, hreverse, nextBelow_append hinner' hfound]
    rfl

/-- Below a scope that does not occur above the global one stands the global one. -/
theorem lower_of_not_mem {offset : Nat}
    (h : ∀ x ∈ (store.stack offset).tail, x.same scope = false) :
    store.lower scope offset = store.globalScope := by
  unfold stack at h
  rw [List.tail_cons] at h
  unfold lower
  rw [List.filterMap_reverse, nextBelow_eq_none fun x hx => h x (List.mem_reverse.1 hx)]
  rfl

/-- The level of a scope is the first on which the same is found where the scope starts. -/
theorem levelOf?_eq_findIdx? (store : Store) (scope : Scope) : store.levelOf? scope =
    store.levels.findIdx? fun level => (level.find? scope.span.start).any (·.same scope) := by
  unfold levelOf?
  congr 1
  funext level
  cases level.find? scope.span.start <;> rfl

namespace Sound

/-- The stack at an offset are the scopes that cover it, behind the global one. -/
theorem stack_eq (h : store.Sound) (offset : Nat) : store.stack offset =
    store.globalScope :: (store.toList.filter (·.2.span.covers offset)).map (·.2) := by
  rw [stack_eq_layers, layers_eq_filter h.ordered]

/-- The scopes that cover an offset stand on different levels, and are listed from outside in. -/
theorem pairwise_covers (h : store.Sound) (offset : Nat) :
    (store.toList.filter (·.2.span.covers offset)).Pairwise (·.1 < ·.1) := by
  rw [← layers_eq_filter h.ordered]
  exact pairwise_layers h.ordered offset

/-- A level that a scope is said to be on has one that is the same, and none before it has. -/
theorem levelOf?_eq_some_iff (h : store.Sound) {n : Nat} : store.levelOf? scope = some n ↔
    (∃ x, (n, x) ∈ store.toList ∧ x.same scope = true) ∧
      ∀ m < n, ∀ x, (m, x) ∈ store.toList → x.same scope = false := by
  -- An entry of a level is a scope of the list with its number.
  have hat : ∀ m (hm : m < store.levels.length) x,
      (m, x) ∈ store.toList ↔ x ∈ store.levels[m] := by
    intro m hm x
    rw [mem_toList, levelAt, List.getElem?_eq_getElem hm, Option.getD_some]
  have hhas : ∀ m (hm : m < store.levels.length),
      ((store.levels[m].find? scope.span.start).any (·.same scope) = true) ↔
        ∃ x ∈ store.levels[m], x.same scope = true :=
    fun m hm => (h.ordered _ (List.getElem_mem hm)).any_same_iff scope
  rw [levelOf?_eq_findIdx?, List.findIdx?_eq_some_iff_getElem]
  constructor
  · -- The level that is answered is the lowest that has the scope.
    rintro ⟨hn, hsome, hbefore⟩
    obtain ⟨x, hx, hsame⟩ := (hhas n hn).1 hsome
    refine ⟨⟨x, (hat n hn x).2 hx, hsame⟩, fun m hm x hx => ?_⟩
    have hm' : m < store.levels.length := Nat.lt_trans hm hn
    rw [← Bool.not_eq_true]
    intro hsame
    exact hbefore m hm ((hhas m hm').2 ⟨x, (hat m hm' x).1 hx, hsame⟩)
  · rintro ⟨⟨x, hx, hsame⟩, hbefore⟩
    have hn : n < store.levels.length := by
      by_contra hge
      have hmem := mem_toList.1 hx
      rw [levelAt, List.getElem?_eq_none (Nat.not_lt.1 hge)] at hmem
      cases hmem
    refine ⟨hn, (hhas n hn).2 ⟨x, (hat n hn x).1 hx, hsame⟩, fun m hm hsome => ?_⟩
    have hm' : m < store.levels.length := Nat.lt_trans hm hn
    obtain ⟨y, hy, hsame⟩ := (hhas m hm').1 hsome
    have hno := hbefore m hm y ((hat m hm' y).2 hy)
    rw [hsame] at hno
    cases hno

/-- A scope is said to be on no level when none that is the same is stored. -/
theorem levelOf?_eq_none_iff (h : store.Sound) : store.levelOf? scope = none ↔
    ∀ x ∈ store.toList, x.2.same scope = false := by
  rw [levelOf?_eq_findIdx?, List.findIdx?_eq_none_iff]
  constructor
  · intro hnone x hx
    obtain ⟨level, hl, hmem⟩ := exists_level hx
    rw [← Bool.not_eq_true]
    intro hsame
    have hsome := ((h.ordered level hl).any_same_iff scope).2 ⟨x.2, hmem, hsame⟩
    rw [hnone level hl] at hsome
    cases hsome
  · intro hall level hl
    rw [← Bool.not_eq_true, (h.ordered level hl).any_same_iff]
    rintro ⟨x, hx, hsame⟩
    obtain ⟨n, hn⟩ := exists_mem_toList hl hx
    have hno := hall _ hn
    rw [hsame] at hno
    cases hno

/-- The scopes within reach of a span are listed by start and then from outside in. -/
theorem scopesIn_eq (h : store.Sound) (span : Span) : ∃ found : List (Nat × Scope),
    store.scopesIn span = store.globalScope :: found.map (·.2) ∧
      found.Perm (store.toList.filter (·.2.span.intersects span)) ∧
      found.Pairwise fun a b => a.2.span.start < b.2.span.start ∨
        (a.2.span.start = b.2.span.start ∧ a.1 < b.1) := by
  have hreach : reach span 0 store.levels = store.toList.filter (·.2.span.intersects span) :=
    reach_eq_filter h.ordered span 0
  have hperm := List.mergeSort_perm (reach span 0 store.levels) startsBefore
  refine ⟨(reach span 0 store.levels).mergeSort startsBefore, rfl, hreach ▸ hperm, ?_⟩
  -- No two scopes of one level start at one place.
  have hkeys : store.toList.Pairwise fun a b =>
      ¬(a.2.span.start = b.2.span.start ∧ a.1 = b.1) := by
    refine h.pairwise_toList.imp_of_mem fun {a b} ha _ hab => ?_
    have hshown := h.holds.shown ha
    omega
  have hdistinct : ((reach span 0 store.levels).mergeSort startsBefore).Pairwise fun a b =>
      ¬(a.2.span.start = b.2.span.start ∧ a.1 = b.1) := by
    refine (hperm.pairwise_iff fun {a b} hab hba => hab ⟨hba.1.symm, hba.2.symm⟩).2 ?_
    rw [hreach]
    exact hkeys.filter _
  -- The order of the sort: by start, and of one start by level.
  have hbefore : ∀ a b : Nat × Scope, startsBefore a b = true ↔
      a.2.span.start < b.2.span.start ∨ (a.2.span.start = b.2.span.start ∧ a.1 ≤ b.1) := by
    intro a b
    unfold startsBefore
    rw [Bool.or_eq_true, Bool.and_eq_true, decide_eq_true_eq, decide_eq_true_eq, decide_eq_true_eq]
  have hsorted : ((reach span 0 store.levels).mergeSort startsBefore).Pairwise fun a b =>
      startsBefore a b = true := by
    refine List.pairwise_mergeSort (fun a b c hab hbc => ?_) (fun a b => ?_) _
    · rw [hbefore] at hab hbc ⊢
      omega
    · rw [Bool.or_eq_true, hbefore, hbefore]
      omega
  refine (hsorted.and hdistinct).imp fun {a b} hab => ?_
  obtain ⟨hle, hne⟩ := hab
  rw [hbefore] at hle
  omega

end Sound

/-- Every query of a store that is made from a text and changed answers what a scan of its scopes
does. The global scope is the one over the whole text. The stack at an offset are the scopes that
cover it, level by level behind the global one, and its last is the topmost. The scope below another
stands before the innermost occurrence of that in the stack; it is the global one when there is no
occurrence above that. A scope is on the first level that has the same. And the scopes in a span are
those that start before it stops and stop behind its start, by start and then from outside in. -/
theorem queries_eq_scan (h : store.Reached) :
    store.globalScope = .spanning store.length ∧
    (∀ offset, store.stack offset =
        store.globalScope :: (store.toList.filter (·.2.span.covers offset)).map (·.2) ∧
      (store.toList.filter (·.2.span.covers offset)).Pairwise (·.1 < ·.1) ∧
      (store.stack offset).getLast? = some (store.topmost offset)) ∧
    (∀ scope offset,
      (∀ outer below found inner, store.stack offset = outer ++ below :: found :: inner →
        found.same scope = true → (∀ x ∈ inner, x.same scope = false) →
        store.lower scope offset = below) ∧
      ((∀ x ∈ (store.stack offset).tail, x.same scope = false) →
        store.lower scope offset = store.globalScope)) ∧
    (∀ scope, (∀ n, store.levelOf? scope = some n ↔
        (∃ x, (n, x) ∈ store.toList ∧ x.same scope = true) ∧
          ∀ m < n, ∀ x, (m, x) ∈ store.toList → x.same scope = false) ∧
      (store.levelOf? scope = none ↔ ∀ x ∈ store.toList, x.2.same scope = false)) ∧
    ∀ span, ∃ found : List (Nat × Scope),
      store.scopesIn span = store.globalScope :: found.map (·.2) ∧
        found.Perm (store.toList.filter (·.2.span.intersects span)) ∧
        found.Pairwise fun a b => a.2.span.start < b.2.span.start ∨
          (a.2.span.start = b.2.span.start ∧ a.1 < b.1) := by
  have hsound := h.sound
  refine ⟨hsound.spanned, fun offset => ⟨hsound.stack_eq offset, hsound.pairwise_covers offset,
      getLast?_stack store offset⟩, fun scope offset => ⟨?_, lower_of_not_mem⟩,
    fun scope => ⟨fun n => hsound.levelOf?_eq_some_iff, hsound.levelOf?_eq_none_iff⟩,
    hsound.scopesIn_eq⟩
  intro outer below found inner hstack hfound hinner
  exact lower_of_stack hstack hfound hinner

/-- A mark inside a scope two levels further in, with nothing on the level between them. -/
def holed : Store :=
  ⟨"abcdef", [[.plain "mark" ⟨2, 3⟩], [], [.plain "deep" ⟨1, 4⟩]], .spanning 6⟩

/-- The queries of `holed` are those of a scan, though no scope lies around the deepest. -/
theorem queries_eq_scan_holed : holed.Reached ∧
    holed.stack 2 = [.plain "GLOBAL" ⟨0, 6⟩, .plain "mark" ⟨2, 3⟩,
      .plain "deep" ⟨1, 4⟩] ∧
    holed.lower (.plain "deep" ⟨1, 4⟩) 2 = .plain "mark" ⟨2, 3⟩ ∧
    holed.levelOf? (.plain "deep" ⟨1, 4⟩) = some 2 := by
  have hreached : holed.Reached := Sound.reached (by decide)
  obtain ⟨hglobal, hstack, hlower, hlevel, -⟩ := queries_eq_scan hreached
  have hscopes : holed.stack 2 =
      [.plain "GLOBAL" ⟨0, 6⟩, .plain "mark" ⟨2, 3⟩, .plain "deep" ⟨1, 4⟩] := by
    rw [(hstack 2).1, hglobal]
    decide
  refine ⟨hreached, hscopes, ?_,
    ((hlevel _).1 2).2 ⟨⟨.plain "deep" ⟨1, 4⟩, by decide, by decide⟩, ?_⟩⟩
  · -- The level in between is empty there, so the scope below is the mark.
    exact (hlower _ 2).1 [.plain "GLOBAL" ⟨0, 6⟩] _ (.plain "deep" ⟨1, 4⟩) [] hscopes
      (by decide) (by simp)
  · -- No scope of a lower level is the same.
    have houter : ∀ x ∈ holed.toList, x.1 < 2 →
        x.2.same (.plain "deep" ⟨1, 4⟩) = false := by decide
    exact fun m hm x hx => houter (m, x) hx hm

end Store

end TextScopes
