import TextScopes.Proofs.Store.Content
import TextScopes.Store.Flaw

/-!
# Stores without a flaw

A store is a forest when its global scope spans the text, its levels are in order, no scope
leaves the text, and every scope above the outermost level lies inside one of the level below.
`Store.check_eq_none_iff` shows that `check` finds no flaw exactly then: the checks of one
level say that it is in order, and over a level in order the look-up of a parent finds the only
scope that can be one.
-/

namespace TextScopes

namespace Store

/-- Every scope of a level lies inside one of the level below. -/
def Enclosed (below level : Level) : Prop :=
  ∀ scope ∈ level, ∃ parent ∈ below, parent.span.contains scope.span = true

/-- The global scope spans the text, the levels are in order, every scope lies inside the text, and
those above the outermost level lie inside one of the level below. -/
structure IsForest (store : Store) : Prop where
  spanned : store.globalScope.span = ⟨0, store.length⟩
  ordered : ∀ level ∈ store.levels, level.Ordered
  inside : ∀ level ∈ store.levels, ∀ scope ∈ level, scope.span.stop ≤ store.length
  enclosed : ∀ n below level, store.levels[n]? = some below →
    store.levels[n + 1]? = some level →
    Enclosed below level

/-- No two neighbours overlap exactly when the scopes follow one another, if each has a byte. -/
theorem firstOverlap?_eq_none_iff {level : Level}
    (hshown : ∀ scope ∈ level, scope.span.start < scope.span.stop) :
    firstOverlap? level = none ↔ level.Pairwise fun a b => a.span.stop ≤ b.span.start := by
  induction level with
  | nil => simp [firstOverlap?]
  | cons a level ih =>
    cases level with
    | nil => simp [firstOverlap?]
    | cons b level =>
      have hb := hshown b (by simp)
      rw [firstOverlap?, List.pairwise_cons]
      split
      · -- The first two overlap.
        next hlt =>
        refine ⟨fun h => (nomatch h), fun h => ?_⟩
        have := h.1 b List.mem_cons_self
        omega
      · -- The scopes behind the second start behind it, and so behind the first.
        next hge =>
        rw [ih fun scope hs => hshown scope (List.mem_cons_of_mem _ hs)]
        refine ⟨fun h => ⟨fun other ho => ?_, h⟩, fun h => h.2⟩
        rcases List.mem_cons.1 ho with rfl | ho
        · omega
        · have := List.rel_of_pairwise_cons h ho
          omega

/-- A scope has a parent in a level in order exactly when one of its scopes lies around it. -/
theorem hasParent_iff {below : Level} {scope : Scope} (h : below.Ordered)
    (hshown : scope.span.start < scope.span.stop) :
    hasParent below scope = true ↔
    ∃ parent ∈ below, parent.span.contains scope.span = true := by
  unfold hasParent
  constructor
  · -- The scope that covers the start is the one that is asked.
    intro hfound
    split at hfound
    · next parent hp => exact ⟨parent, (h.find?_eq_some_iff.1 hp).1, hfound⟩
    · cases hfound
  · rintro ⟨parent, hmem, hc⟩
    have hbounds := (Span.contains_iff _ _).1 hc
    -- Only one scope of the level covers the start of the scope, and that is the parent.
    have hp : below.find? scope.span.start = some parent :=
      h.find?_eq_some_iff.2 ⟨hmem, hbounds.1, by omega⟩
    rw [hp]
    exact hc

/-- A scope has no flaw exactly when it has a byte, stops inside the text and has a parent. -/
theorem scopeFlaw?_eq_none_iff {length n : Nat} {below : Option Level} {scope : Scope}
    (h : ∀ level ∈ below, level.Ordered) :
    scopeFlaw? length n below scope = none ↔
      scope.span.start < scope.span.stop ∧ scope.span.stop ≤ length ∧
        ∀ level ∈ below, ∃ parent ∈ level, parent.span.contains scope.span = true := by
  unfold scopeFlaw?
  split
  · next hbad =>
    rw [Bool.or_eq_true, decide_eq_true_eq, Span.isEmpty_iff] at hbad
    refine ⟨fun h => (nomatch h), fun ⟨h1, h2, _⟩ => ?_⟩
    omega
  · next hgood =>
    rw [Bool.or_eq_true, decide_eq_true_eq, not_or, Span.isEmpty_iff, Nat.not_le,
      Nat.not_lt] at hgood
    have hshown := hgood.1
    cases below with
    | none => simpa using hgood
    | some below =>
      have hparent := hasParent_iff (h below rfl) hshown
      simp only [ite_eq_left_iff, reduceCtorEq, imp_false, Decidable.not_not, hparent]
      exact ⟨fun hp => ⟨hgood.1, hgood.2, fun level hl => Option.some.inj hl ▸ hp⟩,
        fun ⟨_, _, hp⟩ => hp below rfl⟩

/-- A level over another one has no flaw of its own exactly when it is in order, inside the text and
inside the one below. -/
theorem own_flaws_eq_none_iff {length n : Nat} {below : Option Level} {level : Level}
    (h : ∀ lower ∈ below, lower.Ordered) :
    firstOverlap? level = none ∧ level.findSome? (scopeFlaw? length n below) = none ↔
      level.Ordered ∧ (∀ scope ∈ level, scope.span.stop ≤ length) ∧
        ∀ lower ∈ below, Enclosed lower level := by
  rw [List.findSome?_eq_none_iff]
  constructor
  · -- Each scope has a byte, so that all scopes are apart when neighbours are.
    rintro ⟨hoverlap, hscopes⟩
    have hflaw := fun scope hs => (scopeFlaw?_eq_none_iff h).1 (hscopes scope hs)
    have hshown := fun scope hs => (hflaw scope hs).1
    exact ⟨⟨(firstOverlap?_eq_none_iff hshown).1 hoverlap, hshown⟩,
      fun scope hs => (hflaw scope hs).2.1,
      fun lower hl scope hs => (hflaw scope hs).2.2 lower hl⟩
  · rintro ⟨hordered, hinside, henclosed⟩
    exact ⟨(firstOverlap?_eq_none_iff hordered.shown).2 hordered.apart,
      fun scope hs => (scopeFlaw?_eq_none_iff h).2
        ⟨hordered.shown scope hs, hinside scope hs,
          fun lower hl => henclosed lower hl scope hs⟩⟩

/-- Levels have no flaw exactly when the first has none of its own, and the others have none over
it. -/
theorem levelFlaw?_cons_eq_none_iff {length n : Nat} {below : Option Level} {level : Level}
    {levels : List Level} :
    levelFlaw? length n below (level :: levels) = none ↔
      (firstOverlap? level = none ∧ level.findSome? (scopeFlaw? length n below) = none) ∧
        levelFlaw? length (n + 1) (some level) levels = none := by
  rw [levelFlaw?]
  split
  · next hoverlap => simp [hoverlap]
  · next hoverlap =>
    split
    · next hflaw => simp [hflaw]
    · next hflaw => simp [hoverlap, hflaw]

/-- The levels over another one have no flaw exactly when they are in order, inside the text, and
each inside the one below. -/
theorem levelFlaw?_eq_none_iff {length n : Nat} {below : Option Level} {levels : List Level}
    (h : ∀ level ∈ below, level.Ordered) :
    levelFlaw? length n below levels = none ↔
      (∀ level ∈ levels, level.Ordered) ∧
        (∀ level ∈ levels, ∀ scope ∈ level, scope.span.stop ≤ length) ∧
        (∀ level ∈ below, ∀ first ∈ levels.head?, Enclosed level first) ∧
        ∀ i lower upper, levels[i]? = some lower → levels[i + 1]? = some upper →
          Enclosed lower upper := by
  induction levels generalizing n below with
  | nil => simp [levelFlaw?]
  | cons level levels ih =>
    rw [levelFlaw?_cons_eq_none_iff, own_flaws_eq_none_iff h]
    constructor
    · rintro ⟨⟨hordered, hinside, henclosed⟩, hrest⟩
      obtain ⟨h1, h2, h3, h4⟩ := (ih fun l hl => Option.some.inj hl ▸ hordered).1 hrest
      refine ⟨List.forall_mem_cons.2 ⟨hordered, h1⟩, List.forall_mem_cons.2 ⟨hinside, h2⟩,
        fun lower hl first hf => Option.some.inj hf ▸ henclosed lower hl,
          fun i lower upper hl hu => ?_⟩
      -- The level lies over the first one or over one of the others.
      cases i with
      | zero =>
        obtain rfl := Option.some.inj hl
        refine h3 level rfl upper ?_
        rw [List.head?_eq_getElem?]
        exact hu
      | succ i => exact h4 i lower upper hl hu
    · rintro ⟨hordered, hinside, henclosed, hlevels⟩
      have hordered' := List.forall_mem_cons.1 hordered
      have hinside' := List.forall_mem_cons.1 hinside
      refine ⟨⟨hordered'.1, hinside'.1, fun lower hl => henclosed lower hl level rfl⟩, ?_⟩
      refine (ih fun l hl => Option.some.inj hl ▸ hordered'.1).2
        ⟨hordered'.2, hinside'.2, ?_, ?_⟩
      · intro lower hl first hf
        obtain rfl := Option.some.inj hl
        rw [List.head?_eq_getElem?] at hf
        exact hlevels 0 level first rfl hf
      · exact fun i lower upper hl hu => hlevels (i + 1) lower upper hl hu

/-- A store has no flaw exactly when it is a forest. -/
theorem check_eq_none_iff {store : Store} : store.check = none ↔ store.IsForest := by
  unfold check
  split
  · -- The first look is at the global scope.
    next hspan => exact ⟨fun h => (nomatch h), fun h => absurd h.spanned hspan⟩
  · next hspan =>
    have hspan : store.globalScope.span = ⟨0, store.length⟩ := Decidable.not_not.1 hspan
    rw [levelFlaw?_eq_none_iff (by simp)]
    constructor
    · rintro ⟨hordered, hinside, -, henclosed⟩
      exact ⟨hspan, hordered, hinside, henclosed⟩
    · rintro ⟨-, hordered, hinside, henclosed⟩
      exact ⟨hordered, hinside, by simp, henclosed⟩

/-- A store is a forest when its entries lie inside the text and each above the outermost level lies
inside one of the level below. -/
theorem Holds.isForest {store : Store} {text : String} {entries : List (Nat × Scope)}
    (h : store.Holds text entries)
    (hinside : ∀ x ∈ entries, x.2.span.stop ≤ text.utf8ByteSize)
    (henclosed : ∀ n scope, (n + 1, scope) ∈ entries →
      ∃ parent, (n, parent) ∈ entries ∧ parent.span.contains scope.span = true) :
    store.IsForest := by
  -- A scope stands on a level when it is among the entries of that level.
  have hentry : ∀ {n : Nat} {level : Level} {scope : Scope}, store.levels[n]? = some level →
      (scope ∈ level ↔ (n, scope) ∈ entries) := by
    intro n level scope hget
    rw [← h.perm.mem_iff, mem_toList, levelAt, hget]
    rfl
  refine ⟨?_, h.ordered, fun level hl scope hs => ?_,
    fun n below level hbelow hlevel scope hs => ?_⟩
  · rw [h.spanned, length, h.text_eq]
    rfl
  · obtain ⟨n, hn⟩ := List.mem_iff_getElem?.1 hl
    have := hinside _ ((hentry hn).1 hs)
    rw [length, h.text_eq]
    exact this
  · obtain ⟨parent, hp, hc⟩ := henclosed n scope ((hentry hlevel).1 hs)
    exact ⟨parent, (hentry hbelow).2 hp, hc⟩

end Store

end TextScopes
