import Mathlib.Logic.Relation
import TextScopes.Proofs.Store.Change

/-!
# Stores whose scopes lie inside their text

A store is sound when its global scope spans the text, its levels are in order, none at the end is
empty, and no scope reaches behind the text. A text without scopes is sound, and every operation
that a store offers leaves a sound store sound: `Store.Change` lists them, with what each asks of
its input (`Store.Sound.change`). What is asked is little, so that soundness also holds of stores
whose scopes do not lie inside one another. And every sound store can be made so
(`Store.Sound.reached`): its scopes are in nobody's way when they are added on their levels.

Of a sound store the entries outside a span are known from their number and kind alone: if they are
the same in some order then they are the same list (`Store.Sound.outside_eq`).
-/

namespace TextScopes

namespace Store

/-- The scopes with their levels that do not lie within a span. -/
def outside (store : Store) (span : Span) : List (Nat × Scope) :=
  store.toList.filter fun x => !span.contains x.2.span

/-- The global scope spans the text, the levels are in order, none at the end is empty, and no scope
reaches behind the text. -/
structure Sound (store : Store) : Prop where
  spanned : store.globalScope = .spanning store.length
  ordered : ∀ level ∈ store.levels, level.Ordered
  trimmed : Trimmed store.levels
  inside : ∀ x ∈ store.toList, x.2.span.stop ≤ store.length

instance (store : Store) : Decidable store.Sound :=
  decidable_of_iff (store.globalScope = .spanning store.length ∧
      (∀ level ∈ store.levels, level.Ordered) ∧ Trimmed store.levels ∧
        ∀ x ∈ store.toList, x.2.span.stop ≤ store.length)
    ⟨fun h => ⟨h.1, h.2.1, h.2.2.1, h.2.2.2⟩,
      fun h => ⟨h.spanned, h.ordered, h.trimmed, h.inside⟩⟩

/-- What can be done to a store: a scope inside the text is added, the text is edited where the edit
fits, the scopes in a span are removed, or the scopes above the global one are given other names and
attributes in place. -/
inductive Change (store : Store) : Store → Prop
  | add (scope : Scope) (level : Nat)
    (inside : scope.span.isEmpty = false → scope.span.stop ≤ store.length) :
    Change store (store.add scope level)
  | apply {edit : Edit} (fits : edit.fits store.text = true) : Change store (store.apply edit)
  | removeScopes (span : Span) : Change store (store.removeScopes span).2
  | relabel {store' : Store} (text : store'.text = store.text)
    (global : store'.globalScope = store.globalScope)
    (spans : store'.levels.map (·.map (·.span)) = store.levels.map (·.map (·.span))) :
    Change store store'

/-- A scope of a level has its level's number in the store. -/
theorem exists_mem_toList {store : Store} {level : Level} (hl : level ∈ store.levels)
    {scope : Scope} (hs : scope ∈ level) : ∃ n, (n, scope) ∈ store.toList := by
  obtain ⟨n, hn, rfl⟩ := List.getElem_of_mem hl
  refine ⟨n, mem_toList.2 ?_⟩
  rw [levelAt, List.getElem?_eq_getElem hn]
  exact hs

/-- A scope of a store is on one of its levels. -/
theorem exists_level {store : Store} {x : Nat × Scope} (hx : x ∈ store.toList) :
    ∃ level ∈ store.levels, x.2 ∈ level := by
  have hmem := mem_toList.1 hx
  rcases levelAt_mem_or store.levels x.1 with hl | hnil
  · exact ⟨_, hl, hmem⟩
  · rw [hnil] at hmem
    cases hmem

/-- The entries of levels in order are listed level by level, and in order on each. -/
theorem pairwise_number {levels : List Level} (h : ∀ level ∈ levels, level.Ordered) (n : Nat) :
    (number n levels).Pairwise fun a b =>
      a.1 < b.1 ∨ (a.1 = b.1 ∧ a.2.span.stop ≤ b.2.span.start) := by
  induction levels generalizing n with
  | nil => exact .nil
  | cons level levels ih =>
    obtain ⟨hlevel, hlevels⟩ := List.forall_mem_cons.1 h
    refine List.pairwise_append.2 ⟨?_, ih hlevels (n + 1), fun a ha b hb => .inl ?_⟩
    · exact List.pairwise_map.2 (hlevel.apart.imp fun hle => .inr ⟨rfl, hle⟩)
    · obtain ⟨scope, -, rfl⟩ := List.mem_map.1 ha
      exact le_of_mem_number hb

namespace Holds

variable {store : Store} {text : String} {entries : List (Nat × Scope)}

/-- A store that holds scopes inside its text is sound. -/
theorem sound (h : store.Holds text entries)
    (hinside : ∀ x ∈ entries, x.2.span.stop ≤ text.utf8ByteSize) : store.Sound := by
  refine ⟨?_, h.ordered, h.trimmed, fun x hx => ?_⟩
  · rw [h.spanned, length, h.text_eq]
  · rw [length, h.text_eq]
    exact hinside x (h.perm.mem_iff.1 hx)

end Holds

namespace Sound

variable {store store' : Store}

/-- A sound store holds what it lists. -/
theorem holds (h : store.Sound) : store.Holds store.text store.toList :=
  ⟨rfl, h.spanned, h.ordered, h.trimmed, .refl _⟩

/-- The scopes of a sound store are listed level by level, and in order on each. -/
theorem pairwise_toList (h : store.Sound) : store.toList.Pairwise fun a b =>
    a.1 < b.1 ∨ (a.1 = b.1 ∧ a.2.span.stop ≤ b.2.span.start) := pairwise_number h.ordered 0

/-- A text without scopes is sound. -/
theorem ofText (text : String) : (Store.ofText text).Sound :=
  (Holds.ofText text).sound (by simp)

/-- The entries outside a span are what is left when those inside it are removed. -/
theorem toList_removeScopes (h : store.Sound) (span : Span) :
    (store.removeScopes span).2.toList = store.outside span := by
  rw [removeScopes_snd h.ordered, toList, number_trim, number_filterMap, filterMap_guard]
  rfl

/-- Nothing lies outside the text. -/
theorem outside_length (h : store.Sound) : store.outside ⟨0, store.length⟩ = [] := by
  refine List.filter_eq_nil_iff.2 fun x hx => ?_
  have hin : Span.contains ⟨0, store.length⟩ x.2.span = true :=
    (Span.contains_iff _ _).2 ⟨Nat.zero_le _, h.inside x hx⟩
  simp [hin]

/-- Sound stores that have the same entries outside a span list them in the same order. -/
theorem outside_eq (h : store.Sound) (h' : store'.Sound) {span : Span}
    (hperm : (store.outside span).Perm (store'.outside span)) :
    store.outside span = store'.outside span := by
  have h1 := h.holds.removeScopes span
  have h2 := h'.holds.removeScopes span
  -- What the removals leave would be one store if the texts were the same.
  have hlevels : ({ store with levels := (store.removeScopes span).2.levels } : Store) =
      { store with levels := (store'.removeScopes span).2.levels } :=
    Holds.eq ⟨rfl, h.spanned, h1.ordered, h1.trimmed, h1.perm⟩
      ⟨rfl, h.spanned, h2.ordered, h2.trimmed, h2.perm.trans hperm.symm⟩
  rw [← h.toList_removeScopes, ← h'.toList_removeScopes, toList, toList,
    (Store.mk.inj hlevels).2.1]

/-- Removing scopes leaves a store sound. -/
theorem removeScopes (h : store.Sound) (span : Span) : (store.removeScopes span).2.Sound :=
  (h.holds.removeScopes span).sound fun x hx => h.inside x (List.mem_filter.1 hx).1

/-- Adding a scope that does not reach behind the text puts it on some level, if it has a byte. -/
theorem add (h : store.Sound) {scope : Scope} (level : Nat)
    (hinside : scope.span.isEmpty = false → scope.span.stop ≤ store.length) :
    (store.add scope level).Sound ∧ ∃ added : List (Nat × Scope),
      (∀ x ∈ added, x.2 = scope) ∧
      (store.add scope level).toList.Perm (added ++ store.toList) := by
  unfold Store.add
  split
  · exact ⟨h, [], by simp, .refl _⟩
  · next hne =>
    have hne : scope.span.isEmpty = false := Bool.not_eq_true _ ▸ hne
    have hshown : scope.span.start < scope.span.stop := by
      refine Nat.lt_of_not_le fun hle => ?_
      rw [(Span.isEmpty_iff _).2 hle] at hne
      cases hne
    -- The scope goes to some level, as one new entry.
    obtain ⟨m, -, hplaced⟩ := place_spec (n := level) h.ordered hshown
    have hperm := hplaced.perm 0
    rw [Nat.zero_add] at hperm
    refine ⟨⟨h.spanned, hplaced.ordered, hplaced.trimmed h.trimmed, fun x hx => ?_⟩,
      [(m, scope)], by simp, hperm⟩
    rcases List.mem_cons.1 (hperm.mem_iff.1 hx) with rfl | hx
    · exact hinside hne
    · exact h.inside x hx

/-- Removing the scope at a place leaves a store sound, with one entry less. -/
theorem removeAt? (h : store.Sound) {n start : Nat} {scope : Scope}
    (hremove : store.removeAt? n start = some (scope, store')) :
    store'.Sound ∧ store.toList.Perm ((n, scope) :: store'.toList) := by
  obtain ⟨hordered, htrimmed, hperm⟩ := removeAt?_eq_some h.ordered hremove
  obtain ⟨_, _, -, -, rfl⟩ := removeAt?_eq_some_iff.1 hremove
  exact ⟨⟨h.spanned, hordered, htrimmed, fun x hx =>
    h.inside x (hperm.mem_iff.2 (List.mem_cons_of_mem _ hx))⟩, hperm⟩

/-- Editing the text leaves a store sound. -/
theorem apply (h : store.Sound) {edit : Edit} (hfits : edit.fits store.text = true) :
    (store.apply edit).Sound := by
  refine (h.holds.apply hfits).sound fun x hx => ?_
  obtain ⟨y, hy, hcarry⟩ := List.mem_filterMap.1 hx
  obtain ⟨scope, hscope, rfl⟩ := Option.map_eq_some_iff.1 hcarry
  obtain ⟨-, rfl⟩ :=
    (Edit.carry?_eq_some_iff (Edit.start_le_stopBefore hfits) (h.holds.shown hy)).1 hscope
  exact Edit.shiftStop_le hfits (h.inside y hy)

/-- Other names and attributes leave a store sound. -/
theorem relabel (h : store.Sound) (htext : store'.text = store.text)
    (hglobal : store'.globalScope = store.globalScope)
    (hspans : store'.levels.map (·.map (·.span)) = store.levels.map (·.map (·.span))) :
    store'.Sound := by
  -- Each level has the spans of a level of before.
  have hlevel : ∀ level ∈ store'.levels, ∃ old ∈ store.levels,
      old.map (·.span) = level.map (·.span) := by
    intro level hl
    have hmem : level.map (·.span) ∈ store'.levels.map (·.map (·.span)) :=
      List.mem_map_of_mem hl
    rwa [hspans, List.mem_map] at hmem
  refine ⟨?_, fun level hl => ?_, fun hlast => h.trimmed ?_, fun x hx => ?_⟩
  · rw [hglobal, h.spanned, length, length, htext]
  · obtain ⟨old, ho, heq⟩ := hlevel level hl
    rw [Level.ordered_iff_spans, ← heq, ← Level.ordered_iff_spans]
    exact h.ordered old ho
  · -- The last level is empty only if it was.
    have hlast' := congrArg List.getLast? hspans
    rw [List.getLast?_map, List.getLast?_map, hlast] at hlast'
    obtain ⟨old, ho, heq⟩ := Option.map_eq_some_iff.1 hlast'.symm
    rw [ho, List.map_eq_nil_iff.1 heq]
  · -- The span is one of before, which stops inside the same text.
    obtain ⟨level, hl, hs⟩ := exists_level hx
    obtain ⟨old, ho, heq⟩ := hlevel level hl
    have hspan : x.2.span ∈ old.map (·.span) := heq ▸ List.mem_map_of_mem hs
    obtain ⟨scope, hscope, hsame⟩ := List.mem_map.1 hspan
    obtain ⟨n, hn⟩ := exists_mem_toList ho hscope
    rw [← hsame, length, htext]
    exact h.inside _ hn

/-- Whatever is done to a sound store leaves it sound. -/
theorem change (h : store.Sound) (hchange : store.Change store') : store'.Sound := by
  cases hchange with
  | add scope level inside => exact (h.add level inside).1
  | apply fits => exact h.apply fits
  | removeScopes span => exact h.removeScopes span
  | relabel text global spans => exact h.relabel text global spans

end Sound

/-- A store that is made from a text without scopes, by any number of changes. -/
def Reached (store : Store) : Prop := ∃ text, Relation.ReflTransGen Change (ofText text) store

/-- A store that is made from a text and changed is sound. -/
theorem Reached.sound {store : Store} (h : store.Reached) : store.Sound := by
  obtain ⟨text, hchanges⟩ := h
  -- The induction is on the changes, each of which leaves a sound store sound.
  induction hchanges with
  | refl => exact .ofText text
  | tail _ hchange ih => exact ih.change hchange

/-- A sound store can be made from its text, by adding its scopes one by one on their levels. -/
theorem Sound.reached {store : Store} (h : store.Sound) : store.Reached := by
  have hmake : ∀ entries, entries.Sublist store.toList → ∃ made,
      Relation.ReflTransGen Change (Store.ofText store.text) made ∧
      made.Holds store.text entries := by
    -- The entries of the store are added one by one, in their own order.
    intro entries
    induction entries with
    | nil => exact fun _ => ⟨_, .refl, .ofText store.text⟩
    | cons x entries ih =>
      intro hsub
      obtain ⟨n, scope⟩ := x
      obtain ⟨made, hchanges, hmade⟩ := ih ((List.sublist_cons_self _ _).trans hsub)
      have hmem : (n, scope) ∈ store.toList := hsub.subset List.mem_cons_self
      have hshown := h.holds.shown hmem
      refine ⟨made.add scope n, hchanges.tail (.add scope n fun _ => ?_),
        hmade.add hshown fun other ho => ?_⟩
      · have := h.inside _ hmem
        rwa [length, hmade.text_eq]
      · -- No two entries of a level are the same, so the one that is added is in nobody's way.
        rcases List.rel_of_pairwise_cons (h.pairwise_toList.sublist hsub) ho with hlt | ⟨-, hle⟩
        · exact absurd hlt (Nat.lt_irrefl n)
        · exact .inr hle
  obtain ⟨made, hchanges, hmade⟩ := hmake store.toList (.refl _)
  obtain rfl : made = store := hmade.eq h.holds
  exact ⟨_, hchanges⟩

/-- A scope inside another one, with a byte of that on both sides. -/
def boxed : Store :=
  ⟨"abcdef", [[.plain "outer" ⟨1, 5⟩], [.plain "inner" ⟨2, 4⟩]], .spanning 6⟩

/-- `boxed` can be made from its text. -/
theorem reached_boxed : boxed.Reached := Sound.reached (by decide)

end Store

end TextScopes
