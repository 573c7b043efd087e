import Mathlib.Data.List.Induction
import TextScopes.Proofs.Store.Layers
import TextScopes.Proofs.Store.Nesting

/-!
# What the check of a store decides

The check of a store looks at neighbours on a level, and looks up one scope of the level below. What
it decides is said here without neighbours and look-ups, in two ways (`Store.check_decides`): scope
by scope, and byte by byte.

Byte by byte the scopes of a store form towers. Over every byte the covering scopes stand on the
levels 0, 1 and so on, and each contains the next (`Store.NestedAt`). In a store without a flaw this
holds since the scope that encloses another covers its bytes, so that no level is left out below one
that covers a byte. Conversely a scope on an inner level has a byte, and the tower over it has a
scope of the level below.
-/

namespace TextScopes

/-- Ascending numbers that hold with each number the one before it are those from 0 on. -/
theorem eq_range_of_pairwise {ns : List Nat} (hsorted : ns.Pairwise (· < ·))
    (hclosed : ∀ n, n + 1 ∈ ns → n ∈ ns) : ns = List.range ns.length := by
  induction ns using List.reverseRecOn with
  | nil => rfl
  | append_singleton front last ih =>
    obtain ⟨hfront, -, hlast⟩ := List.pairwise_append.1 hsorted
    have hlast : ∀ n ∈ front, n < last := fun n hn => hlast n hn last List.mem_cons_self
    -- Each number in front follows another one in front.
    have hrange := ih hfront fun n hn => by
      have := hlast _ hn
      have hmem := hclosed n (List.mem_append_left _ hn)
      rcases List.mem_append.1 hmem with hmem | hmem
      · exact hmem
      · rw [List.mem_singleton] at hmem
        omega
    -- The last number follows those in front of it, which are all below it.
    have hlength : last = front.length := by
      have hmem : ∀ n, n ∈ front ↔ n < front.length := fun n => by
        rw [hrange, List.mem_range, List.length_range]
      have hle : front.length ≤ last := by
        by_contra hlt
        have := hlast last ((hmem last).2 (by omega))
        omega
      cases last with
      | zero => omega
      | succ n =>
        rcases List.mem_append.1 (hclosed n (by simp)) with hn | hn
        · have := (hmem n).1 hn
          omega
        · simp at hn
    rw [List.length_append, List.length_singleton, List.range_succ, ← hrange, hlength]

/-- Of entries that are numbered from 0 on each has the number of its place. -/
theorem fst_getElem_of_map_eq_range {α : Type} {xs : List (Nat × α)}
    (h : xs.map (·.1) = List.range xs.length) {i : Nat} (hi : i < xs.length) : xs[i].1 = i := by
  have hnumber : (xs.map (·.1))[i]? = some i := by
    rw [h, List.getElem?_range hi]
  rwa [List.getElem?_map, List.getElem?_eq_getElem hi, Option.map_some, Option.some.injEq]
    at hnumber

/-- Of entries that are numbered from 0 on each stands at the place of its number. -/
theorem getElem?_of_map_eq_range {α : Type} {xs : List (Nat × α)}
    (h : xs.map (·.1) = List.range xs.length) {n : Nat} {a : α} (hmem : (n, a) ∈ xs) :
    xs[n]? = some (n, a) := by
  obtain ⟨i, hi, heq⟩ := List.getElem_of_mem hmem
  have hplace : n = i := by
    rw [← fst_getElem_of_map_eq_range h hi, heq]
  rw [hplace, List.getElem?_eq_getElem hi, heq, hplace]

/-- Entries that are numbered from 0 on have one with each number below their count. -/
theorem mem_of_map_eq_range {α : Type} {xs : List (Nat × α)}
    (h : xs.map (·.1) = List.range xs.length) {i : Nat} (hi : i < xs.length) :
    (i, xs[i].2) ∈ xs := by
  have heq : (i, xs[i].2) = xs[i] := Prod.ext (fst_getElem_of_map_eq_range h hi).symm rfl
  rw [heq]
  exact List.getElem_mem hi

namespace Store

variable {store : Store} {byte : Nat}

/-- The entries that cover a byte, as the store lists them. -/
def covering (store : Store) (byte : Nat) : List (Nat × Scope) :=
  store.toList.filter (·.2.span.covers byte)

/-- The scopes that cover a byte stand on the levels from 0 on without a gap, and each contains the
next. -/
def NestedAt (store : Store) (byte : Nat) : Prop :=
  (store.covering byte).map (·.1) = List.range (store.covering byte).length ∧
    (store.covering byte).IsChain fun a b => a.2.span.contains b.2.span = true

instance (store : Store) (byte : Nat) : Decidable (store.NestedAt byte) :=
  inferInstanceAs (Decidable (_ ∧ _))

/-- A scope stands on a level just when the store lists it there. -/
theorem mem_level_iff {n : Nat} {level : Level} (hget : store.levels[n]? = some level)
    {scope : Scope} :
    scope ∈ level ↔ (n, scope) ∈ store.toList := by
  rw [mem_toList, levelAt, hget, Option.getD_some]

/-- What the store lists on a level stands there. -/
theorem exists_getElem?_of_mem {n : Nat} {scope : Scope} (h : (n, scope) ∈ store.toList) :
    ∃ level, store.levels[n]? = some level ∧ scope ∈ level := by
  have hmem := mem_toList.1 h
  rw [levelAt] at hmem
  cases hget : store.levels[n]? with
  | none =>
    rw [hget] at hmem
    cases hmem
  | some level =>
    rw [hget] at hmem
    exact ⟨level, rfl, hmem⟩

/-- A store is a forest just when its global scope spans the text, its levels are in
order, its scopes stop inside the text, and each above the outermost level lies inside one
of the level below. -/
theorem isForest_iff : store.IsForest ↔ store.globalScope.span = ⟨0, store.length⟩ ∧
    (∀ level ∈ store.levels, level.Ordered) ∧
    (∀ x ∈ store.toList, x.2.span.stop ≤ store.length) ∧ Enclosing store.toList := by
  constructor
  · rintro ⟨hspanned, hordered, hinside, henclosed⟩
    refine ⟨hspanned, hordered, fun x hx => ?_, fun n scope hmem => ?_⟩
    · obtain ⟨level, hl, hs⟩ := exists_level hx
      exact hinside level hl x.2 hs
    · obtain ⟨level, hlevel, hs⟩ := exists_getElem?_of_mem hmem
      have hn : n < store.levels.length := by
        have := (List.getElem?_eq_some_iff.1 hlevel).1
        omega
      have hbelow := List.getElem?_eq_getElem hn
      obtain ⟨parent, hp, hc⟩ := henclosed n _ level hbelow hlevel scope hs
      exact ⟨parent, (mem_level_iff hbelow).1 hp, hc⟩
  · rintro ⟨hspanned, hordered, hinside, henclosing⟩
    refine ⟨hspanned, hordered, fun level hl scope hs => ?_,
      fun n below level hbelow hlevel scope hs => ?_⟩
    · obtain ⟨n, hn⟩ := exists_mem_toList hl hs
      exact hinside _ hn
    · obtain ⟨parent, hp, hc⟩ := henclosing n scope ((mem_level_iff hlevel).1 hs)
      exact ⟨parent, (mem_level_iff hbelow).2 hp, hc⟩

/-- Spans with bytes that share none and start one behind the other follow one another. -/
theorem stop_le_start_iff {a b : Span} (ha : a.start < a.stop) (hb : b.start < b.stop) :
    a.stop ≤ b.start ↔
      a.start < b.start ∧ ¬ ∃ byte, a.covers byte = true ∧ b.covers byte = true := by
  rw [exists_covers_iff]
  omega

/-- A level is in order just when its scopes have bytes, share none and are listed by their
starts. -/
theorem ordered_iff {level : Level} : level.Ordered ↔
    (level.Pairwise fun a b => a.span.start < b.span.start ∧
      ¬ ∃ byte, a.span.covers byte = true ∧ b.span.covers byte = true) ∧
    ∀ scope ∈ level, scope.span.start < scope.span.stop := by
  constructor
  · rintro ⟨hapart, hshown⟩
    exact ⟨hapart.imp_of_mem fun ha hb hle =>
      (stop_le_start_iff (hshown _ ha) (hshown _ hb)).1 hle, hshown⟩
  · rintro ⟨hapart, hshown⟩
    exact ⟨hapart.imp_of_mem fun ha hb h =>
      (stop_le_start_iff (hshown _ ha) (hshown _ hb)).2 h, hshown⟩

/-! ### Towers over the bytes -/

/-- In a sound store the levels that cover a byte are different, and listed from outside in. -/
theorem pairwise_covering (h : store.Sound) (byte : Nat) :
    ((store.covering byte).map (·.1)).Pairwise (· < ·) := by
  rw [covering, ← layers_eq_filter h.ordered, List.pairwise_map]
  exact pairwise_layers h.ordered byte

/-- What encloses a scope covers its bytes. -/
theorem exists_covering_below (henclosing : Enclosing store.toList) {n : Nat} {scope : Scope}
    (hmem : (n + 1, scope) ∈ store.covering byte) :
    ∃ parent, (n, parent) ∈ store.covering byte ∧ parent.span.contains scope.span = true := by
  obtain ⟨hlisted, hcovers⟩ := List.mem_filter.1 hmem
  obtain ⟨parent, hp, hc⟩ := henclosing n scope hlisted
  refine ⟨parent, List.mem_filter.2 ⟨hp, ?_⟩, hc⟩
  have hcontains := (Span.contains_iff _ _).1 hc
  have hbyte := (Span.covers_iff _ _).1 hcovers
  rw [Span.covers_iff]
  dsimp only at hbyte ⊢
  omega

/-- Where scopes enclose those of the next level, they form a tower over every byte. -/
theorem nestedAt_of_enclosing (h : store.Sound) (henclosing : Enclosing store.toList) (byte : Nat) :
    store.NestedAt byte := by
  have hrange : (store.covering byte).map (·.1) = List.range (store.covering byte).length := by
    -- Under a scope that covers the byte one covers it that stands a level lower.
    have hclosed : ∀ n, n + 1 ∈ (store.covering byte).map (·.1) →
        n ∈ (store.covering byte).map (·.1) := by
      intro n hn
      obtain ⟨⟨m, scope⟩, hmem, rfl⟩ := List.mem_map.1 hn
      obtain ⟨parent, hp, -⟩ := exists_covering_below henclosing hmem
      exact List.mem_map_of_mem hp
    rw [eq_range_of_pairwise (pairwise_covering h byte) hclosed, List.length_map]
  refine ⟨hrange, List.isChain_iff_getElem.2 fun i hi => ?_⟩
  -- The scope at place `i + 1` stands on that level, and what encloses it is the one at place `i`.
  obtain ⟨parent, hp, hc⟩ := exists_covering_below henclosing (mem_of_map_eq_range hrange hi)
  obtain ⟨_, hlower⟩ := List.getElem?_eq_some_iff.1 (getElem?_of_map_eq_range hrange hp)
  rw [hlower]
  exact hc

/-- Towers over the bytes of the text say that scopes enclose those of the next level. -/
theorem enclosing_of_nestedAt (h : store.Sound)
    (hnested : ∀ byte < store.length, store.NestedAt byte) : Enclosing store.toList := by
  intro n scope hmem
  -- The scope covers its start, which is a byte of the text.
  have hshown := h.holds.shown hmem
  have hinside := h.inside _ hmem
  have hcovers : (n + 1, scope) ∈ store.covering scope.span.start :=
    List.mem_filter.2 ⟨hmem, (Span.covers_iff _ _).2 ⟨Nat.le_refl _, hshown⟩⟩
  obtain ⟨hrange, hchain⟩ := hnested scope.span.start (Nat.lt_of_lt_of_le hshown hinside)
  obtain ⟨hlt, hupper⟩ := List.getElem?_eq_some_iff.1 (getElem?_of_map_eq_range hrange hcovers)
  have hlower := mem_of_map_eq_range hrange (Nat.lt_of_succ_lt hlt)
  have hc := List.isChain_iff_getElem.1 hchain n hlt
  rw [hupper] at hc
  exact ⟨_, (List.mem_filter.1 hlower).1, hc⟩

/-- In a sound store the check finds no flaw just when the scopes form a tower over every byte. -/
theorem check_eq_none_iff_nestedAt (h : store.Sound) :
    store.check = none ↔ ∀ byte < store.length, store.NestedAt byte := by
  rw [check_eq_none_iff, isForest_iff]
  constructor
  · rintro ⟨-, -, -, henclosing⟩
    exact fun byte _ => nestedAt_of_enclosing h henclosing byte
  · intro hnested
    have hspan : store.globalScope.span = ⟨0, store.length⟩ := by
      rw [h.spanned]
      rfl
    exact ⟨hspan, h.ordered, h.inside, enclosing_of_nestedAt h hnested⟩

/-- What the check of a store decides. It finds no flaw just when the global scope spans the text,
the scopes of each level share no byte and are listed by their starts, every scope has a byte and
stops inside the text, and each above the outermost level lies inside one of the level below. Of a
store that is made from a text by adding scopes on any levels, removing some, and editing the text,
it finds none just when over every byte the covering scopes stand on the levels from 0 on without a
gap, each containing the next. -/
theorem check_decides (store : Store) :
    (store.check = none ↔
      store.globalScope.span = ⟨0, store.text.utf8ByteSize⟩ ∧
      (∀ level ∈ store.levels, level.Pairwise fun a b => a.span.start < b.span.start ∧
        ¬ ∃ byte, a.span.covers byte = true ∧ b.span.covers byte = true) ∧
      (∀ x ∈ store.toList, x.2.span.start < x.2.span.stop ∧
        x.2.span.stop ≤ store.length) ∧
      ∀ n scope, (n + 1, scope) ∈ store.toList →
        ∃ parent, (n, parent) ∈ store.toList ∧ parent.span.contains scope.span = true) ∧
    (store.Reached →
      (store.check = none ↔ ∀ byte < store.length, store.NestedAt byte)) := by
  refine ⟨?_, fun h => check_eq_none_iff_nestedAt h.sound⟩
  rw [check_eq_none_iff, isForest_iff]
  constructor
  · -- The check asks for order on each level, which says that its scopes have bytes.
    rintro ⟨hspanned, hordered, hinside, henclosing⟩
    refine ⟨hspanned, fun level hl => (ordered_iff.1 (hordered level hl)).1, fun x hx => ?_,
      henclosing⟩
    obtain ⟨level, hl, hs⟩ := exists_level hx
    exact ⟨(hordered level hl).shown x.2 hs, hinside x hx⟩
  · rintro ⟨hspanned, hapart, hscopes, henclosing⟩
    refine ⟨hspanned, fun level hl => ordered_iff.2 ⟨hapart level hl, fun scope hs => ?_⟩,
      fun x hx => (hscopes x hx).2, henclosing⟩
    obtain ⟨n, hn⟩ := exists_mem_toList hl hs
    exact (hscopes _ hn).1

/-- A scope that lies across the end of the one on the level below, and a scope with nothing
below. -/
def crossed : Store :=
  ⟨"abcdef",
    [[.plain "left" ⟨0, 3⟩], [.plain "across" ⟨2, 5⟩], [], [.plain "deep" ⟨3, 4⟩]],
    .spanning 6⟩

/-- `boxed` with a global scope that stops before the last character. -/
def stale : Store := { boxed with globalScope := .spanning 5 }

/-- `boxed` has no flaw, and two scopes over its middle, one in the other. `crossed` has one, and no
tower over some byte. `stale`, which is not made from a text, has one for its global scope alone. -/
theorem check_decides_boxed :
    (boxed.Reached ∧ boxed.check = none ∧ ∀ byte < boxed.length, boxed.NestedAt byte) ∧
    (crossed.Reached ∧ crossed.check = some (.noParent 1 (.plain "across" ⟨2, 5⟩)) ∧
      ¬ ∀ byte < crossed.length, crossed.NestedAt byte) ∧
    ¬ stale.Reached ∧ stale.check ≠ none := by
  have hcrossed : crossed.Reached := Sound.reached (by decide)
  have hflaw : crossed.check = some (.noParent 1 (.plain "across" ⟨2, 5⟩)) := by decide
  have hboxed : boxed.check = none := by decide
  refine ⟨⟨reached_boxed, hboxed, ((check_decides boxed).2 reached_boxed).1 hboxed⟩,
    ⟨hcrossed, hflaw, fun hnested => ?_⟩, fun hreached => ?_, fun hnone => ?_⟩
  · -- Nested at every byte, the scopes that cross would pass the check.
    rw [((check_decides crossed).2 hcrossed).2 hnested] at hflaw
    cases hflaw
  · -- The global scope ends before the text does, as it does after no change.
    exact absurd hreached.sound.spanned (by decide)
  · exact absurd ((check_decides stale).1.1 hnone).1 (by decide)

end Store

end TextScopes
