import TextScopes.Proofs.Store.Forest
import TextScopes.Proofs.Store.Sound

/-!
# Stores that stay nested

A store is made from a text and then changed by operations: its text is edited, the scopes in a
span are removed, and scopes are added at the top. `Operation.Allowed` says what is asked of an
operation where it is applied, of a scope that is added that it lies inside every stored scope with
which it shares a byte.

Along a run of such operations the store stays a forest (`Store.Nested.perform`). An edit carries
over what encloses a scope with it, since both ends keep their order. A span that holds what
encloses a scope holds the scope too, so that no scope loses it. An added scope goes to the first
level where it is in nobody's way, and the scope of the level below that is in its way encloses it
(`Store.place_first`). Nor does any operation move an end of a scope off the characters
(`Store.Aligned.perform`).
-/

namespace TextScopes

namespace Store

variable {store : Store} {text : String} {entries : List (Nat × Scope)}

/-- What is done to a store after it has been made from a text. -/
inductive Operation where
  /-- An edit of the text. -/
  | edit (edit : Edit)
  /-- The removal of the scopes that lie in a span. -/
  | remove (span : Span)
  /-- The addition of a scope as far out as it collides with none. -/
  | add (scope : Scope)
  deriving DecidableEq, Repr

/-- The store after an operation. -/
def perform (store : Store) : Operation → Store
  | .edit edit => store.apply edit
  | .remove span => (store.removeScopes span).2
  | .add scope => store.addAtTop scope

/-- The store after some operations. -/
def run (store : Store) (operations : List Operation) : Store := operations.foldl perform store

/-- What is asked of an operation on a store: an edit fits the text; a scope that is added stops
inside the text, and lies inside every stored scope with which it shares a byte. -/
def Allowed (store : Store) : Operation → Prop
  | .edit edit => edit.fits store.text = true
  | .remove _ => True
  | .add scope => scope.span.stop ≤ store.length ∧
      ∀ x ∈ store.toList, (∃ byte, x.2.span.covers byte = true ∧
        scope.span.covers byte = true) →
        x.2.span.contains scope.span = true

/-- Two spans share a byte when the later start lies before the earlier stop. -/
theorem exists_covers_iff (a b : Span) :
    (∃ byte, a.covers byte = true ∧ b.covers byte = true) ↔
      max a.start b.start < min a.stop b.stop := by
  simp only [Span.covers_iff]
  constructor
  · rintro ⟨byte, ha, hb⟩
    omega
  · exact fun h => ⟨max a.start b.start, by omega⟩

instance (store : Store) : ∀ operation, Decidable (store.Allowed operation)
  | .edit edit => inferInstanceAs (Decidable (edit.fits store.text = true))
  | .remove _ => inferInstanceAs (Decidable True)
  | .add scope => decidable_of_iff (scope.span.stop ≤ store.length ∧ ∀ x ∈ store.toList,
      max x.2.span.start scope.span.start < min x.2.span.stop scope.span.stop →
        x.2.span.contains scope.span = true) <| by simp only [Allowed, exists_covers_iff]

/-- The ends of a scope that is added lie between characters. -/
def AddsAligned (store : Store) : Operation → Prop
  | .add scope => Text.isBoundary store.text scope.span.start = true ∧
      Text.isBoundary store.text scope.span.stop = true
  | _ => True

instance (store : Store) : ∀ operation, Decidable (store.AddsAligned operation)
  | .edit _ => inferInstanceAs (Decidable True)
  | .remove _ => inferInstanceAs (Decidable True)
  | .add scope => inferInstanceAs (Decidable (Text.isBoundary store.text scope.span.start = true ∧
      Text.isBoundary store.text scope.span.stop = true))

/-- Something is so of every operation of a run, on the store to which it is applied. -/
def Along (p : Store → Operation → Prop) : Store → List Operation → Prop
  | _, [] => True
  | store, operation :: operations =>
    p store operation ∧ Along p (store.perform operation) operations

instance Along.decidable {p : Store → Operation → Prop}
    [∀ store operation, Decidable (p store operation)] :
    ∀ (store : Store) (operations : List Operation), Decidable (Along p store operations)
  | _, [] => inferInstanceAs (Decidable True)
  | store, operation :: operations =>
    have := Along.decidable (p := p) (store.perform operation) operations
    inferInstanceAs (Decidable (_ ∧ _))

/-- What is so along a run is so along each front part of it. -/
theorem Along.front {p : Store → Operation → Prop} {front back : List Operation}
    (h : Along p store (front ++ back)) : Along p store front := by
  induction front generalizing store with
  | nil => trivial
  | cons operation front ih => exact ⟨h.1, ih h.2⟩

/-- Two things that are so along a run are so together. -/
theorem Along.and {p q : Store → Operation → Prop} {operations : List Operation}
    (hp : Along p store operations) (hq : Along q store operations) :
    Along (fun store operation => p store operation ∧ q store operation) store operations := by
  induction operations generalizing store with
  | nil => trivial
  | cons operation operations ih => exact ⟨⟨hp.1, hq.1⟩, ih hp.2 hq.2⟩

/-- What operations keep, when something is so of each, is kept along a run. -/
theorem Along.induction {p : Store → Operation → Prop} {q : Store → Prop}
    (hkeep : ∀ store operation, q store → p store operation → q (store.perform operation))
    {operations : List Operation} (h : Along p store operations) (hstore : q store) :
    q (store.run operations) := by
  induction operations generalizing store with
  | nil => exact hstore
  | cons operation operations ih => exact ih h.2 (hkeep store operation hstore h.1)

/-- Every scope above the outermost level lies inside one of the level below. -/
def Enclosing (entries : List (Nat × Scope)) : Prop :=
  ∀ n scope, (n + 1, scope) ∈ entries →
    ∃ parent, (n, parent) ∈ entries ∧ parent.span.contains scope.span = true

/-- A sound store in which every scope above the outermost level lies inside one of the level
below. -/
structure Nested (store : Store) : Prop where
  sound : store.Sound
  enclosing : Enclosing store.toList

/-- Both ends of every scope lie between characters. -/
def Aligned (store : Store) : Prop :=
  ∀ x ∈ store.toList, Text.isBoundary store.text x.2.span.start = true ∧
    Text.isBoundary store.text x.2.span.stop = true

/-- The order of the entries is nothing to what encloses what. -/
theorem Enclosing.perm {entries' : List (Nat × Scope)} (h : Enclosing entries)
    (hperm : entries.Perm entries') : Enclosing entries' := by
  intro n scope hmem
  obtain ⟨parent, hparent, hcontains⟩ := h n scope (hperm.mem_iff.2 hmem)
  exact ⟨parent, hperm.mem_iff.1 hparent, hcontains⟩

/-- An edit carries over what encloses a scope with the scope. -/
theorem Enclosing.carry {edit : Edit} (h : Enclosing entries) (hle : edit.start ≤ edit.stopBefore)
    (hshown : ∀ x ∈ entries, x.2.span.start < x.2.span.stop) :
    Enclosing (entries.filterMap fun x => (edit.carry? x.2).map fun scope => (x.1, scope)) := by
  intro n new hnew
  obtain ⟨⟨m, scope⟩, hscope, hcarried⟩ := List.mem_filterMap.1 hnew
  obtain ⟨_, hcarry, heq⟩ := Option.map_eq_some_iff.1 hcarried
  obtain ⟨rfl, rfl⟩ := Prod.mk.inj heq
  obtain ⟨parent, hparent, hcontains⟩ := h n scope hscope
  obtain ⟨hstart, hstop⟩ := (Span.contains_iff _ _).1 hcontains
  obtain ⟨hlt, rfl⟩ := (Edit.carry?_eq_some_iff hle (hshown _ hscope)).1 hcarry
  -- The ends of the scope are carried to between those of what encloses it.
  have hstart' := edit.shift_mono hstart
  have hstop' := edit.shiftStop_mono hstop
  refine ⟨parent.withSpan ⟨edit.shift parent.span.start, edit.shiftStop parent.span.stop⟩,
    List.mem_filterMap.2 ⟨(n, parent), hparent, ?_⟩,
      (Span.contains_iff _ _).2 ⟨hstart', hstop'⟩⟩
  rw [Edit.carry?_eq hle (hshown _ hparent),
    if_pos (Nat.lt_of_le_of_lt hstart' (Nat.lt_of_lt_of_le hlt hstop'))]
  rfl

/-- What encloses a scope is not removed before the scope. -/
theorem Enclosing.remove (h : Enclosing entries) (span : Span) :
    Enclosing (entries.filter fun x => !span.contains x.2.span) := by
  intro n scope hmem
  obtain ⟨hscope, hkept⟩ := List.mem_filter.1 hmem
  obtain ⟨parent, hparent, hcontains⟩ := h n scope hscope
  refine ⟨parent, List.mem_filter.2 ⟨hparent, ?_⟩, hcontains⟩
  -- A span around what encloses the scope is one around the scope.
  have hround : span.contains parent.span = true → span.contains scope.span = true := by
    simp only [Span.contains_iff] at hcontains ⊢
    omega
  have hout : span.contains scope.span = false := by simpa using hkept
  have hparent : ¬span.contains parent.span = true := fun hin => by
    rw [hround hin] at hout
    cases hout
  simpa using hparent

/-- A scope that is added at the top goes to the first level on which it collides with none. -/
theorem place_first {scope : Scope} {levels : List Level}
    (hordered : ∀ level ∈ levels, level.Ordered) (hshown : scope.span.start < scope.span.stop) :
    ∃ m, (∀ k < m, (levelAt levels k).collides scope.span = true) ∧
      (levelAt levels m).collides scope.span = false ∧
      Placed scope m levels (place scope 0 levels) := by
  induction levels with
  | nil =>
    obtain ⟨m, hm, hplaced⟩ := place_spec hordered hshown
    obtain rfl : m = 0 := hm rfl
    exact ⟨0, by simp, rfl, hplaced⟩
  | cons level levels ih =>
    by_cases hcollides : level.collides scope.span = true
    · -- On a level that is in the way the search goes on.
      obtain ⟨hlevel, hlevels⟩ := List.forall_mem_cons.1 hordered
      obtain ⟨m, hbelow, hfree, hplaced⟩ := ih hlevels
      rw [place, if_pos hcollides]
      refine ⟨m + 1, fun k hk => ?_, hfree, hplaced.cons hlevel (place_ne_nil _ _ _)⟩
      cases k with
      | zero => exact hcollides
      | succ k => exact hbelow k (Nat.lt_of_succ_lt_succ hk)
    · -- A level that is not in the way takes the scope.
      obtain ⟨m, hm, hplaced⟩ := place_spec hordered hshown
      have hfree : level.collides scope.span = false := Bool.not_eq_true _ ▸ hcollides
      obtain rfl : m = 0 := hm hfree
      exact ⟨0, by simp, hfree, hplaced⟩

/-- A scope in whose way a level is shares a byte with a scope of the level. -/
theorem exists_covers_of_collides {level : Level} (h : level.Ordered) {scope : Scope}
    (hshown : scope.span.start < scope.span.stop) (hcollides : level.collides scope.span = true) :
    ∃ other ∈ level, ∃ byte, other.span.covers byte = true ∧
      scope.span.covers byte = true := by
  by_contra hnone
  have hfree : level.collides scope.span = false := by
    refine h.collides_eq_false_iff.2 fun other hother => ?_
    have hothershown := h.shown other hother
    by_contra hboth
    exact hnone ⟨other, hother, (exists_covers_iff _ _).2 (by omega)⟩
  rw [hcollides] at hfree
  cases hfree

namespace Nested

/-- A text without scopes is nested. -/
theorem ofText (text : String) : (Store.ofText text).Nested :=
  ⟨.ofText text, fun _ _ hmem => by cases hmem⟩

/-- A nested store is a forest. -/
theorem isForest (h : store.Nested) : store.IsForest :=
  h.sound.holds.isForest h.sound.inside h.enclosing

/-- Adding a scope inside what is in its way leaves a store nested. -/
theorem add (h : store.Nested) {scope : Scope} (hallowed : store.Allowed (.add scope)) :
    (store.addAtTop scope).Nested := by
  obtain ⟨hinside, hway⟩ := hallowed
  refine ⟨(h.sound.add 0 fun _ => hinside).1, ?_⟩
  unfold addAtTop Store.add
  split
  next => exact h.enclosing
  next hne =>
    have hshown : scope.span.start < scope.span.stop := by
      rw [Span.isEmpty_iff] at hne
      omega
    obtain ⟨m, hbelow, -, hplaced⟩ := place_first h.sound.ordered hshown
    have hperm := hplaced.perm 0
    rw [Nat.zero_add] at hperm
    refine Enclosing.perm (fun n other hother => ?_) hperm.symm
    rcases List.mem_cons.1 hother with heq | hother
    · -- The level below is in the way of the scope, and so encloses it.
      obtain ⟨rfl, rfl⟩ := Prod.mk.inj heq
      obtain ⟨parent, hparent, hshares⟩ := exists_covers_of_collides
        (h.sound.holds.ordered_levelAt n) hshown (hbelow n (Nat.lt_succ_self n))
      have hmem : (n, parent) ∈ store.toList := mem_toList.2 hparent
      exact ⟨parent, List.mem_cons_of_mem _ hmem, hway _ hmem hshares⟩
    · -- The scopes of before keep what encloses them.
      obtain ⟨parent, hparent, hcontains⟩ := h.enclosing n other hother
      exact ⟨parent, List.mem_cons_of_mem _ hparent, hcontains⟩

/-- An allowed operation leaves a store nested. -/
theorem perform {operation : Operation} (h : store.Nested) (hallowed : store.Allowed operation) :
    (store.perform operation).Nested := by
  have hholds := h.sound.holds
  cases operation with
  | edit edit =>
    -- What encloses a scope moves with it, and is not emptied before it.
    have hle := Edit.start_le_stopBefore hallowed
    exact ⟨h.sound.apply hallowed,
      (h.enclosing.carry hle fun x hx => hholds.shown hx).perm (hholds.apply hallowed).perm.symm⟩
  | remove span =>
    exact ⟨h.sound.removeScopes span,
      (h.enclosing.remove span).perm (hholds.removeScopes span).perm.symm⟩
  | add scope => exact h.add hallowed

end Nested

namespace Aligned

/-- A text without scopes has no end of a scope inside a character. -/
theorem ofText (text : String) : (Store.ofText text).Aligned := fun _ hmem => by cases hmem

/-- An allowed operation leaves the ends of scopes between characters, when it adds none inside
one. -/
theorem perform {operation : Operation} (h : store.Aligned) (hsound : store.Sound)
    (hallowed : store.Allowed operation) (hadds : store.AddsAligned operation) :
    (store.perform operation).Aligned := by
  cases operation with
  | edit edit =>
    -- The edit carries boundaries to boundaries.
    have hfits : edit.fits store.text = true := hallowed
    intro x hx
    have htext : (store.apply edit).text = edit.apply store.text := text_apply store edit
    show Text.isBoundary (store.apply edit).text _ = true ∧
      Text.isBoundary (store.apply edit).text _ = true
    rw [htext]
    obtain ⟨y, hy, hcarried⟩ :=
      List.mem_filterMap.1 ((hsound.holds.apply hfits).perm.mem_iff.1 hx)
    obtain ⟨scope, hcarry, rfl⟩ := Option.map_eq_some_iff.1 hcarried
    obtain ⟨-, rfl⟩ :=
      (Edit.carry?_eq_some_iff (Edit.start_le_stopBefore hfits) (hsound.holds.shown hy)).1 hcarry
    obtain ⟨hstart, hstop⟩ := h y hy
    exact ⟨Edit.isBoundary_shift hfits hstart, Edit.isBoundary_shiftStop hfits hstop⟩
  | remove span =>
    intro x hx
    exact h x (List.mem_filter.1 ((hsound.holds.removeScopes span).perm.mem_iff.1 hx)).1
  | add scope =>
    obtain ⟨hinside, -⟩ := hallowed
    obtain ⟨-, added, hadded, hperm⟩ := hsound.add 0 fun _ => hinside
    intro x hx
    have htext : (store.addAtTop scope).text = store.text := by
      unfold addAtTop Store.add
      split <;> rfl
    show Text.isBoundary (store.addAtTop scope).text _ = true ∧
      Text.isBoundary (store.addAtTop scope).text _ = true
    rw [htext]
    -- Only the scope that is added is new.
    rcases List.mem_append.1 (hperm.mem_iff.1 hx) with hnew | hold
    · rw [hadded x hnew]
      exact hadds
    · exact h x hold

end Aligned

/-- A store that is made from a text is a forest after any of the operations of a run that are
allowed, so that the check finds no flaw, and its global scope spans the text of then. When the
scopes that are added end between characters, so do all scopes of the store after each operation. -/
theorem check_run {text : String} {operations : List Operation}
    (hallowed : Along Allowed (ofText text) operations) :
    ∀ front, front <+: operations →
      ((ofText text).run front).IsForest ∧ ((ofText text).run front).check = none ∧
      ((ofText text).run front).globalScope =
        .spanning ((ofText text).run front).text.utf8ByteSize ∧
      (Along AddsAligned (ofText text) operations → ((ofText text).run front).Aligned) := by
  rintro front ⟨back, rfl⟩
  have hfront := hallowed.front
  -- The nesting is what every operation keeps.
  have hnested : ((ofText text).run front).Nested :=
    hfront.induction (fun _ _ h hoperation => h.perform hoperation) (.ofText text)
  refine ⟨hnested.isForest, check_eq_none_iff.2 hnested.isForest, hnested.sound.spanned,
    fun hadds => ?_⟩
  -- That ends are boundaries is kept together with the nesting, on which it rests.
  have hboth : ((ofText text).run front).Nested ∧ ((ofText text).run front).Aligned :=
    (hfront.and hadds.front).induction
      (q := fun store => store.Nested ∧ store.Aligned)
      (fun _ _ h hoperation => ⟨h.1.perform hoperation.1,
        h.2.perform h.1.sound hoperation.1 hoperation.2⟩)
      ⟨.ofText text, .ofText text⟩
  exact hboth.2

/-- A sentence, its last word and its first letter are marked; then the text is edited at the start
of the word and inside it, and what lies in the first letter is removed. -/
def markWords : List Operation :=
  [.add (.plain "sentence" ⟨0, 7⟩), .add (.plain "word" ⟨4, 7⟩),
    .add (.plain "letter" ⟨0, 1⟩),
    .edit (.insert 4 "ε "), .edit (.delete ⟨8, 10⟩), .remove ⟨0, 1⟩]

/-- The marks of `markWords`, before the text is edited. -/
def markedWords : Store :=
  ⟨"aβ cδ",
    [[.plain "sentence" ⟨0, 7⟩], [.plain "letter" ⟨0, 1⟩, .plain "word" ⟨4, 7⟩]],
    .spanning 7⟩

/-- The operations of `markWords` leave a sentence and a word, in a forest with no flaw and with no
end of a scope inside a character. -/
theorem check_run_words : Along Allowed (ofText "aβ cδ") markWords ∧
    (ofText "aβ cδ").run markWords =
      ⟨"aβ ε c", [[.plain "sentence" ⟨0, 8⟩], [.plain "word" ⟨7, 8⟩]],
        .spanning 8⟩ ∧
    ((ofText "aβ cδ").run markWords).IsForest ∧
    ((ofText "aβ cδ").run markWords).check = none ∧
    ((ofText "aβ cδ").run markWords).Aligned := by
  -- The word shares bytes with the sentence, and the letter with no word.
  have hsentence : (ofText "aβ cδ").perform (.add (.plain "sentence" ⟨0, 7⟩)) =
      { ofText "aβ cδ" with levels := [[.plain "sentence" ⟨0, 7⟩]] } := by
    rw [perform, addAtTop, add, if_neg (by decide), ofText, place]
  have hword : perform { ofText "aβ cδ" with levels := [[.plain "sentence" ⟨0, 7⟩]] }
      (.add (.plain "word" ⟨4, 7⟩)) =
        { ofText "aβ cδ" with levels :=
          [[.plain "sentence" ⟨0, 7⟩], [.plain "word" ⟨4, 7⟩]] } := by
    rw [perform, addAtTop, add, if_neg (by decide), place, if_pos (by decide), place]
  have hletter : perform
      { ofText "aβ cδ" with levels :=
        [[.plain "sentence" ⟨0, 7⟩], [.plain "word" ⟨4, 7⟩]] }
      (.add (.plain "letter" ⟨0, 1⟩)) = markedWords := by
    rw [perform, addAtTop, add, if_neg (by decide), place, if_pos (by decide), place,
      if_neg (by decide)]
    decide +kernel
  have hrun : (ofText "aβ cδ").run markWords =
      ⟨"aβ ε c", [[.plain "sentence" ⟨0, 8⟩], [.plain "word" ⟨7, 8⟩]],
        .spanning 8⟩ := by
    rw [run, markWords, List.foldl_cons, hsentence, List.foldl_cons, hword,
      List.foldl_cons, hletter]
    decide +kernel
  -- Each condition is looked at on the store of then.
  have hallowed : Along Allowed (ofText "aβ cδ") markWords := by
    refine ⟨by decide +kernel, ?_⟩
    rw [hsentence]
    refine ⟨by decide +kernel, ?_⟩
    rw [hword]
    refine ⟨by decide +kernel, ?_⟩
    rw [hletter]
    decide +kernel
  have hadds : Along AddsAligned (ofText "aβ cδ") markWords := by
    refine ⟨by decide +kernel, ?_⟩
    rw [hsentence]
    refine ⟨by decide +kernel, ?_⟩
    rw [hword]
    exact ⟨by decide +kernel, trivial, trivial, trivial, trivial⟩
  obtain ⟨hforest, hcheck, -, haligned⟩ := check_run hallowed markWords (List.prefix_refl _)
  exact ⟨hallowed, hrun, hforest, hcheck, haligned hadds⟩

end Store

end TextScopes
