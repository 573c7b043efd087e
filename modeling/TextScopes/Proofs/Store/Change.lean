import TextScopes.Proofs.Edit
import TextScopes.Proofs.Store.Content

/-!
# Changes of a store

What a store holds after an edit of its text, after the scopes inside a span are removed, and after
the scope at one place of a level is: each acts on the scopes one by one, so that what is held is
told by what becomes of each (`Store.number_filterMap`).
-/

namespace TextScopes

namespace Store

/-- An edit of a store edits its text. -/
theorem text_apply (store : Store) (edit : Edit) :
    (store.apply edit).text = edit.apply store.text := by
  cases edit <;> rfl

/-- An edit of a store lays its global scope over the new text. -/
theorem globalScope_apply (store : Store) (edit : Edit) : (store.apply edit).globalScope =
    store.globalScope.withSpan ⟨0, (edit.apply store.text).utf8ByteSize⟩ := by
  cases edit <;> rfl

/-- What becomes of the scopes on all levels is what becomes of each. -/
theorem number_filterMap (f : Scope → Option Scope) (n : Nat) (levels : List Level) :
    number n (levels.map fun level => level.filterMap f) =
      (number n levels).filterMap fun x => (f x.2).map fun scope => (x.1, scope) := by
  induction levels generalizing n with
  | nil => rfl
  | cons level levels ih =>
    rw [List.map_cons, number, number, List.filterMap_append, ih, List.filterMap_map,
      List.map_filterMap]
    rfl

/-- Levels are trimmed by taking empty ones off the end. -/
theorem exists_trim (levels : List Level) :
    ∃ empties, levels = trim levels ++ empties ∧ ∀ level ∈ empties, level = [] := by
  refine ⟨(levels.reverse.takeWhile List.isEmpty).reverse, ?_, fun level hl => ?_⟩
  · rw [trim, ← List.reverse_append, List.takeWhile_append_dropWhile, List.reverse_reverse]
  · have hall := List.all_takeWhile (p := List.isEmpty) (l := levels.reverse)
    exact List.isEmpty_iff.1 (List.all_eq_true.1 hall level (List.mem_reverse.1 hl))

/-- No empty level stands at the end of trimmed ones. -/
theorem trimmed_trim (levels : List Level) : Trimmed (trim levels) := by
  intro hlast
  rw [trim, List.getLast?_reverse] at hlast
  have := List.head?_dropWhile_not List.isEmpty levels.reverse
  rw [hlast] at this
  cases this

/-- Trimming takes no scope. -/
theorem number_trim (n : Nat) (levels : List Level) : number n (trim levels) = number n levels := by
  have happend : ∀ (n : Nat) (front empties : List Level), (∀ level ∈ empties, level = []) →
      number n (front ++ empties) = number n front := by
    intro n front empties hempty
    induction front generalizing n with
    | cons level front ih => rw [List.cons_append, number, number, ih]
    | nil =>
      rw [List.nil_append]
      -- Empty levels have no scopes.
      induction empties generalizing n with
      | nil => rfl
      | cons level empties ih =>
        have hlevel := List.forall_mem_cons.1 hempty
        rw [hlevel.1]
        exact ih hlevel.2 (n + 1)
  obtain ⟨empties, heq, hempty⟩ := exists_trim levels
  have := happend n (trim levels) empties hempty
  rw [← heq] at this
  exact this.symm

/-- Levels that are trimmed already stay as they are. -/
theorem trim_of_trimmed {levels : List Level} (h : Trimmed levels) : trim levels = levels := by
  obtain ⟨empties, heq, hempty⟩ := exists_trim levels
  rcases List.eq_nil_or_concat empties with rfl | ⟨front, last, rfl⟩
  · rw [List.append_nil] at heq
    exact heq.symm
  · refine absurd ?_ h
    rw [heq, List.concat_eq_append, ← List.append_assoc, List.getLast?_concat,
      hempty last (by simp)]

/-- One level among others gives up a scope. -/
theorem number_set {levels : List Level} {i : Nat} {level rest : Level} {scope : Scope}
    (hget : levels[i]? = some level) (hperm : level.Perm (scope :: rest)) (n : Nat) :
    (number n levels).Perm ((n + i, scope) :: number n (levels.set i rest)) := by
  -- On the level from which the scope is taken, counted from the first.
  induction levels generalizing i n with
  | nil => cases hget
  | cons first levels ih =>
    cases i with
    | zero =>
      obtain rfl := Option.some.inj hget
      exact (hperm.map fun scope => (n, scope)).append_right _
    | succ i =>
      have := (ih hget (n + 1)).append_left (first.map fun scope => (n, scope))
      rw [show n + 1 + i = n + (i + 1) by omega] at this
      exact this.trans List.perm_middle

section Removal

variable {store store' : Store}

/-- To keep some scopes is to map each to itself or to nothing. -/
theorem filterMap_guard (p : Scope → Bool) (entries : List (Nat × Scope)) :
    (entries.filterMap fun x => (Option.guard p x.2).map fun scope => (x.1, scope)) =
      entries.filter fun x => p x.2 := by
  rw [← List.filterMap_eq_filter]
  refine List.filterMap_congr fun x _ => ?_
  by_cases hp : p x.2 = true <;> simp [Option.guard, hp]

/-- Removing the scopes inside a span keeps on each level those that are not inside it. -/
theorem removeScopes_snd (hordered : ∀ level ∈ store.levels, level.Ordered) (span : Span) :
    (store.removeScopes span).2 = { store with levels := trim (store.levels.map fun level =>
      level.filterMap (Option.guard fun scope => !span.contains scope.span)) } := by
  have hparts : (store.levels.map (·.extract span)).map (·.2) = store.levels.map fun level =>
      level.filterMap (Option.guard fun scope => !span.contains scope.span) := by
    rw [List.map_map]
    refine List.map_congr_left fun level hl => ?_
    rw [Function.comp_apply, (hordered level hl).extract_eq, List.filterMap_eq_filter]
  unfold Store.removeScopes
  dsimp only
  rw [hparts]

/-- The scopes that are removed with a span are those inside it. -/
theorem mem_removeScopes (hordered : ∀ level ∈ store.levels, level.Ordered) {span : Span}
    {scope : Scope} : scope ∈ (store.removeScopes span).1 ↔
      span.contains scope.span = true ∧ ∃ level ∈ store.levels, scope ∈ level := by
  unfold Store.removeScopes
  rw [List.mem_flatMap]
  -- Of a level in order all scopes inside the span are extracted.
  constructor
  · rintro ⟨_, hpart, hs⟩
    obtain ⟨level, hl, rfl⟩ := List.mem_map.1 hpart
    rw [(hordered level hl).extract_eq, List.mem_filter] at hs
    exact ⟨hs.2, level, hl, hs.1⟩
  · rintro ⟨hin, level, hl, hs⟩
    refine ⟨level.extract span, List.mem_map_of_mem hl, ?_⟩
    rw [(hordered level hl).extract_eq]
    exact List.mem_filter.2 ⟨hs, hin⟩

/-- What removing the scope at a place comes to. -/
theorem removeAt?_eq_some_iff {n start : Nat} {scope : Scope} :
    store.removeAt? n start = some (scope, store') ↔
      ∃ level rest, store.levels[n]? = some level ∧
        level.extractAt? start = some (scope, rest) ∧
        store' = { store with levels := trim (store.levels.set n rest) } := by
  unfold Store.removeAt?
  cases store.levels[n]? with
  | none => simp
  | some level =>
    cases hextract : level.extractAt? start with
    | none => simp [hextract]
    | some x =>
      obtain ⟨found, rest⟩ := x
      simp only [hextract, Option.some.injEq, Prod.mk.injEq, exists_and_left, exists_eq_left']
      constructor
      · rintro ⟨rfl, rfl⟩
        exact ⟨rest, ⟨rfl, rfl⟩, rfl⟩
      · rintro ⟨_, ⟨rfl, rfl⟩, rfl⟩
        exact ⟨rfl, rfl⟩

/-- Removing the scope at a place takes one entry, and leaves the levels in order and trimmed. -/
theorem removeAt?_eq_some {n start : Nat} {scope : Scope}
    (hordered : ∀ level ∈ store.levels, level.Ordered)
    (h : store.removeAt? n start = some (scope, store')) :
    (∀ level ∈ store'.levels, level.Ordered) ∧ Trimmed store'.levels ∧
      store.toList.Perm ((n, scope) :: store'.toList) := by
  obtain ⟨level, rest, hget, hextract, rfl⟩ := removeAt?_eq_some_iff.1 h
  obtain ⟨-, hperm, hsub⟩ := Level.extractAt?_eq_some hextract
  refine ⟨fun other ho => ?_, trimmed_trim _, ?_⟩
  · -- The levels that are left are those before, but for the one that lost a scope.
    obtain ⟨empties, heq, -⟩ := exists_trim (store.levels.set n rest)
    have hin : other ∈ store.levels.set n rest := by
      rw [heq]
      exact List.mem_append_left _ ho
    rcases List.mem_or_eq_of_mem_set hin with hin | rfl
    · exact hordered other hin
    · exact (hordered level (List.mem_of_getElem? hget)).sublist hsub
  · unfold toList
    rw [number_trim]
    have hset := number_set hget hperm 0
    rwa [Nat.zero_add] at hset

end Removal

namespace Holds

variable {store : Store} {text : String} {entries rest : List (Nat × Scope)}

/-- Every scope that a store holds has a byte. -/
theorem shown (h : store.Holds text entries) {x : Nat × Scope} (hx : x ∈ entries) :
    x.2.span.start < x.2.span.stop :=
  (h.ordered_levelAt x.1).shown _ (mem_toList.1 (h.perm.mem_iff.2 hx))

/-- A store whose scopes are changed one by one holds what becomes of them, if the levels stay in
order. -/
theorem filterMap (h : store.Holds text entries) (text' : String) (f : Scope → Option Scope)
    (hordered : ∀ level : Level, level.Ordered → Level.Ordered (level.filterMap f)) :
    Store.Holds ⟨text', trim (store.levels.map fun level => level.filterMap f),
        .spanning text'.utf8ByteSize⟩ text'
      (entries.filterMap fun x => (f x.2).map fun scope => (x.1, scope)) := by
  refine ⟨rfl, rfl, fun level hl => ?_, trimmed_trim _, ?_⟩
  · obtain ⟨empties, heq, -⟩ := exists_trim (store.levels.map fun level => level.filterMap f)
    have hmem : level ∈ store.levels.map fun level => level.filterMap f := by
      rw [heq]
      exact List.mem_append_left _ hl
    obtain ⟨old, ho, rfl⟩ := List.mem_map.1 hmem
    exact hordered old (h.ordered old ho)
  · unfold toList
    rw [number_trim, number_filterMap]
    exact h.perm.filterMap _

/-- Both kinds of edits carry the scopes over one by one. -/
theorem apply_eq (h : store.Holds text entries) (edit : Edit) : store.apply edit =
    ⟨edit.apply text, trim (store.levels.map fun level => level.filterMap edit.carry?),
      .spanning (edit.apply text).utf8ByteSize⟩ := by
  have hglobal : (store.apply edit).globalScope = .spanning (edit.apply text).utf8ByteSize := by
    rw [globalScope_apply, h.spanned, h.text_eq]
    rfl
  rw [← hglobal]
  cases edit with
  | insert pos inserted =>
    -- An insertion carries each scope of a level in order as it does one alone.
    have hmap : ∀ level ∈ store.levels, level.afterInsert pos inserted.utf8ByteSize =
        level.filterMap (Edit.carry? (.insert pos inserted)) := by
      intro level hl
      rw [(h.ordered level hl).afterInsert_eq_map, ← List.filterMap_eq_map']
      rfl
    rw [← List.map_congr_left hmap, trim_of_trimmed]
    · rw [← h.text_eq]
      rfl
    · -- No level is emptied by an insertion.
      intro hlast
      rw [List.getLast?_map] at hlast
      obtain ⟨level, hl, hempty⟩ := Option.map_eq_some_iff.1 hlast
      have hmem := List.mem_of_getLast? hl
      rw [(h.ordered level hmem).afterInsert_eq_map, List.map_eq_nil_iff] at hempty
      rw [hempty] at hl
      exact h.trimmed hl
  | delete span =>
    -- So does a deletion, which may empty levels.
    have hmap : ∀ level ∈ store.levels, level.afterDelete span =
        level.filterMap (Edit.carry? (.delete span)) :=
      fun level hl => (h.ordered level hl).afterDelete_eq_filterMap span
    rw [← List.map_congr_left hmap, ← h.text_eq]
    rfl

/-- A store whose text is edited holds its scopes as the edit carries them over. -/
theorem apply {edit : Edit} (h : store.Holds text entries) (hfits : edit.fits text = true) :
    (store.apply edit).Holds (edit.apply text)
      (entries.filterMap fun x => (edit.carry? x.2).map fun scope => (x.1, scope)) := by
  have hle : edit.start ≤ edit.stopBefore := Edit.start_le_stopBefore hfits
  -- A level stays in order, since a scope that stops before another starts is carried to where it
  -- still does.
  have hordered : ∀ level : Level, level.Ordered →
      Level.Ordered (level.filterMap edit.carry?) := by
    intro level hl
    refine ⟨List.pairwise_filterMap.2
      (hl.apart.imp_of_mem fun {a b} ha hb hab new hnew new' hnew' => ?_), fun new hnew => ?_⟩
    · obtain ⟨-, rfl⟩ := (Edit.carry?_eq_some_iff hle (hl.shown a ha)).1 hnew
      obtain ⟨-, rfl⟩ := (Edit.carry?_eq_some_iff hle (hl.shown b hb)).1 hnew'
      exact Edit.shiftStop_le_shift hle hab
    · obtain ⟨scope, hs, hnew⟩ := List.mem_filterMap.1 hnew
      obtain ⟨hlt, rfl⟩ := (Edit.carry?_eq_some_iff hle (hl.shown scope hs)).1 hnew
      exact hlt
  rw [h.apply_eq]
  exact h.filterMap (edit.apply text) edit.carry? hordered

/-- Removing the scopes inside a span leaves those that are not inside it. -/
theorem removeScopes (h : store.Holds text entries) (span : Span) :
    (store.removeScopes span).2.Holds text (entries.filter fun x => !span.contains x.2.span) := by
  have hholds := h.filterMap text (Option.guard fun scope => !span.contains scope.span)
    fun level hl => by
      rw [List.filterMap_eq_filter]
      exact hl.sublist List.filter_sublist
  rw [filterMap_guard] at hholds
  rw [removeScopes_snd h.ordered]
  exact ⟨h.text_eq, h.spanned, hholds.ordered, hholds.trimmed, hholds.perm⟩

/-- The scope at a place of a level is found there, and removing it leaves the others. -/
theorem removeAt? {n : Nat} {scope : Scope} (h : store.Holds text ((n, scope) :: rest)) :
    ∃ store', store.removeAt? n scope.span.start = some (scope, store') ∧
      store'.Holds text rest := by
  have hmem : scope ∈ levelAt store.levels n := mem_toList.1 (h.perm.mem_iff.2 List.mem_cons_self)
  have hlevel := h.ordered_levelAt n
  obtain ⟨level, hget, rfl⟩ : ∃ level, store.levels[n]? = some level ∧
      level = levelAt store.levels n := by
    unfold levelAt at hmem ⊢
    cases hget : store.levels[n]? with
    -- The level that holds the scope is there.
    | none =>
      rw [hget] at hmem
      cases hmem
    | some level => exact ⟨level, rfl, rfl⟩
  -- The scope is taken out by its start.
  obtain ⟨⟨found, others⟩, hfound⟩ :=
    Option.isSome_iff_exists.1 (Level.extractAt?_isSome hmem)
  obtain ⟨hstart, hperm, -⟩ := Level.extractAt?_eq_some hfound
  -- Only one scope of a level starts at a place.
  obtain rfl : found = scope := by
    have hin : found ∈ levelAt store.levels n := hperm.mem_iff.2 List.mem_cons_self
    have h1 := hlevel.shown found hin
    have h2 := hlevel.shown scope hmem
    rcases hlevel.eq_or_apart hin hmem with heq | hapart
    · exact heq
    · omega
  have hremove : store.removeAt? n found.span.start =
      some (found, { store with levels := trim (store.levels.set n others) }) :=
    removeAt?_eq_some_iff.2 ⟨_, others, hget, hfound, rfl⟩
  obtain ⟨hordered, htrimmed, hentries⟩ := removeAt?_eq_some h.ordered hremove
  exact ⟨_, hremove, h.text_eq, h.spanned, hordered, htrimmed,
    (List.perm_cons _).1 (hentries.symm.trans h.perm)⟩

end Holds

end Store

end TextScopes
