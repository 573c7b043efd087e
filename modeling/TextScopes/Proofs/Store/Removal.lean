import TextScopes.Proofs.Store.Sound

/-!
# What a removal parts

In `remove_scopes` the scopes in a span are taken out of a level while it is walked: from the first
scope that stops behind the span's start on, a scope inside the span is taken, so that the next one
stands at its place, a scope that is not is passed, and the walk ends at the first that does not
start before the span stops (`Level.sweep`). What the walk takes and leaves is what `Level.extract`
cuts the level into, whether the level is in order or not (`Level.sweep_eq_extract`).

For a store in which each level is in order this is an exact parting (`Store.removeScopes_parts`):
what is removed are the scopes inside the span, and what is not removed stays as and where it was.
How many levels are left is told by the scopes alone (`Store.Sound.levelCount_eq_iff`).
-/

namespace TextScopes

namespace Level

/-- Walks a level from a place on, and takes out the scopes inside a span; `taken` is
what was taken before. -/
def sweep (level : Level) (span : Span) (place : Nat) (taken : List Scope) : List Scope × Level :=
  if hplace : place < level.length then
    if level[place].span.start < span.stop then
      if span.contains level[place].span then
        sweep (level.eraseIdx place) span place (taken ++ [level[place]])
      else level.sweep span (place + 1) taken
    else (taken, level)
  else (taken, level)
termination_by level.length - place
decreasing_by
  · rw [List.length_eraseIdx_of_lt hplace]
    omega
  · omega

variable {span : Span} {front rest : Level} {taken : List Scope} {scope : Scope}

/-- A walk ends at the end of the level. -/
theorem sweep_end : front.sweep span front.length taken = (taken, front) := by
  rw [sweep, dif_neg (Nat.lt_irrefl _)]

/-- What a walk does at a scope. -/
theorem sweep_at : Level.sweep (front ++ scope :: rest) span front.length taken =
    if scope.span.start < span.stop then
      if span.contains scope.span then
        Level.sweep (front ++ rest) span front.length (taken ++ [scope])
      else Level.sweep (front ++ [scope] ++ rest) span (front ++ [scope]).length taken
    else (taken, front ++ scope :: rest) := by
  have hplace : front.length < (front ++ scope :: rest).length := by
    rw [List.length_append, List.length_cons]
    omega
  have hget : (front ++ scope :: rest)[front.length] = scope := by
    rw [List.getElem_append_right (Nat.le_refl _)]
    simp
  have herase : (front ++ scope :: rest).eraseIdx front.length = front ++ rest := by
    rw [List.eraseIdx_append_of_length_le (Nat.le_refl _), Nat.sub_self, List.eraseIdx_cons_zero]
  rw [sweep, dif_pos hplace, hget, herase, List.append_assoc, List.length_append]
  rfl

/-- What a walk takes and leaves: of the scopes that start before the span stops those inside the
span are taken, and all else stays. -/
theorem sweep_append : Level.sweep (front ++ rest) span front.length taken =
    (taken ++ (rest.takeWhile (·.span.start < span.stop)).filter fun scope =>
      span.contains scope.span,
      front ++ ((rest.takeWhile (·.span.start < span.stop)).filter fun scope =>
        !span.contains scope.span) ++
        rest.dropWhile (·.span.start < span.stop)) := by
  -- On what the walk has not passed: it passes one scope and takes it or leaves it in front.
  induction rest generalizing front taken with
  | nil => simp [sweep_end]
  | cons scope rest ih =>
    rw [sweep_at]
    by_cases hstart : scope.span.start < span.stop
    · rw [if_pos hstart, List.takeWhile_cons_of_pos (by simpa),
        List.dropWhile_cons_of_pos (by simpa)]
      -- A scope inside the span is taken, and the walk stays at its place.
      by_cases hin : span.contains scope.span = true
      · rw [if_pos hin, ih]
        simp [hin]
      · -- One that only starts before the span's end is passed.
        rw [if_neg hin, ih]
        simp [hin]
    · -- The walk ends: what starts behind the span stays as it is.
      rw [if_neg hstart, List.takeWhile_cons_of_neg (by simpa using hstart),
        List.dropWhile_cons_of_neg (by simpa using hstart)]
      simp

/-- The walk from the first scope on that stops behind the span's start is an extraction. -/
theorem sweep_eq_extract (level : Level) (span : Span) (taken : List Scope) :
    level.sweep span (level.before span.start).length taken =
      (taken ++ (level.extract span).1, (level.extract span).2) := by
  have hsweep : Level.sweep (level.before span.start ++ level.after span.start) span
      (level.before span.start).length taken = _ := sweep_append
  rw [before_append_after] at hsweep
  exact hsweep

end Level

namespace Store

/-- Walks the levels one after the other, and takes out the scopes inside a span; `taken` is
what was taken before. -/
def sweepLevels (span : Span) : List Scope → List Level → List Scope × List Level
  | taken, [] => (taken, [])
  | taken, level :: levels =>
    let swept := level.sweep span (level.before span.start).length taken
    let others := sweepLevels span swept.1 levels
    (others.1, swept.2 :: others.2)

/-- Takes the scopes inside a span out of a store by a walk through its levels. -/
def sweep (store : Store) (span : Span) : List Scope × Store :=
  let swept := sweepLevels span [] store.levels
  (swept.1, { store with levels := trim swept.2 })

/-- The scopes with their levels that lie within a span. -/
def inside (store : Store) (span : Span) : List (Nat × Scope) :=
  store.toList.filter fun x => span.contains x.2.span

/-- What it is for the entries `removed` to be taken out of a store with a span, so
that `rest` is left. -/
structure Parted (store : Store) (span : Span) (removed : List (Nat × Scope)) (rest : Store) :
    Prop where
  /-- No entry is lost, and none comes to be in both parts or twice in one. -/
  perm : (removed ++ rest.toList).Perm store.toList
  nodup : (removed ++ rest.toList).Nodup
  /-- An entry is removed when the span has a byte and the entry's scope lies within it. -/
  mem_removed_iff : ∀ x, x ∈ removed ↔
    x ∈ store.toList ∧ span.start < span.stop ∧ span.contains x.2.span = true
  /-- What is removed is listed by level and then by start. -/
  listed : removed.Pairwise fun a b => a.1 < b.1 ∨ (a.1 = b.1 ∧ a.2.span.start < b.2.span.start)
  /-- What is left stays on its level and in its order. -/
  kept : rest.toList.Sublist store.toList
  text_eq : rest.text = store.text
  /-- There is one level, the global one, when no scope is left. -/
  levelCount_eq_one_iff : rest.levelCount = 1 ↔ rest.toList = []
  /-- Else the innermost level is one on which a scope is left. -/
  levelCount_eq_iff : ∀ n, rest.levelCount = n + 2 ↔
    (∃ scope, (n, scope) ∈ rest.toList) ∧ ∀ x ∈ rest.toList, x.1 ≤ n

variable {store : Store} {span : Span}

/-- The walk through the levels takes and leaves what the extractions from each do. -/
theorem sweepLevels_eq (span : Span) (levels : List Level) (taken : List Scope) :
    sweepLevels span taken levels =
      (taken ++ (levels.map (·.extract span)).flatMap (·.1),
        (levels.map (·.extract span)).map (·.2)) := by
  induction levels generalizing taken with
  | nil => simp [sweepLevels]
  | cons level levels ih =>
    rw [sweepLevels, Level.sweep_eq_extract, ih]
    simp

/-- A removal is the walk through the levels. -/
theorem removeScopes_eq_sweep (store : Store) (span : Span) :
    store.removeScopes span = store.sweep span := by
  rw [sweep, sweepLevels_eq]
  rfl

/-- The choice of entries by their scopes is a choice on each level. -/
theorem map_snd_filter_number (p : Scope → Bool) (n : Nat) (levels : List Level) :
    ((number n levels).filter fun x => p x.2).map (·.2) = levels.flatMap fun level =>
      level.filter p := by
  induction levels generalizing n with
  | nil => rfl
  | cons level levels ih =>
    rw [number, List.filter_append, List.map_append, ih, List.filter_map, List.map_map,
      List.flatMap_cons]
    simp [Function.comp_def]

namespace Sound

/-- The entries of a sound store are listed by level and then by start. -/
theorem pairwise_start (h : store.Sound) : store.toList.Pairwise fun a b =>
    a.1 < b.1 ∨ (a.1 = b.1 ∧ a.2.span.start < b.2.span.start) := by
  refine h.pairwise_toList.imp_of_mem fun {a b} ha _ hab => ?_
  have := h.holds.shown ha
  omega

/-- A sound store lists no entry twice. -/
theorem nodup_toList (h : store.Sound) : store.toList.Nodup := by
  refine h.pairwise_start.imp ?_
  rintro a _ hab rfl
  omega

/-- What is removed with a span are the scopes inside it, level by level. -/
theorem removeScopes_fst (h : store.Sound) (span : Span) :
    (store.removeScopes span).1 = (store.inside span).map (·.2) := by
  have hinside : (store.inside span).map (·.2) =
      store.levels.flatMap fun level => level.filter fun scope => span.contains scope.span :=
    map_snd_filter_number (fun scope => span.contains scope.span) 0 store.levels
  rw [hinside, Store.removeScopes, List.flatMap_map]
  refine List.flatMap_congr fun level hl => ?_
  rw [(h.ordered level hl).extract_eq]

/-- A scope inside a span has a byte there. -/
theorem mem_inside_iff (h : store.Sound) {x : Nat × Scope} : x ∈ store.inside span ↔
    x ∈ store.toList ∧ span.start < span.stop ∧ span.contains x.2.span = true := by
  rw [Store.inside, List.mem_filter]
  constructor
  · rintro ⟨hmem, hin⟩
    have hshown := h.holds.shown hmem
    have hends := (Span.contains_iff _ _).1 hin
    exact ⟨hmem, by omega, hin⟩
  · rintro ⟨hmem, -, hin⟩
    exact ⟨hmem, hin⟩

/-- The number of levels is told by the innermost one with a scope. -/
theorem levelCount_eq_iff (h : store.Sound) (n : Nat) : store.levelCount = n + 2 ↔
    (∃ scope, (n, scope) ∈ store.toList) ∧ ∀ x ∈ store.toList, x.1 ≤ n := by
  unfold levelCount
  constructor
  · -- The last level is not empty, so its scopes are the deepest.
    intro hcount
    obtain ⟨scope, hscope⟩ := exists_mem_last h.trimmed (n := n) (by omega)
    refine ⟨⟨scope, mem_toList.2 hscope⟩, fun x hx => ?_⟩
    have := lt_length_of_mem_levelAt (mem_toList.1 hx)
    omega
  · -- A level that holds a scope is there, and one behind it would hold one as well.
    rintro ⟨⟨scope, hscope⟩, hall⟩
    have hlt : n < store.levels.length := lt_length_of_mem_levelAt (mem_toList.1 hscope)
    obtain ⟨last, hlast⟩ := exists_mem_last h.trimmed (n := store.levels.length - 1) (by omega)
    have hle : store.levels.length - 1 ≤ n := hall (_, last) (mem_toList.2 hlast)
    omega

/-- There are no levels when there are no scopes. -/
theorem levelCount_eq_one_iff (h : store.Sound) : store.levelCount = 1 ↔ store.toList = [] := by
  unfold levelCount
  constructor
  · intro hcount
    refine List.eq_nil_iff_forall_not_mem.2 fun x hx => ?_
    have := lt_length_of_mem_levelAt (mem_toList.1 hx)
    omega
  · -- Were there a level, the last of them would hold a scope.
    intro hnil
    by_contra hne
    obtain ⟨scope, hscope⟩ :=
      exists_mem_last h.trimmed (n := store.levels.length - 1) (by omega)
    have hmem : (_, scope) ∈ store.toList := mem_toList.2 hscope
    rw [hnil] at hmem
    cases hmem

end Sound

/-- A removal of the scopes in a span, whether it is empty, inverted or reaches behind the text,
walks the levels of a store that is made from a text and changed, and parts its scopes: those inside
the span are answered, and the others are left where they are. -/
theorem removeScopes_parts (h : store.Reached) (span : Span) :
    store.removeScopes span = store.sweep span ∧
      (store.removeScopes span).1 = (store.inside span).map (·.2) ∧
      store.Parted span (store.inside span) (store.removeScopes span).2 := by
  have hsound := h.sound
  have hrest := hsound.removeScopes span
  have hlist := hsound.toList_removeScopes span
  have hperm : (store.inside span ++ (store.removeScopes span).2.toList).Perm store.toList := by
    rw [hlist]
    exact List.filter_append_perm _ _
  -- What is taken and what stays are the two halves of one filter.
  refine ⟨removeScopes_eq_sweep store span, hsound.removeScopes_fst span, hperm,
    hperm.nodup_iff.2 hsound.nodup_toList, fun x => hsound.mem_inside_iff,
    hsound.pairwise_start.filter _, ?_, rfl, hrest.levelCount_eq_one_iff, hrest.levelCount_eq_iff⟩
  rw [hlist]
  exact List.filter_sublist

/-- Three scopes in a row and two inside of them. -/
def rowed : Store :=
  ⟨"abcdefgh", [[.plain "left" ⟨0, 2⟩, .plain "mid" ⟨2, 4⟩, .plain "right" ⟨4, 7⟩],
  [.plain "first" ⟨2, 3⟩, .plain "second" ⟨5, 6⟩]], .spanning 8⟩

/-- Two neighbours on the inner level are removed with the scope around the first of them, and those
that reach over either end of the span stay. -/
theorem removeScopes_parts_rowed : rowed.Reached ∧
    rowed.removeScopes ⟨1, 6⟩ =
      ([.plain "mid" ⟨2, 4⟩, .plain "first" ⟨2, 3⟩, .plain "second" ⟨5, 6⟩],
        ⟨"abcdefgh", [[.plain "left" ⟨0, 2⟩, .plain "right" ⟨4, 7⟩]], .spanning 8⟩) ∧
    rowed.Parted ⟨1, 6⟩ (rowed.inside ⟨1, 6⟩) (rowed.removeScopes ⟨1, 6⟩).2 := by
  have hreached : rowed.Reached := Sound.reached (by decide)
  exact ⟨hreached, by decide, (removeScopes_parts hreached ⟨1, 6⟩).2.2⟩

end Store

end TextScopes
