import Mathlib.Data.List.Basic
import TextScopes.Store.Level

/-!
# Levels in order

A level is in order (`Level.Ordered`) when its scopes follow one another and each has a byte. Then
a cut of the list is a choice among its scopes (`before_eq_filter`, `after_eq_filter`), and what
every query and change comes to can be said scope by scope: which scope covers an offset, whether
one shares a byte with a span, and what becomes of each scope under an insertion of bytes, a
deletion or an extraction.
-/

namespace TextScopes

namespace Level

/-- The scopes of a level follow one another, and each has a byte. -/
structure Ordered (level : Level) : Prop where
  apart : level.Pairwise fun a b => a.span.stop ≤ b.span.start
  shown : ∀ scope ∈ level, scope.span.start < scope.span.stop

instance (level : Level) : Decidable level.Ordered :=
  decidable_of_iff (level.Pairwise (fun a b => a.span.stop ≤ b.span.start) ∧
      ∀ scope ∈ level, scope.span.start < scope.span.stop)
    ⟨fun h => ⟨h.1, h.2⟩, fun h => ⟨h.apart, h.shown⟩⟩

/-- Whether a level is in order is told by its spans. -/
theorem ordered_iff_spans {level : Level} :
    level.Ordered ↔ (level.map (·.span)).Pairwise (fun a b => a.stop ≤ b.start) ∧
      ∀ span ∈ level.map (·.span), span.start < span.stop := by
  rw [List.pairwise_map, List.forall_mem_map]
  exact ⟨fun h => ⟨h.apart, h.shown⟩, fun h => ⟨h.1, h.2⟩⟩

/-- A front part that is cut where a condition first fails is the choice of what satisfies it, when
the condition never holds again. -/
theorem takeWhile_eq_filter {α : Type} {p : α → Bool} {xs : List α}
    (h : xs.Pairwise fun a b => p b = true → p a = true) : xs.takeWhile p = xs.filter p := by
  induction xs with
  | nil => rfl
  | cons a xs ih =>
    obtain ⟨ha, hxs⟩ := List.pairwise_cons.1 h
    by_cases hp : p a = true
    · rw [List.takeWhile_cons_of_pos hp, List.filter_cons_of_pos hp, ih hxs]
    · rw [List.takeWhile_cons_of_neg hp, List.filter_cons_of_neg hp, eq_comm,
        List.filter_eq_nil_iff]
      exact fun b hb hpb => hp (ha b hb hpb)

/-- The back part is then the choice of what does not satisfy it. -/
theorem dropWhile_eq_filter {α : Type} {p : α → Bool} {xs : List α}
    (h : xs.Pairwise fun a b => p b = true → p a = true) :
    xs.dropWhile p = xs.filter fun x => !p x := by
  induction xs with
  | nil => rfl
  | cons a xs ih =>
    obtain ⟨ha, hxs⟩ := List.pairwise_cons.1 h
    by_cases hp : p a = true
    · rw [List.dropWhile_cons_of_pos hp, List.filter_cons_of_neg (by simp [hp]), ih hxs]
    · rw [List.dropWhile_cons_of_neg hp, eq_comm, List.filter_eq_self]
      intro b hb
      rcases List.mem_cons.1 hb with rfl | hb
      · simpa using hp
      · simpa using fun hpb => hp (ha b hb hpb)

namespace Ordered

variable {level : Level} {offset : Nat} {scope : Scope} {span : Span}

/-- The empty level is in order. -/
theorem nil : Ordered [] := ⟨.nil, by simp⟩

/-- A part of a level in order is in order. -/
theorem sublist (h : level.Ordered) {part : Level} (hpart : part.Sublist level) : part.Ordered :=
  ⟨h.apart.sublist hpart, fun scope hs => h.shown scope (hpart.subset hs)⟩

/-- Two scopes of a level share no byte. -/
theorem eq_or_apart (h : level.Ordered) {a b : Scope} (ha : a ∈ level) (hb : b ∈ level) :
    a = b ∨ a.span.stop ≤ b.span.start ∨ b.span.stop ≤ a.span.start := by
  obtain ⟨front, back, rfl⟩ := List.append_of_mem ha
  obtain ⟨-, hcons, hfront⟩ := List.pairwise_append.1 h.apart
  rcases List.mem_append.1 hb with hb | hb
  · exact .inr (.inr (hfront b hb a List.mem_cons_self))
  · rcases List.mem_cons.1 hb with rfl | hb
    · exact .inl rfl
    · exact .inr (.inl (List.rel_of_pairwise_cons hcons hb))

/-- A level in order is known from its scopes. -/
theorem eq_of_perm (h : level.Ordered) {level' : Level} (h' : level'.Ordered)
    (hperm : level.Perm level') : level = level' := by
  refine List.Perm.eq_of_pairwise (fun a b ha hb hab hba => ?_) h.apart h'.apart hperm
  have := h.shown a ha
  have := h'.shown b hb
  omega

/-- Scopes that stop before an offset stand before those that stop behind it. -/
theorem pairwise_stop (h : level.Ordered) (offset : Nat) :
    level.Pairwise fun a b =>
      decide (b.span.stop ≤ offset) = true → decide (a.span.stop ≤ offset) = true := by
  refine h.apart.imp_of_mem fun {a b} _ hb hab hle => ?_
  have := h.shown b hb
  simp only [decide_eq_true_eq] at hle ⊢
  omega

/-- Scopes that start before an offset stand before those that start behind it. -/
theorem pairwise_start (h : level.Ordered) (offset : Nat) :
    level.Pairwise fun a b =>
      decide (b.span.start < offset) = true → decide (a.span.start < offset) = true := by
  refine h.apart.imp_of_mem fun {a b} ha _ hab hlt => ?_
  have := h.shown a ha
  simp only [decide_eq_true_eq] at hlt ⊢
  omega

/-- The part before an offset are the scopes that stop at or before it. -/
theorem before_eq_filter (h : level.Ordered) (offset : Nat) :
    level.before offset = level.filter (·.span.stop ≤ offset) :=
  takeWhile_eq_filter (h.pairwise_stop offset)

/-- The part behind an offset are the scopes that stop behind it. -/
theorem after_eq_filter (h : level.Ordered) (offset : Nat) :
    level.after offset = level.filter fun scope => !decide (scope.span.stop ≤ offset) :=
  dropWhile_eq_filter (h.pairwise_stop offset)

/-- A scope stands before an offset when it stops at or before it. -/
theorem mem_before (h : level.Ordered) :
    scope ∈ level.before offset ↔ scope ∈ level ∧ scope.span.stop ≤ offset := by
  rw [h.before_eq_filter, List.mem_filter, decide_eq_true_eq]

/-- A scope stands behind an offset when it stops behind it. -/
theorem mem_after (h : level.Ordered) :
    scope ∈ level.after offset ↔ scope ∈ level ∧ offset < scope.span.stop := by
  rw [h.after_eq_filter, List.mem_filter, Bool.not_eq_true', decide_eq_false_iff_not, Nat.not_le]

/-- The scopes in front of the first that does not start before an offset are those that do. -/
theorem mem_takeWhile_start (h : level.Ordered) :
    scope ∈ level.takeWhile (·.span.start < offset) ↔
    scope ∈ level ∧ scope.span.start < offset := by
  rw [takeWhile_eq_filter (h.pairwise_start offset), List.mem_filter, decide_eq_true_eq]

/-- The scopes from the first on that does not start before an offset are those that do not. -/
theorem mem_dropWhile_start (h : level.Ordered) :
    scope ∈ level.dropWhile (·.span.start < offset) ↔
    scope ∈ level ∧ offset ≤ scope.span.start := by
  rw [dropWhile_eq_filter (h.pairwise_start offset), List.mem_filter, Bool.not_eq_true',
    decide_eq_false_iff_not, Nat.not_lt]

/-- A scope that is found covers the offset, and one that covers it is found. -/
theorem find?_eq_some_iff (h : level.Ordered) :
    level.find? offset = some scope ↔
      scope ∈ level ∧ scope.span.start ≤ offset ∧ offset < scope.span.stop := by
  -- Scopes that start at or before the offset stand in front.
  have hpair : level.Pairwise fun a b =>
      decide (b.span.start ≤ offset) = true → decide (a.span.start ≤ offset) = true := by
    refine h.apart.imp_of_mem fun {a b} ha _ hab hle => ?_
    have := h.shown a ha
    simp only [decide_eq_true_eq] at hle ⊢
    omega
  unfold Level.find?
  rw [takeWhile_eq_filter hpair]
  constructor
  · -- The last of those that start at or before it is found, if it covers the offset.
    intro hfind
    split at hfind
    · next last hlast =>
      split at hfind
      · next hlt =>
        obtain rfl := Option.some.inj hfind
        have hmem := List.mem_filter.1 (List.mem_of_getLast? hlast)
        exact ⟨hmem.1, by simpa using hmem.2, hlt⟩
      · cases hfind
    · cases hfind
  · rintro ⟨hmem, hstart, hstop⟩
    have hin : scope ∈ level.filter (·.span.start ≤ offset) :=
      List.mem_filter.2 ⟨hmem, by simpa⟩
    obtain ⟨front, last, heq⟩ :=
      List.eq_nil_or_concat _ |>.resolve_left (List.ne_nil_of_mem hin)
    rw [List.concat_eq_append] at heq
    rw [heq, List.getLast?_concat]
    -- A scope before the last one stops before that starts, and so does not cover the offset.
    have hlast : scope = last := by
      rw [heq] at hin
      rcases List.mem_append.1 hin with hfront | hlast
      · have hapart := h.apart.filter (fun s => decide (s.span.start ≤ offset))
        rw [heq] at hapart
        have hle := (List.pairwise_append.1 hapart).2.2 scope hfront last (by simp)
        have hmem' : last ∈ level.filter (·.span.start ≤ offset) := by rw [heq]; simp
        have hlast := (List.mem_filter.1 hmem').2
        simp only [decide_eq_true_eq] at hlast
        omega
      · exact List.mem_singleton.1 hlast
    dsimp only
    rw [← hlast, if_pos hstop]

/-- A span with a byte collides with a level when it shares a byte with one of its scopes. -/
theorem collides_eq_false_iff (h : level.Ordered) :
    level.collides span = false ↔
      ∀ scope ∈ level, scope.span.stop ≤ span.start ∨ span.stop ≤ scope.span.start := by
  have hordered : (level.after span.start).Ordered := h.sublist (List.dropWhile_sublist _)
  unfold collides
  split
  · next first hfirst =>
    obtain ⟨rest, heq⟩ := List.head?_eq_some_iff.1 hfirst
    rw [decide_eq_false_iff_not]
    constructor
    · intro hnot scope hs
      rcases Nat.lt_or_ge span.start scope.span.stop with hlt | hge
      · -- Of the scopes behind the span's start the first starts first.
        right
        have hin := h.mem_after.2 ⟨hs, hlt⟩
        rw [heq] at hin
        rcases List.mem_cons.1 hin with rfl | hin
        · omega
        · have hle := List.rel_of_pairwise_cons (heq ▸ hordered.apart) hin
          have := hordered.shown first (by rw [heq]; exact List.mem_cons_self)
          omega
      · exact .inl hge
    · intro hall
      obtain ⟨hin, hlt⟩ := h.mem_after.1 (by rw [heq]; exact List.mem_cons_self)
      have := hall first hin
      omega
  · next hnone =>
    refine ⟨fun _ scope hs => ?_, fun _ => rfl⟩
    rcases Nat.lt_or_ge span.start scope.span.stop with hlt | hge
    · -- No scope is behind the span's start.
      have := h.mem_after.2 ⟨hs, hlt⟩
      rw [List.head?_eq_none_iff.1 hnone] at this
      cases this
    · exact .inl hge

end Ordered

/-- Putting a scope in adds it to those that are there. -/
theorem insert_perm (level : Level) (scope : Scope) :
    (level.insert scope).Perm (scope :: level) := by
  unfold insert
  refine List.perm_middle.trans (.cons _ ?_)
  rw [List.takeWhile_append_dropWhile]

namespace Ordered

variable {level : Level} {offset : Nat} {scope : Scope} {span : Span}

/-- A level stays in order when a scope is put in that collides with none. -/
theorem insert (h : level.Ordered) (hshown : scope.span.start < scope.span.stop)
    (hfree : level.collides scope.span = false) : (level.insert scope).Ordered := by
  have hsides := h.collides_eq_false_iff.1 hfree
  refine ⟨?_, fun other ho => ?_⟩
  · unfold Level.insert
    have hboth := h.apart
    rw [← List.takeWhile_append_dropWhile (p := fun s => s.span.start < scope.span.start)
      (l := level), List.pairwise_append] at hboth
    obtain ⟨hfront, hback, hacross⟩ := hboth
    refine List.pairwise_append.2 ⟨hfront, List.pairwise_cons.2 ⟨fun b hb => ?_, hback⟩,
      fun a ha b hb => ?_⟩
    · -- What does not start before the new scope and shares no byte with it lies behind it.
      obtain ⟨hmem, hge⟩ := h.mem_dropWhile_start.1 hb
      have := hsides b hmem
      have := h.shown b hmem
      omega
    · rcases List.mem_cons.1 hb with rfl | hb
      · obtain ⟨hmem, hlt⟩ := h.mem_takeWhile_start.1 ha
        have := hsides a hmem
        omega
      · exact hacross a ha b hb
  · -- The scopes in front start before the new one, and so stop before it.
    rcases List.mem_cons.1 ((insert_perm level scope).mem_iff.1 ho) with rfl | ho
    · exact hshown
    · exact h.shown other ho

/-- An insertion of bytes carries every scope of a level over. -/
theorem afterInsert_eq_map (h : level.Ordered) (offset count : Nat) :
    level.afterInsert offset count =
      level.map fun scope => scope.withSpan (scope.span.afterInsert offset count) := by
  -- What stands before the insertion is left as it is, and so are the spans there.
  have hbefore : level.before offset = (level.before offset).map fun scope =>
      scope.withSpan (scope.span.afterInsert offset count) := by
    refine (List.map_id' _).symm.trans (List.map_congr_left fun scope hs => ?_)
    obtain ⟨hmem, hle⟩ := h.mem_before.1 hs
    have := h.shown scope hmem
    unfold Span.afterInsert
    rw [if_neg (by omega), if_neg (by omega)]
    rfl
  unfold Level.afterInsert
  rw [hbefore, ← List.map_append, before_append_after]

/-- A deletion of bytes carries every scope of a level over, or drops it. -/
theorem afterDelete_eq_filterMap (h : level.Ordered) (deleted : Span) :
    level.afterDelete deleted = level.filterMap (afterDelete? deleted) := by
  -- What stands before the deletion is left as it is.
  have hbefore : level.before deleted.start =
      (level.before deleted.start).filterMap (afterDelete? deleted) := by
    have hsame : ∀ scope ∈ level.before deleted.start,
        afterDelete? deleted scope = some scope := by
      intro scope hs
      obtain ⟨hmem, hle⟩ := h.mem_before.1 hs
      have hshown := h.shown scope hmem
      have hspan : scope.span.afterDelete deleted = scope.span := by
        unfold Span.afterDelete Span.pull
        rw [if_pos (by omega), if_pos (by omega)]
      unfold afterDelete?
      rw [hspan, if_neg (by rw [Span.isEmpty_iff]; omega)]
      rfl
    rw [List.filterMap_congr hsame, List.filterMap_some]
  unfold Level.afterDelete
  rw [hbefore, ← List.filterMap_append, before_append_after]

/-- An extraction parts the scopes inside a span from the others. -/
theorem extract_eq (h : level.Ordered) (span : Span) :
    level.extract span = (level.filter fun scope => span.contains scope.span,
      level.filter fun scope => !span.contains scope.span) := by
  -- Scopes that stop before the span are not in it.
  have hbefore : ∀ scope ∈ level.before span.start, span.contains scope.span = false := by
    intro scope hs
    obtain ⟨hmem, hle⟩ := h.mem_before.1 hs
    have := h.shown scope hmem
    rw [← Bool.not_eq_true, Span.contains_iff]
    omega
  have hafter : (level.after span.start).Ordered := h.sublist (List.dropWhile_sublist _)
  -- Scopes that start behind the span are not in it.
  have hrest : ∀ scope ∈ (level.after span.start).dropWhile (·.span.start < span.stop),
      span.contains scope.span = false := by
    intro scope hs
    obtain ⟨hmem, hge⟩ := hafter.mem_dropWhile_start.1 hs
    have := hafter.shown scope hmem
    rw [← Bool.not_eq_true, Span.contains_iff]
    omega
  have hparts : level = level.before span.start ++ (level.within span ++
      (level.after span.start).dropWhile (·.span.start < span.stop)) := by
    unfold within
    rw [List.takeWhile_append_dropWhile, before_append_after]
  have hfilter : ∀ p : Scope → Bool, level.filter p = (level.before span.start).filter p ++
      ((level.within span).filter p ++
        ((level.after span.start).dropWhile (·.span.start < span.stop)).filter p) := by
    intro p
    rw [← List.filter_append, ← List.filter_append, ← hparts]
  -- Scopes on either side of the span are kept as they are.
  have hkept : ∀ part : Level, (∀ scope ∈ part, span.contains scope.span = false) →
      part.filter (fun scope => span.contains scope.span) = [] ∧
        part.filter (fun scope => !span.contains scope.span) = part := by
    intro part hpart
    exact ⟨List.filter_eq_nil_iff.2 fun scope hs => by simp [hpart scope hs],
      List.filter_eq_self.2 fun scope hs => by simp [hpart scope hs]⟩
  unfold extract
  refine Prod.ext ?_ ?_
  · dsimp only
    rw [hfilter, (hkept _ hbefore).1, (hkept _ hrest).1, List.nil_append, List.append_nil]
  · dsimp only
    rw [hfilter, (hkept _ hbefore).2, (hkept _ hrest).2, List.append_assoc]

end Ordered

/-- Taking out the scope at an offset leaves the others. -/
theorem extractAt?_eq_some {level rest : Level} {start : Nat} {scope : Scope}
    (h : level.extractAt? start = some (scope, rest)) :
    scope.span.start = start ∧ level.Perm (scope :: rest) ∧ rest.Sublist level := by
  induction level generalizing rest with
  | nil => simp [extractAt?] at h
  | cons first level ih =>
    unfold extractAt? at h
    split at h
    · next hstart =>
      obtain ⟨rfl, rfl⟩ := Prod.mk.inj (Option.some.inj h)
      exact ⟨hstart, .refl _, List.sublist_cons_self _ _⟩
    · obtain ⟨⟨found, others⟩, hrec, heq⟩ := Option.map_eq_some_iff.1 h
      obtain ⟨rfl, rfl⟩ := Prod.mk.inj heq
      obtain ⟨hstart, hperm, hsub⟩ := ih hrec
      exact ⟨hstart, (hperm.cons first).trans (.swap _ _ _), hsub.cons_cons first⟩

/-- A scope that starts at an offset is there to be taken out. -/
theorem extractAt?_isSome {level : Level} {scope : Scope} (h : scope ∈ level) :
    (level.extractAt? scope.span.start).isSome = true := by
  induction level with
  | nil => cases h
  | cons first level ih =>
    unfold extractAt?
    split
    · rfl
    · next hne =>
      rcases List.mem_cons.1 h with rfl | h
      · exact absurd rfl hne
      · rw [Option.isSome_map]
        exact ih h

end Level

end TextScopes
