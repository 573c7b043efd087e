import TextScopes.Proofs.Expression.Finding
import TextScopes.Proofs.Token
import TextScopes.Tokenizer.Frame
import TextScopes.Tokenizer.Nesting

/-!
# The tokens of one match

The tokens of a match form a `Block`: from a base level upwards, inside the match, apart from one
another on each level, and each above the base level enclosed by one right below it. For the groups
of a match this is `Captures.block_tokens`. It rests on `Captures.nest_spec`, an induction over the
groups in the order of their starts; what carries it are the groups that are still open, which lie
inside one another, and of which each stands for the last group on its level.
-/

namespace TextScopes

/-- Tokens of one match: from level `base` upwards, between two offsets, apart on each level, and
each above `base` enclosed by another. -/
structure Block (base start stop : Nat) (tokens : List Token) : Prop where
  base_le : ∀ token ∈ tokens, base ≤ token.level
  inside : ∀ token ∈ tokens, start ≤ token.span.start ∧ token.span.stop ≤ stop
  fits : tokens.Pairwise Token.Fits
  enclosed : ∀ token ∈ tokens, token.Shown → base < token.level →
    ∃ outer ∈ tokens, outer.Encloses token

/-- A token with a block inside it, one level up, is a block. -/
theorem Block.cons (token : Token) {tokens : List Token}
    (h : Block (token.level + 1) token.span.start token.span.stop tokens) :
    Block token.level token.span.start token.span.stop (token :: tokens) := by
  refine ⟨fun other ho => ?_, fun other ho => ?_, ?_, fun other ho hshown hlevel => ?_⟩
  · rcases List.mem_cons.1 ho with rfl | ho
    · exact Nat.le_refl _
    · exact Nat.le_of_succ_le (h.base_le other ho)
  · rcases List.mem_cons.1 ho with rfl | ho
    · exact ⟨Nat.le_refl _, Nat.le_refl _⟩
    · exact h.inside other ho
  · refine List.pairwise_cons.2 ⟨fun other ho hlevel => ?_, h.fits⟩
    have := h.base_le other ho
    omega
  · rcases List.mem_cons.1 ho with rfl | ho
    · -- The token that lies around stands on the lowest level itself.
      omega
    · obtain heq | hlt := Nat.eq_or_lt_of_le (h.base_le other ho)
      · -- Right inside the token it is the token itself that lies around.
        obtain ⟨h1, h2⟩ := h.inside other ho
        exact ⟨token, List.mem_cons_self, heq, (Span.contains_iff _ _).2 ⟨h1, h2⟩⟩
      · obtain ⟨outer, hmem, henc⟩ := h.enclosed other ho hshown hlt
        exact ⟨outer, List.mem_cons_of_mem _ hmem, henc⟩

namespace Captures

/-- Closing groups leaves those that do not stop before the span, the innermost of which holds the
span if the span is taken. -/
theorem around_spec (span : Span) (opened : List Span) :
    ∃ closed, opened = closed ++ (around span opened).1 ∧
      (∀ group ∈ closed, group.stop ≤ span.start) ∧
      ((around span opened).2 = true →
        ∀ top ∈ (around span opened).1.head?, top.contains span = true) := by
  induction opened with
  | nil => exact ⟨[], rfl, by simp, by simp [around]⟩
  | cons top outer ih =>
    unfold around
    split
    · -- The innermost open group holds the span.
      next hin => exact ⟨[], rfl, by simp, by simpa using hin⟩
    · split
      · -- A group that stops before the span is closed, and the search goes on outwards.
        next hstop =>
        obtain ⟨closed, heq, hclosed, htop⟩ := ih
        refine ⟨top :: closed, by rw [List.cons_append, ← heq], fun group hg => ?_, htop⟩
        rcases List.mem_cons.1 hg with rfl | hg
        · exact hstop
        · exact hclosed group hg
      · exact ⟨[], rfl, by simp, by simp⟩

/-- What nesting comes to when the groups in `opened` are open: the depth of a group is the number
of groups around it. Groups of one depth follow one another, also behind the open group of that
depth, and a group is held by one that is a step less deep. -/
structure Nested (opened : List Span) (spans : List (Span × String))
    (nested : List (Nat × Span × String)) : Prop where
  mem : ∀ x ∈ nested, x.2 ∈ spans
  apart : nested.Pairwise fun x y => x.1 = y.1 → x.2.1.stop ≤ y.2.1.start
  behind : ∀ x ∈ nested, ∀ group, opened.reverse[x.1]? = some group →
    group.stop ≤ x.2.1.start
  held : ∀ x ∈ nested, ∀ depth, x.1 = depth + 1 →
    (∃ group, opened.reverse[depth]? = some group ∧ group.contains x.2.1 = true) ∨
      ∃ y ∈ nested, y.1 = depth ∧ y.2.1.contains x.2.1 = true

/-- Closing groups that have stopped leaves the nesting as it is. -/
theorem Nested.append {closed outer : List Span} {start : Nat} {spans : List (Span × String)}
    {nested : List (Nat × Span × String)} (hclosed : ∀ group ∈ closed, group.stop ≤ start)
    (hstart : ∀ x ∈ spans, start ≤ x.1.start) (h : Nested outer spans nested) :
    Nested (closed ++ outer) spans nested := by
  refine ⟨h.mem, h.apart, fun x hx group hg => ?_, fun x hx depth hd => ?_⟩
  · -- A group is still open, or it is one of those that are closed and stops before all spans.
    rw [List.reverse_append, List.getElem?_append] at hg
    split at hg
    · exact h.behind x hx group hg
    · have hmem : group ∈ closed := List.mem_reverse.1 (List.mem_of_getElem? hg)
      exact Nat.le_trans (hclosed group hmem) (hstart _ (h.mem x hx))
  · -- What holds a span is open further out, or nested.
    rcases h.held x hx depth hd with ⟨group, hg, hc⟩ | hnested
    · refine .inl ⟨group, ?_, hc⟩
      rw [List.reverse_append, List.getElem?_append_left (List.getElem?_eq_some_iff.1 hg).1, hg]
    · exact .inr hnested

/-- A group that is left out leaves the nesting as it is. -/
theorem Nested.skip {outer : List Span} {spans : List (Span × String)}
    {nested : List (Nat × Span × String)} (first : Span × String)
    (h : Nested outer spans nested) :
    Nested outer (first :: spans) nested :=
  ⟨fun x hx => List.mem_cons_of_mem _ (h.mem x hx), h.apart, h.behind, h.held⟩

/-- A group that is taken opens a depth of its own. -/
theorem Nested.cons {outer : List Span} (first : Span × String) {spans : List (Span × String)}
    {nested : List (Nat × Span × String)}
    (htop : ∀ top ∈ outer.head?, top.contains first.1 = true)
    (h : Nested (first.1 :: outer) spans nested) :
    Nested outer (first :: spans) ((outer.length, first) :: nested) := by
  have hlen : outer.reverse.length = outer.length := List.length_reverse
  -- An open group keeps its depth, and the new one stands at the depth behind all of them.
  have hsame : ∀ {depth : Nat} {group : Span}, outer.reverse[depth]? = some group →
      (first.1 :: outer).reverse[depth]? = some group := by
    intro depth group hg
    rw [List.reverse_cons, List.getElem?_append_left (List.getElem?_eq_some_iff.1 hg).1, hg]
  have hnew : (first.1 :: outer).reverse[outer.length]? = some first.1 := by
    rw [List.reverse_cons, List.getElem?_append_right (by omega), hlen, Nat.sub_self]
    rfl
  refine ⟨fun x hx => ?_, List.pairwise_cons.2 ⟨fun x hx heq => ?_, h.apart⟩,
    fun x hx group hg => ?_, fun x hx depth hd => ?_⟩
  · rcases List.mem_cons.1 hx with rfl | hx
    · exact List.mem_cons_self
    · exact List.mem_cons_of_mem _ (h.mem x hx)
  · exact h.behind x hx first.1 (heq ▸ hnew)
  · rcases List.mem_cons.1 hx with rfl | hx
    · -- The new group stands at a depth at which no group was open.
      have := (List.getElem?_eq_some_iff.1 hg).1
      rw [hlen] at this
      exact absurd this (Nat.lt_irrefl _)
    · exact h.behind x hx group (hsame hg)
  · rcases List.mem_cons.1 hx with rfl | hx
    · -- It is held by the group that was open last.
      cases outer with
      | nil => simp at hd
      | cons top outer =>
        refine .inl ⟨top, ?_, htop top rfl⟩
        rw [List.length_cons, Nat.add_right_cancel_iff] at hd
        rw [← hd, List.reverse_cons, List.getElem?_append_right (by simp), List.length_reverse,
          Nat.sub_self]
        rfl
    · -- What the new group held as an open one it now holds as one of the nested.
      rcases h.held x hx depth hd with ⟨group, hg, hc⟩ | ⟨y, hy, hyd, hyc⟩
      · rw [List.reverse_cons, List.getElem?_append] at hg
        split at hg
        · exact .inl ⟨group, hg, hc⟩
        · next hge =>
          have hlt := (List.getElem?_eq_some_iff.1 hg).1
          rw [List.length_singleton] at hlt
          have hdepth : depth - outer.reverse.length = 0 := by omega
          rw [hdepth] at hg
          obtain rfl := Option.some.inj hg
          exact .inr ⟨(outer.length, first), List.mem_cons_self, by dsimp only; omega, hc⟩
      · exact .inr ⟨y, List.mem_cons_of_mem _ hy, hyd, hyc⟩

/-- Groups in the order of their starts are nested. -/
theorem nest_spec (opened : List Span) {spans : List (Span × String)}
    (hsorted : spans.Pairwise fun a b => a.1.start ≤ b.1.start) :
    Nested opened spans (nest opened spans) := by
  induction spans generalizing opened with
  | nil => exact ⟨by simp [nest], by simp [nest], by simp [nest], by simp [nest]⟩
  | cons first spans ih =>
    obtain ⟨hfirst, hrest⟩ := List.pairwise_cons.1 hsorted
    obtain ⟨closed, heq, hclosed, htop⟩ := around_spec first.1 opened
    obtain ⟨span, name⟩ := first
    unfold nest
    generalize around span opened = result at heq htop
    obtain ⟨outer, taken⟩ := result
    dsimp only at heq htop
    rw [heq]
    have hspan : ∀ x ∈ (span, name) :: spans, span.start ≤ x.1.start := by
      intro x hx
      rcases List.mem_cons.1 hx with rfl | hx
      · exact Nat.le_refl _
      · exact hfirst x hx
    -- A group that is taken is open for those behind it, and one that is not is left out.
    cases taken with
    | true =>
      have h : Nested (span :: outer) spans (nest (span :: outer) spans) := ih _ hrest
      exact (Nested.cons (span, name) (htop rfl) h).append hclosed hspan
    | false => exact ((ih _ hrest).skip (span, name)).append hclosed hspan

/-- The groups of a match are inside it, and have a byte. -/
theorem mem_clipped {captures : Captures} {found : Match} {x : Span × String}
    (h : x ∈ captures.clipped found) :
    found.span.start ≤ x.1.start ∧ x.1.start < x.1.stop ∧ x.1.stop ≤ found.span.stop ∧
      ∃ index span, found.group? index = some span ∧ x.1 = span.clip found.span := by
  obtain ⟨⟨index, name⟩, -, h⟩ := List.mem_filterMap.1 h
  simp only [Option.bind_eq_bind, Option.bind_eq_some_iff] at h
  obtain ⟨span, hgroup, h⟩ := h
  split at h
  · -- A group that is empty after the cut is left out.
    cases h
  · next hne =>
    obtain rfl := Option.some.inj h
    rw [Span.isEmpty_iff] at hne
    refine ⟨Nat.le_max_right _ _, Nat.lt_of_not_le hne, Nat.min_le_right _ _, index, span,
      hgroup, rfl⟩

/-- Groups are nested in the order of their starts. -/
theorem pairwise_sorted (spans : List (Span × String)) :
    (spans.mergeSort outsideIn).Pairwise fun a b => a.1.start ≤ b.1.start := by
  -- The order is one of starts and, of one start, of stops.
  have htrans : ∀ a b c, outsideIn a b = true → outsideIn b c = true →
      outsideIn a c = true := by
    intro a b c hab hbc
    simp only [outsideIn, Bool.or_eq_true, Bool.and_eq_true, decide_eq_true_eq] at hab hbc ⊢
    omega
  have htotal : ∀ a b, (outsideIn a b || outsideIn b a) = true := by
    intro a b
    simp only [outsideIn, Bool.or_eq_true, Bool.and_eq_true, decide_eq_true_eq]
    omega
  refine (List.pairwise_mergeSort htrans htotal spans).imp fun hab => ?_
  simp only [outsideIn, Bool.or_eq_true, Bool.and_eq_true, decide_eq_true_eq] at hab
  omega

/-- A token of a match's groups stands for a group cut to the match. -/
theorem mem_tokens {captures : Captures} {found : Match} {offset level : Nat} {token : Token}
    (h : token ∈ captures.tokens found offset level) :
    ∃ depth x, (depth, x) ∈ nest [] ((captures.clipped found).mergeSort outsideIn) ∧
      x ∈ captures.clipped found ∧
      token = ⟨x.2, x.1.shift offset, level + depth⟩ := by
  obtain ⟨⟨depth, span, name⟩, hmem, rfl⟩ := List.mem_map.1 h
  have hin := (nest_spec [] (pairwise_sorted (captures.clipped found))).mem _ hmem
  exact ⟨depth, (span, name), hmem, List.mem_mergeSort.1 hin, rfl⟩

/-- The tokens of a match's groups are a block inside the match. -/
theorem block_tokens (captures : Captures) (found : Match) (offset level : Nat) :
    Block level (offset + found.span.start) (offset + found.span.stop)
      (captures.tokens found offset level) := by
  have hnest := nest_spec [] (pairwise_sorted (captures.clipped found))
  refine ⟨fun token h => ?_, fun token h => ?_, ?_, fun token h hshown hlevel => ?_⟩
  · obtain ⟨depth, x, -, -, rfl⟩ := mem_tokens h
    exact Nat.le_add_right _ _
  · obtain ⟨depth, x, -, hx, rfl⟩ := mem_tokens h
    -- A group is cut to the match.
    obtain ⟨h1, -, h2, -⟩ := mem_clipped hx
    simp only [Span.shift]
    omega
  · -- Tokens of one level have one depth.
    refine List.pairwise_map.2 (hnest.apart.imp fun {a b} hab hlevel _ _ => ?_)
    have := hab (by simpa using hlevel)
    exact .inl (Nat.add_le_add_right this offset)
  · obtain ⟨depth, x, hmem, -, rfl⟩ := mem_tokens h
    obtain ⟨below, rfl⟩ : ∃ below, depth = below + 1 :=
      ⟨depth - 1, by simp at hlevel; omega⟩
    -- No group is open before the first, so another group holds this one.
    obtain ⟨group, hg, -⟩ | ⟨y, hy, hd, hc⟩ := hnest.held _ hmem below rfl
    · simp at hg
    · refine ⟨_, List.mem_map_of_mem hy, ?_, ?_⟩
      · dsimp only
        omega
      · rw [Span.contains_iff] at hc ⊢
        exact ⟨Nat.add_le_add_right hc.1 offset, Nat.add_le_add_right hc.2 offset⟩

/-- The tokens of a match's groups start and stop at boundaries of the line. -/
theorem boundaries_of_mem_tokens {E : Engine} (hG : E.GroupsBounded) {e : Expression E}
    {content : String} {pos : Nat} {found : Match} (hpos : Text.isBoundary content pos = true)
    (hfound : e.findAt content pos = some found) (hahead : found.Ahead content pos)
    {captures : Captures} {offset level : Nat} {token : Token}
    (h : token ∈ captures.tokens found offset level) :
    ∃ span : Span, token.span = span.shift offset ∧
      Text.isBoundary content span.start = true ∧
      Text.isBoundary content span.stop = true := by
  obtain ⟨depth, x, -, hx, rfl⟩ := mem_tokens h
  obtain ⟨-, -, -, index, group, hgroup, hclip⟩ := mem_clipped hx
  obtain ⟨hstart, hstop⟩ := Expression.boundaries_of_group? hG hpos hfound hgroup
  refine ⟨x.1, rfl, ?_, ?_⟩
  · -- A cut end is an end of the match, and any other one an end of the group.
    rw [hclip, Span.clip]
    rcases Nat.le_total group.start found.span.start with hle | hle
    · rw [Nat.max_eq_right hle]
      exact hahead.boundary_start
    · rw [Nat.max_eq_left hle]
      exact hstart
  · rw [hclip, Span.clip]
    rcases Nat.le_total group.stop found.span.stop with hle | hle
    · rw [Nat.min_eq_left hle]
      exact hstop
    · rw [Nat.min_eq_right hle]
      exact hahead.boundary_stop

end Captures

/-- The token of a match, if it has a name, and those of its groups are a block. -/
theorem block_matching (name : Option String) (captures : Captures) (found : Match)
    (offset level : Nat) :
    Block level (offset + found.span.start) (offset + found.span.stop)
      (Token.ofName name (found.span.shift offset) level
        ++ captures.tokens found offset (level + nameDepth name)) := by
  cases name with
  | none => exact captures.block_tokens found offset level
  | some name =>
    have h := captures.block_tokens found offset (level + 1)
    rw [Nat.add_comm offset, Nat.add_comm offset] at h ⊢
    exact Block.cons ⟨name, found.span.shift offset, level⟩ h

end TextScopes
