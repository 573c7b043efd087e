import TextScopes.Proofs.Table
import TextScopes.Proofs.Tokenizer.Block

/-!
# Which groups of a match are reported

A match reports the named groups that took part in it, cut to it, one after the other: the one that
starts first, of those the longest, and of those the one with the smallest number
(`Captures.Group.Before`). A group is left out when it crosses one that was reported before it
(`Captures.Group.Crosses`). So of two groups that are reported the earlier one holds the later one
or stops before it, and the level of a group counts the earlier ones around it
(`Captures.tokens_eq_reported`).

What is asked here of all groups reported before, the nesting asks of one group only, the innermost
of those that are open. That this is enough is `Captures.nest_reported`, an induction over the
groups in their order. What carries it is that every group reported so far is open or has stopped,
and that the open ones lie inside one another (`Captures.Opened`).
-/

namespace TextScopes

/-- Sorting leaves entries that are tied with one another in their order. -/
theorem filter_mergeSort {α : Type} {le : α → α → Bool}
    (trans : ∀ a b c, le a b = true → le b c = true → le a c = true)
    (total : ∀ a b, (le a b || le b a) = true) (xs : List α) {p : α → Bool}
    (htied : ∀ a b, p a = true → p b = true → le a b = true) :
    (xs.mergeSort le).filter p = xs.filter p := by
  -- The elements that are chosen are tied, and so in order already.
  have hpairs : (xs.filter p).Pairwise fun a b => le a b = true := by
    refine List.pairwise_of_forall_mem_list fun a ha b hb => ?_
    exact htied a b (List.mem_filter.1 ha).2 (List.mem_filter.1 hb).2
  have hsub : (xs.filter p).Sublist ((xs.mergeSort le).filter p) := by
    have h := (List.sublist_mergeSort trans total hpairs List.filter_sublist).filter p
    rw [List.filter_filter] at h
    simpa only [Bool.and_self] using h
  have hlength := ((List.mergeSort_perm xs le).filter p).length_eq
  exact (hsub.eq_of_length hlength.symm).symm

namespace Captures

/-- A named group of a match, cut to it. -/
structure Group where
  index : Nat
  span : Span
  name : String
  deriving DecidableEq

namespace Group

/-- The order in which groups are reported: by start, then the longer first, then by number. -/
def Before (a b : Group) : Prop :=
  a.span.start < b.span.start ∨ (a.span.start = b.span.start ∧
    (b.span.stop < a.span.stop ∨ (a.span.stop = b.span.stop ∧ a.index < b.index)))

instance (a b : Group) : Decidable (a.Before b) := by
  unfold Before
  infer_instance

/-- The groups share a byte, and the second does not lie inside the first. -/
def Crosses (a b : Group) : Prop :=
  a.span.intersects b.span = true ∧ a.span.contains b.span = false

/-- A group with this number is named, took part in the match, and has a byte left
when it is cut to it. -/
structure TookPart (g : Group) (captures : Captures) (found : Match) : Prop where
  named : captures.find? g.index = some g.name
  clip : ∃ span, found.group? g.index = some span ∧ g.span = span.clip found.span
  shown : g.span.start < g.span.stop

/-- What is nested of a group. -/
def entry (g : Group) : Span × String := (g.span, g.name)

/-- No group comes before itself. -/
theorem not_before_self (a : Group) : ¬ a.Before a := by
  unfold Before
  omega

/-- Of two groups no more than one comes before the other. -/
theorem Before.asymm {a b : Group} (h : a.Before b) : ¬ b.Before a := by
  unfold Before at h ⊢
  omega

/-- A group starts no later than those behind it. -/
theorem Before.start_le {a b : Group} (h : a.Before b) : a.span.start ≤ b.span.start := by
  unfold Before at h
  omega

/-- A group that stops before another one does not cross it. -/
theorem not_crosses_of_stop_le {a b : Group} (h : a.span.stop ≤ b.span.start) :
    ¬ a.Crosses b := by
  rintro ⟨hshare, -⟩
  rw [Span.intersects_iff] at hshare
  omega

/-- A group that does not cross one behind it stops before that or holds it. -/
theorem stop_le_or_contains {a b : Group} (hbefore : a.Before b)
    (hshown : b.span.start < b.span.stop)
    (h : ¬ a.Crosses b) : a.span.stop ≤ b.span.start ∨ a.span.contains b.span = true := by
  have hstart := hbefore.start_le
  rw [Crosses, not_and, Bool.not_eq_false] at h
  rcases Nat.lt_or_ge b.span.start a.span.stop with hlt | hge
  · refine .inr (h ((Span.intersects_iff _ _).2 ?_))
    omega
  · exact .inl hge

end Group

/-- The groups that took part in a match, by their numbers. -/
def groups (captures : Captures) (found : Match) : List Group :=
  captures.entries.filterMap fun (index, name) => do
    let span := (← found.group? index).clip found.span
    if span.isEmpty then none else some ⟨index, span, name⟩

variable {captures : Captures} {found : Match}

/-- What is listed are the groups that took part. -/
theorem mem_groups {g : Group} : g ∈ captures.groups found ↔ g.TookPart captures found := by
  unfold groups
  rw [List.mem_filterMap]
  simp only [Option.bind_eq_bind, Option.bind_eq_some_iff, Prod.exists]
  constructor
  · -- A group that the captures name, found and not empty after the cut.
    rintro ⟨index, name, hmem, span, hgroup, h⟩
    split at h
    · cases h
    · next hne =>
      obtain rfl := Option.some.inj h
      rw [Span.isEmpty_iff, Nat.not_le] at hne
      exact ⟨Table.find?_of_mem hmem, ⟨span, hgroup, rfl⟩, hne⟩
  · -- A capture with this index is in the table, under one name only.
    rintro ⟨hnamed, ⟨span, hgroup, hclip⟩, hshown⟩
    obtain ⟨index, clipped, name⟩ := g
    obtain ⟨⟨key, value⟩, hfind, rfl⟩ := Option.map_eq_some_iff.1 hnamed
    obtain rfl : key = index := by simpa using List.find?_some hfind
    refine ⟨key, value, List.mem_of_find?_eq_some hfind, span, hgroup, ?_⟩
    dsimp only at hclip hshown ⊢
    rw [← hclip, if_neg (by rw [Span.isEmpty_iff]; omega)]

/-- The groups are listed by ascending numbers. -/
theorem pairwise_index_groups (captures : Captures) (found : Match) :
    (captures.groups found).Pairwise fun a b => a.index < b.index := by
  refine List.Pairwise.filterMap _ (fun x y hlt a ha b hb => ?_) captures.ascending
  -- A group has the index of its entry, and these ascend.
  have hindex : ∀ {entry : Nat × String} {g : Group},
      g ∈ (do
        let span := (← found.group? entry.1).clip found.span
        if span.isEmpty then none else some (⟨entry.1, span, entry.2⟩ : Group)) →
      g.index = entry.1 := by
    intro entry g hg
    simp only [Option.mem_def, Option.bind_eq_bind, Option.bind_eq_some_iff] at hg
    obtain ⟨span, -, hg⟩ := hg
    split at hg
    · cases hg
    · obtain rfl := Option.some.inj hg
      rfl
  rw [hindex ha, hindex hb]
  exact hlt

/-- What is nested are the groups that took part. -/
theorem clipped_eq_map (captures : Captures) (found : Match) :
    captures.clipped found = (captures.groups found).map Group.entry := by
  unfold clipped groups
  rw [List.map_filterMap]
  congr 1
  funext ⟨index, name⟩
  dsimp only
  cases found.group? index with
  | none => rfl
  | some span =>
    simp only [Option.bind_eq_bind, Option.bind_some]
    split <;> rfl

/-- The groups that took part, in the order in which they are reported. -/
def inOrder (captures : Captures) (found : Match) : List Group :=
  (captures.groups found).mergeSort fun a b => outsideIn a.entry b.entry

/-- What is nested are the groups in the order in which they are reported. -/
theorem map_entry_inOrder (captures : Captures) (found : Match) :
    (captures.inOrder found).map Group.entry = (captures.clipped found).mergeSort outsideIn := by
  unfold inOrder
  rw [clipped_eq_map]
  exact List.map_mergeSort fun _ _ _ _ => rfl

/-- The groups in the order in which they are reported are those that took part. -/
theorem mem_inOrder {g : Group} : g ∈ captures.inOrder found ↔ g.TookPart captures found := by
  unfold inOrder
  rw [List.mem_mergeSort, mem_groups]

/-- The groups are sorted as they are reported. -/
theorem pairwise_before_inOrder (captures : Captures) (found : Match) :
    (captures.inOrder found).Pairwise Group.Before := by
  -- The sort looks at starts and stops only.
  have hle : ∀ a b : Group, outsideIn a.entry b.entry = true ↔ a.span.start < b.span.start ∨
      (a.span.start = b.span.start ∧ b.span.stop ≤ a.span.stop) := by
    intro a b
    simp only [outsideIn, Bool.or_eq_true, Bool.and_eq_true, decide_eq_true_eq]
    exact Iff.rfl
  have htrans : ∀ a b c : Group, outsideIn a.entry b.entry = true →
      outsideIn b.entry c.entry = true →
      outsideIn a.entry c.entry = true := by
    intro a b c hab hbc
    rw [hle] at hab hbc ⊢
    omega
  have htotal : ∀ a b : Group,
      (outsideIn a.entry b.entry || outsideIn b.entry a.entry) = true := by
    intro a b
    rw [Bool.or_eq_true, hle, hle]
    omega
  rw [List.pairwise_iff_forall_sublist]
  intro a b hsub
  have hsorted : outsideIn a.entry b.entry = true :=
    List.pairwise_iff_forall_sublist.1 (List.pairwise_mergeSort htrans htotal _) hsub
  -- Groups with one span keep the order of their numbers.
  have hties : ((captures.inOrder found).filter fun g => g.span = a.span).Pairwise
      fun a b => a.index < b.index := by
    have hfilter : (captures.inOrder found).filter (fun g => g.span = a.span) =
        (captures.groups found).filter fun g => g.span = a.span := by
      refine filter_mergeSort htrans htotal _ fun x y hx hy => ?_
      rw [decide_eq_true_eq] at hx hy
      rw [hle, hx, hy]
      omega
    rw [hfilter]
    exact (pairwise_index_groups captures found).filter _
  rw [hle] at hsorted
  unfold Group.Before
  by_cases hspan : b.span = a.span
  · -- With one span the two are tied, and their numbers decide.
    have hpair : List.Sublist [a, b]
        ((captures.inOrder found).filter fun g => g.span = a.span) := by
      have h := hsub.filter fun g => g.span = a.span
      simpa [hspan] using h
    have hindex := List.pairwise_iff_forall_sublist.1 hties hpair
    rw [hspan]
    omega
  · -- With two spans the sort has decided.
    have hdiffer : ¬(b.span.start = a.span.start ∧ b.span.stop = a.span.stop) := by
      rintro ⟨hstart, hstop⟩
      have hends : b.span = ⟨b.span.start, b.span.stop⟩ := rfl
      exact hspan (by rw [hends, hstart, hstop])
    omega

/-- A group that is not taken meets an open one which neither holds it nor stops before it. -/
theorem exists_of_around_eq_false {span : Span} {opened outer : List Span}
    (h : around span opened = (outer, false)) :
    ∃ top rest, outer = top :: rest ∧ top.contains span = false ∧ span.start < top.stop := by
  induction opened with
  | nil => simp [around] at h
  | cons top rest ih =>
    unfold around at h
    split at h
    · simp at h
    · -- The search stops at a group that neither holds the span nor stops before it.
      next hout =>
      split at h
      · exact ih h
      · next hstop =>
        obtain ⟨rfl, -⟩ := Prod.mk.inj h
        exact ⟨top, rest, rfl, by simpa using hout, Nat.lt_of_not_le hstop⟩

/-- Of the groups reported so far, all of which come before those that are left, some are
open, the innermost first and each inside the next, and the others have stopped where the
groups that are left start. -/
structure Opened (earlier opened rest : List Group) : Prop where
  before : ∀ r ∈ earlier, ∀ g ∈ rest, r.Before g
  stopped : ∃ closed, earlier.Perm (closed ++ opened) ∧
    ∀ r ∈ closed, ∀ g ∈ rest, r.span.stop ≤ g.span.start
  nested : opened.Pairwise fun inner outer => outer.span.contains inner.span = true

namespace Opened

variable {earlier opened rest : List Group} {g : Group}

/-- No group is open before the first. -/
theorem nil (rest : List Group) : Opened [] [] rest :=
  ⟨by simp, ⟨[], .nil, by simp⟩, .nil⟩

/-- Open groups that stop before the next one are closed. -/
theorem close {closed : List Group} (h : Opened earlier (closed ++ opened) (g :: rest))
    (hsorted : (g :: rest).Pairwise Group.Before)
    (hclosed : ∀ r ∈ closed, r.span.stop ≤ g.span.start) :
    Opened earlier opened (g :: rest) := by
  obtain ⟨before, hperm, hbefore⟩ := h.stopped
  refine ⟨h.before, ⟨before ++ closed, by rwa [List.append_assoc], fun r hr other ho => ?_⟩,
    (List.pairwise_append.1 h.nested).2.1⟩
  rcases List.mem_append.1 hr with hr | hr
  · exact hbefore r hr other ho
  · -- A group that is closed now stops before the group, and so before all that follow.
    have hstop := hclosed r hr
    rcases List.mem_cons.1 ho with rfl | ho
    · exact hstop
    · exact Nat.le_trans hstop (List.rel_of_pairwise_cons hsorted ho).start_le

/-- A group that is left out leaves the others as they are. -/
theorem skip (h : Opened earlier opened (g :: rest)) : Opened earlier opened rest := by
  obtain ⟨closed, hperm, hclosed⟩ := h.stopped
  exact ⟨fun r hr other ho => h.before r hr other (List.mem_cons_of_mem _ ho),
    ⟨closed, hperm, fun r hr other ho => hclosed r hr other (List.mem_cons_of_mem _ ho)⟩,
      h.nested⟩

/-- A group inside all that are open is open for those behind it. -/
theorem take (h : Opened earlier opened (g :: rest)) (hsorted : (g :: rest).Pairwise Group.Before)
    (hin : ∀ r ∈ opened, r.span.contains g.span = true) :
    Opened (earlier ++ [g]) (g :: opened) rest := by
  obtain ⟨closed, hperm, hclosed⟩ := h.skip.stopped
  refine ⟨fun r hr other ho => ?_, ⟨closed, ?_, hclosed⟩,
    List.pairwise_cons.2 ⟨hin, h.nested⟩⟩
  · -- The group itself comes before those behind it.
    rcases List.mem_append.1 hr with hr | hr
    · exact h.skip.before r hr other ho
    · rw [List.mem_singleton.1 hr]
      exact List.rel_of_pairwise_cons hsorted ho
  · have hlast : (closed ++ opened ++ [g]).Perm (closed ++ g :: opened) := by
      rw [List.append_assoc]
      exact List.perm_append_comm.append_left closed
    exact (hperm.append_right [g]).trans hlast

/-- When all open groups are around a group, then no group reported so far crosses it, and the open
ones are those around it. -/
theorem of_contains (h : Opened earlier opened (g :: rest)) (hshown : g.span.start < g.span.stop)
    (hin : ∀ r ∈ opened, r.span.contains g.span = true) :
    (∀ r ∈ earlier, ¬ r.Crosses g) ∧
      (earlier.countP fun r => r.span.contains g.span) = opened.length := by
  obtain ⟨closed, hperm, hclosed⟩ := h.stopped
  have hstop : ∀ r ∈ closed, r.span.stop ≤ g.span.start := fun r hr =>
    hclosed r hr g List.mem_cons_self
  constructor
  · intro r hr hcross
    rcases List.mem_append.1 (hperm.mem_iff.1 hr) with hr | hr
    · -- A closed group stops before the group, and an open one holds it.
      exact Group.not_crosses_of_stop_le (hstop r hr) hcross
    · have hout := hcross.2
      rw [hin r hr] at hout
      cases hout
  · -- So it is the open groups alone that hold it.
    have hnone : (closed.countP fun r => r.span.contains g.span) = 0 := by
      refine List.countP_eq_zero.2 fun r hr hc => ?_
      have := hstop r hr
      have := (Span.contains_iff _ _).1 hc
      omega
    rw [hperm.countP_eq, List.countP_append, hnone, Nat.zero_add]
    exact List.countP_eq_length.2 hin

/-- When the innermost of the open groups is around a group, all of them are. -/
theorem contains_of_head (h : Opened earlier opened rest)
    (htop : ∀ top ∈ (opened.map (·.span)).head?, top.contains g.span = true) :
    ∀ r ∈ opened, r.span.contains g.span = true := by
  cases opened with
  | nil => simp
  | cons top outer =>
    -- What is inside the innermost open group is inside those around it.
    have hhead : top.span.contains g.span = true := htop top.span rfl
    intro r hr
    rcases List.mem_cons.1 hr with rfl | hr
    · exact hhead
    · have hheld := (Span.contains_iff _ _).1 (List.rel_of_pairwise_cons h.nested hr)
      have hhead := (Span.contains_iff _ _).1 hhead
      exact (Span.contains_iff _ _).2
        ⟨Nat.le_trans hheld.1 hhead.1, Nat.le_trans hhead.2 hheld.2⟩

/-- The open groups have been reported. -/
theorem mem_earlier (h : Opened earlier opened rest) {r : Group} (hr : r ∈ opened) :
    r ∈ earlier := by
  obtain ⟨closed, hperm, -⟩ := h.stopped
  exact hperm.mem_iff.2 (List.mem_append_right _ hr)

end Opened

/-- The number of groups before a group that lie around it. -/
def depth (reported : List Group) (g : Group) : Nat :=
  reported.countP fun r => r.Before g ∧ r.span.contains g.span = true

/-- Of the groups that are left, behind those reported so far, `kept` are reported: they keep their
order, and a group is left out just when one that is reported before it crosses it. -/
structure Reported (earlier gs kept : List Group) : Prop where
  sublist : kept.Sublist gs
  mem_iff : ∀ g ∈ gs, g ∈ kept ↔ ¬∃ r ∈ earlier ++ kept, r.Before g ∧ r.Crosses g

namespace Reported

variable {earlier rest kept : List Group} {g : Group}

/-- A group that no earlier one crosses is reported. -/
theorem take (h : Reported (earlier ++ [g]) rest kept) (hsorted : (g :: rest).Pairwise Group.Before)
    (hfree : ∀ r ∈ earlier, ¬ r.Crosses g) : Reported earlier (g :: rest) (g :: kept) := by
  have hlist : earlier ++ g :: kept = earlier ++ [g] ++ kept := by simp
  refine ⟨h.sublist.cons_cons g, fun other ho => ?_⟩
  rcases List.mem_cons.1 ho with rfl | ho
  · refine iff_of_true List.mem_cons_self ?_
    rintro ⟨r, hr, hbefore, hcross⟩
    rcases List.mem_append.1 hr with hr | hr
    · exact hfree r hr hcross
    · -- The group itself and those behind it do not come before it.
      rcases List.mem_cons.1 hr with rfl | hr
      · exact r.not_before_self hbefore
      · exact (List.rel_of_pairwise_cons hsorted (h.sublist.subset hr)).asymm hbefore
  · have hbehind : g.Before other := List.rel_of_pairwise_cons hsorted ho
    -- A group behind it is another one, which is kept or left out as before.
    have hne : other ≠ g := by
      rintro rfl
      exact other.not_before_self hbehind
    rw [List.mem_cons, or_iff_right hne, hlist]
    exact h.mem_iff other ho

/-- A group that an earlier one crosses is left out. -/
theorem skip (h : Reported earlier rest kept) (hsorted : (g :: rest).Pairwise Group.Before)
    (hcross : ∃ r ∈ earlier, r.Before g ∧ r.Crosses g) :
    Reported earlier (g :: rest) kept := by
  refine ⟨h.sublist.cons g, fun other ho => ?_⟩
  rcases List.mem_cons.1 ho with rfl | ho
  · obtain ⟨r, hr, hcross⟩ := hcross
    refine iff_of_false (fun hmem => ?_) (not_not_intro ⟨r, List.mem_append_left _ hr, hcross⟩)
    exact other.not_before_self (List.rel_of_pairwise_cons hsorted (h.sublist.subset hmem))
  · exact h.mem_iff other ho

/-- No group behind one that is reported counts for its depth. -/
theorem depth_append_cons (h : kept.Sublist rest) (hsorted : (g :: rest).Pairwise Group.Before)
    (hbefore : ∀ r ∈ earlier, r.Before g) :
    depth (earlier ++ g :: kept) g = earlier.countP fun r => r.span.contains g.span := by
  -- Groups that come later do not count for the depth.
  have hbehind : (g :: kept).countP (fun r => r.Before g ∧ r.span.contains g.span = true) =
      0 := by
    refine List.countP_eq_zero.2 fun r hr hcount => ?_
    have hcount := (of_decide_eq_true hcount).1
    rcases List.mem_cons.1 hr with rfl | hr
    · exact r.not_before_self hcount
    · exact (List.rel_of_pairwise_cons hsorted (h.subset hr)).asymm hcount
  unfold depth
  rw [List.countP_append, hbehind, Nat.add_zero]
  refine List.countP_congr fun r hr => ?_
  simp only [hbefore r hr, true_and, decide_eq_true_eq]

end Reported

/-- Groups in their order are nested as they are reported, and the depth of a group is the number of
those before it that lie around it. -/
theorem nest_reported {earlier opened gs : List Group} (hopened : Opened earlier opened gs)
    (hsorted : gs.Pairwise Group.Before) (hshown : ∀ g ∈ gs, g.span.start < g.span.stop) :
    ∃ kept, Reported earlier gs kept ∧ nest (opened.map (·.span)) (gs.map Group.entry) =
      kept.map fun g => (depth (earlier ++ kept) g, g.span, g.name) := by
  induction gs generalizing earlier opened with
  | nil => exact ⟨[], ⟨.refl _, by simp⟩, rfl⟩
  | cons g rest ih =>
    have hrest := (List.pairwise_cons.1 hsorted).2
    obtain ⟨hg, hshown'⟩ := List.forall_mem_cons.1 hshown
    -- The open groups that stop before the group are closed.
    obtain ⟨closed, hcut, hclosed, htop⟩ := around_spec g.span (opened.map (·.span))
    generalize haround : around g.span (opened.map (·.span)) = result at hcut htop
    obtain ⟨outer, taken⟩ := result
    dsimp only at hcut htop
    obtain ⟨shut, left, rfl, rfl, rfl⟩ := List.map_eq_append_iff.1 hcut
    have hleft : Opened earlier left (g :: rest) :=
      hopened.close hsorted fun r hr => hclosed _ (List.mem_map_of_mem hr)
    rw [List.map_cons, Group.entry, nest, haround]
    cases taken with
    -- The group is taken, and all that are open hold it.
    | true =>
      have hin : ∀ r ∈ left, r.span.contains g.span = true := hleft.contains_of_head (htop rfl)
      obtain ⟨hfree, hcount⟩ := hleft.of_contains hg hin
      obtain ⟨kept, hkept, hnest⟩ := ih (hleft.take hsorted hin) hrest hshown'
      have hbefore : ∀ r ∈ earlier, r.Before g :=
        fun r hr => hleft.before r hr g List.mem_cons_self
      refine ⟨g :: kept, hkept.take hsorted hfree, ?_⟩
      rw [List.map_cons, List.append_assoc] at hnest
      dsimp only
      rw [hnest, List.length_map, List.map_cons,
        Reported.depth_append_cons hkept.sublist hsorted hbefore, hcount]
      rfl
    -- The group is left out, since an open one crosses it.
    | false =>
      obtain ⟨top, tops, hhead, hout, hlt⟩ := exists_of_around_eq_false haround
      obtain ⟨r, hr, rfl⟩ :=
        List.mem_map.1 (hhead ▸ List.mem_cons_self : top ∈ left.map (·.span))
      obtain ⟨kept, hkept, hnest⟩ := ih hleft.skip hrest hshown'
      refine ⟨kept, hkept.skip hsorted ?_, hnest⟩
      have hr := hleft.mem_earlier hr
      have hbefore := hleft.before r hr g List.mem_cons_self
      refine ⟨r, hr, hbefore, ?_, hout⟩
      have hstart := hbefore.start_le
      exact (Span.intersects_iff _ _).2 (by omega)

/-- A match reports the groups that are named, took part in it and have a byte left when they are
cut to it, except those that are crossed. They come by start, the longer first, and then by number.
A group is left out just when one that is reported before it shares a byte with it and does not hold
it; so of two groups that are reported the earlier one holds the later one or stops before it. All
lie inside the match, and the level of a group is that of the match's inside and one more for every
earlier group around it. -/
theorem tokens_eq_reported (captures : Captures) (found : Match) (offset level : Nat) :
    ∃ reported : List Group,
      (∀ g, g ∈ reported ↔ g.TookPart captures found ∧
        ¬∃ r ∈ reported, r.Before g ∧ r.span.intersects g.span = true ∧
          r.span.contains g.span = false) ∧
      reported.Pairwise Group.Before ∧
      (reported.Pairwise fun r g => r.span.stop ≤ g.span.start ∨
        r.span.contains g.span = true) ∧
      (∀ g ∈ reported, found.span.start ≤ g.span.start ∧ g.span.start < g.span.stop ∧
        g.span.stop ≤ found.span.stop) ∧
      captures.tokens found offset level = reported.map fun g =>
        ⟨g.name, g.span.shift offset,
          level + reported.countP fun r => r.Before g ∧ r.span.contains g.span = true⟩ := by
  have hsorted := pairwise_before_inOrder captures found
  have hshown : ∀ g ∈ captures.inOrder found, g.span.start < g.span.stop :=
    fun g hg => (mem_inOrder.1 hg).shown
  obtain ⟨kept, hkept, hnest⟩ := nest_reported (.nil _) hsorted hshown
  rw [List.nil_append, List.map_nil, map_entry_inOrder] at hnest
  -- A group that took part is kept unless a kept one crosses it.
  have hmem : ∀ g, g ∈ kept ↔ g.TookPart captures found ∧ ¬∃ r ∈ kept, r.Before g ∧
      r.Crosses g := by
    intro g
    constructor
    · intro hg
      have hin := hkept.sublist.subset hg
      exact ⟨mem_inOrder.1 hin, (hkept.mem_iff g hin).1 hg⟩
    · rintro ⟨hg, hfree⟩
      exact (hkept.mem_iff g (mem_inOrder.2 hg)).2 hfree
  have hbefore := hsorted.sublist hkept.sublist
  refine ⟨kept, hmem, hbefore, hbefore.imp_of_mem fun {r g} hr hg hrg => ?_, fun g hg => ?_, ?_⟩
  · -- Two kept groups do not cross, so the later one lies behind or inside.
    have hfree := ((hmem g).1 hg).2
    refine Group.stop_le_or_contains hrg ((hmem g).1 hg).1.shown fun hcross => ?_
    exact hfree ⟨r, hr, hrg, hcross⟩
  · obtain ⟨-, ⟨span, -, hclip⟩, hshown⟩ := ((hmem g).1 hg).1
    rw [hclip] at hshown ⊢
    exact ⟨Nat.le_max_right _ _, hshown, Nat.min_le_right _ _⟩
  · unfold tokens
    rw [hnest, List.map_map]
    rfl

end Captures

end TextScopes
