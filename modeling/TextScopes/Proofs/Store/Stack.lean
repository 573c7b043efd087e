import TextScopes.Proofs.Store.Layers

/-!
# The stacks of an edited store

An edit leaves the bytes in front of it and those behind it, and may put others in between. What it
carries a scope to covers a byte that is left just where the scope covered it before
(`Edit.covers_carry`), and covers what is put in just when the edit lies strictly inside the scope
(`Edit.covers_carry_put`). A scope goes when the edit takes all of its bytes
(`Edit.carry?_eq_none_iff`).

An edited store lists what its entries are carried to, in the same order
(`Store.Sound.toList_apply`). The layers at an offset are a choice among these, so that the two
facts on scopes give the layers at every byte of the edited text (`Store.stack_apply`).
-/

namespace TextScopes

namespace Edit

variable {edit : Edit} {scope : Scope} {offset : Nat}

/-- A start is carried in front of a byte that is left just when it was in front of it. -/
theorem shift_le_shift_iff (hle : edit.start ≤ edit.stopBefore)
    (hleft : offset < edit.start ∨ edit.stopBefore ≤ offset) (start : Nat) :
    edit.shift start ≤ edit.shift offset ↔ start ≤ offset := by
  cases edit with
  | insert pos text =>
    have hleft : offset < pos ∨ pos ≤ offset := hleft
    simp only [shift]
    split <;> split <;> omega
  -- The cases are on which side of the deletion the two offsets lie.
  | delete span =>
    have hle : span.start ≤ span.stop := hle
    have hleft : offset < span.start ∨ span.stop ≤ offset := hleft
    simp only [shift, Span.length]
    split <;> split <;> (try split) <;> (try split) <;> omega

/-- A stop is carried behind a byte that is left just when it was behind it. -/
theorem shift_lt_shiftStop_iff (hle : edit.start ≤ edit.stopBefore)
    (hleft : offset < edit.start ∨ edit.stopBefore ≤ offset) (stop : Nat) :
    edit.shift offset < edit.shiftStop stop ↔ offset < stop := by
  cases edit with
  | insert pos text =>
    have hleft : offset < pos ∨ pos ≤ offset := hleft
    simp only [shift, shiftStop]
    split <;> split <;> omega
  -- So are they here, where the stop is carried as the end of a scope is.
  | delete span =>
    have hle : span.start ≤ span.stop := hle
    have hleft : offset < span.start ∨ span.stop ≤ offset := hleft
    simp only [shiftStop, shift, Span.length]
    split <;> split <;> (try split) <;> (try split) <;> omega

/-- A start is carried in front of what is put in just when it was in front of the edit. -/
theorem shift_le_iff (hput : edit.start ≤ offset ∧ offset < edit.stopAfter) (start : Nat) :
    edit.shift start ≤ offset ↔ start < edit.start := by
  cases edit with
  | insert pos text =>
    have hput : pos ≤ offset ∧ offset < pos + text.utf8ByteSize := hput
    show (if pos ≤ start then start + text.utf8ByteSize else start) ≤ offset ↔ start < pos
    split <;> omega
  | delete span =>
    have hput : span.start ≤ offset ∧ offset < span.start := hput
    omega

/-- A stop is carried behind what is put in just when it was behind the edit. -/
theorem lt_shiftStop_iff (hput : edit.start ≤ offset ∧ offset < edit.stopAfter) (stop : Nat) :
    offset < edit.shiftStop stop ↔ edit.start < stop := by
  cases edit with
  | insert pos text =>
    have hput : pos ≤ offset ∧ offset < pos + text.utf8ByteSize := hput
    show (offset < if pos < stop then stop + text.utf8ByteSize else stop) ↔ pos < stop
    split <;> omega
  | delete span =>
    have hput : span.start ≤ offset ∧ offset < span.start := hput
    omega

/-- What a scope with a byte is carried to covers an offset just when the offset lies between the
places to which its ends are carried. -/
theorem any_covers_carry? (hle : edit.start ≤ edit.stopBefore)
    (hshown : scope.span.start < scope.span.stop) :
    (edit.carry? scope).any (·.span.covers offset) =
      (decide (edit.shift scope.span.start ≤ offset) &&
        decide (offset < edit.shiftStop scope.span.stop)) := by
  rw [carry?_eq hle hshown]
  split
  · rfl
  · -- A scope that is gone is no span, so that no offset lies between its ends.
    next hgone =>
    rw [Option.any_none, eq_comm, Bool.and_eq_false_iff, decide_eq_false_iff_not,
      decide_eq_false_iff_not]
    omega

/-- A scope is carried to what covers a byte that is left just when it covered the byte before. -/
theorem covers_carry (hle : edit.start ≤ edit.stopBefore)
    (hshown : scope.span.start < scope.span.stop)
    (hleft : offset < edit.start ∨ edit.stopBefore ≤ offset) :
    (edit.carry? scope).any (·.span.covers (edit.shift offset)) = scope.span.covers offset := by
  rw [any_covers_carry? hle hshown, Span.covers]
  simp only [shift_le_shift_iff hle hleft, shift_lt_shiftStop_iff hle hleft]

/-- A scope is carried to what covers the bytes put in just when the edit lies
strictly inside the scope. -/
theorem covers_carry_put (hle : edit.start ≤ edit.stopBefore)
    (hshown : scope.span.start < scope.span.stop)
    (hput : edit.start ≤ offset ∧ offset < edit.stopAfter) :
    (edit.carry? scope).any (·.span.covers offset) =
      (decide (scope.span.start < edit.start) && decide (edit.start < scope.span.stop)) := by
  rw [any_covers_carry? hle hshown]
  simp only [shift_le_iff hput, lt_shiftStop_iff hput]

/-- A scope goes just when the edit takes all of its bytes. -/
theorem carry?_eq_none_iff (hle : edit.start ≤ edit.stopBefore)
    (hshown : scope.span.start < scope.span.stop) : edit.carry? scope = none ↔
      ∀ byte, scope.span.covers byte = true →
        edit.start ≤ byte ∧ byte < edit.stopBefore := by
  constructor
  · intro hnone byte hcovers
    -- A byte that were left would be covered by what the scope is carried to.
    by_contra htaken
    have hleft : byte < edit.start ∨ edit.stopBefore ≤ byte := by omega
    have hany := covers_carry hle hshown hleft
    rw [hnone, hcovers] at hany
    cases hany
  · -- With its first and its last byte all of a scope is taken.
    intro htaken
    have hfirst := htaken scope.span.start ((Span.covers_iff _ _).2 (by omega))
    have hlast := htaken (scope.span.stop - 1) ((Span.covers_iff _ _).2 (by omega))
    cases edit with
    | insert pos text =>
      have hfirst : pos ≤ scope.span.start ∧ scope.span.start < pos := hfirst
      omega
    | delete span =>
      have hfirst : span.start ≤ scope.span.start ∧ scope.span.start < span.stop := hfirst
      have hlast : span.start ≤ scope.span.stop - 1 ∧ scope.span.stop - 1 < span.stop := hlast
      rw [carry?_eq hle hshown, if_neg]
      simp only [shiftStop, shift, Span.length]
      split <;> split <;> (try split) <;> (try split) <;> omega

/-- A scope that is carried over keeps its name and what it carries, and its start
moves with the text. -/
theorem of_carry?_eq_some (hle : edit.start ≤ edit.stopBefore)
    (hshown : scope.span.start < scope.span.stop) {new : Scope} (h : edit.carry? scope = some new) :
    new.name = scope.name ∧ new.attributes = scope.attributes ∧
      new.span.start = edit.shift scope.span.start := by
  obtain ⟨-, rfl⟩ := (carry?_eq_some_iff hle hshown).1 h
  exact ⟨rfl, rfl, rfl⟩

end Edit

/-- A choice among what becomes of entries is one among the entries, if the choice is the same for
each entry and what becomes of it; and their labels are the same if each keeps its own. -/
theorem map_filter_filterMap {α β : Type} {entries : List α} {f : α → Option α}
    {p q : α → Bool} {label : α → β} (hchoice : ∀ x ∈ entries, (f x).any p = q x)
    (hlabel : ∀ x ∈ entries, ∀ y, f x = some y → label y = label x) :
    ((entries.filterMap f).filter p).map label = (entries.filter q).map label := by
  induction entries with
  | nil => rfl
  | cons x entries ih =>
    obtain ⟨hx, hentries⟩ := List.forall_mem_cons.1 hchoice
    obtain ⟨hxlabel, hentrieslabel⟩ := List.forall_mem_cons.1 hlabel
    have ih := ih hentries hentrieslabel
    rw [List.filter_cons, ← hx]
    cases hf : f x with
    -- An entry that is dropped was not chosen.
    | none => rwa [List.filterMap_cons_none hf]
    | some y =>
      -- What an entry becomes is chosen with it, and has its label.
      rw [List.filterMap_cons_some hf, List.filter_cons, Option.any_some]
      split
      · rw [List.map_cons, List.map_cons, ih, hxlabel y hf]
      · exact ih

namespace Store

variable {store : Store} {edit : Edit}

namespace Sound

/-- An edited store lists what its entries are carried to, in their order. -/
theorem toList_apply (h : store.Sound) (edit : Edit) : (store.apply edit).toList =
    store.toList.filterMap fun x => (edit.carry? x.2).map fun scope => (x.1, scope) := by
  rw [h.holds.apply_eq, toList, number_trim, number_filterMap]
  rfl

/-- The labels at an offset of an edited store are those of the entries that are
carried to what covers it. -/
theorem labels_apply (h : store.Sound) (hfits : edit.fits store.text = true) {offset : Nat}
    {q : Scope → Bool}
    (hq : ∀ x ∈ store.toList, (edit.carry? x.2).any (·.span.covers offset) = q x.2) :
    ((store.apply edit).layers offset).map label =
      (store.toList.filter fun x => q x.2).map label := by
  rw [layers_eq_filter (h.apply hfits).ordered, h.toList_apply]
  refine map_filter_filterMap (fun x hx => ?_) fun x hx y hy => ?_
  · rw [← hq x hx, Option.any_map]
  · obtain ⟨scope, hscope, rfl⟩ := Option.map_eq_some_iff.1 hy
    obtain ⟨hname, hattributes, -⟩ :=
      Edit.of_carry?_eq_some (Edit.start_le_stopBefore hfits) (h.holds.shown hx) hscope
    rw [label, label, hname, hattributes]

end Sound

/-- An edit of a store that is made from a text and changed keeps the stack of every byte that it
leaves. The global scope stays the one over the whole text. At the place to which it moves, the byte
is covered by scopes of the same names and attributes, on the same levels, as before. The bytes that
it puts in are covered by the scopes that it lies strictly inside. The scopes are those of before,
each with its name, its attributes and its level, and with its start where the edit shifts it; those
are gone all of whose bytes the edit takes out, and no others. -/
theorem stack_apply (h : store.Reached) (hfits : edit.fits store.text = true) :
    (store.globalScope = .spanning store.length ∧
      (store.apply edit).globalScope = .spanning (store.apply edit).length) ∧
    (∀ offset,
      store.stack offset = store.globalScope :: (store.layers offset).map (·.2) ∧
      (store.apply edit).stack offset =
        (store.apply edit).globalScope :: ((store.apply edit).layers offset).map (·.2)) ∧
    (∀ offset, offset < edit.start ∨ edit.stopBefore ≤ offset →
      ((store.apply edit).layers (edit.shift offset)).map label =
        (store.layers offset).map label) ∧
    (∀ offset, edit.start ≤ offset → offset < edit.stopAfter →
      ((store.apply edit).layers offset).map label = (store.toList.filter fun x =>
        x.2.span.start < edit.start && edit.start < x.2.span.stop).map label) ∧
    (store.apply edit).toList =
      store.toList.filterMap (fun x => (edit.carry? x.2).map fun scope => (x.1, scope)) ∧
    ∀ x ∈ store.toList,
      (edit.carry? x.2 = none ↔
        ∀ byte, x.2.span.covers byte = true →
          edit.start ≤ byte ∧ byte < edit.stopBefore) ∧
      ∀ scope, edit.carry? x.2 = some scope →
        scope.name = x.2.name ∧ scope.attributes = x.2.attributes ∧
          scope.span.start = edit.shift x.2.span.start := by
  have hsound := h.sound
  have hle := Edit.start_le_stopBefore hfits
  refine ⟨⟨hsound.spanned, (hsound.apply hfits).spanned⟩,
    fun offset => ⟨stack_eq_layers _ _, stack_eq_layers _ _⟩, fun offset hleft => ?_,
    fun offset hstart hstop => ?_, hsound.toList_apply edit,
    fun x hx => ⟨?_, fun scope hscope => ?_⟩⟩
  · -- Beside the edit an entry covers the byte after it as it did before.
    rw [layers_eq_filter hsound.ordered]
    exact hsound.labels_apply (q := fun scope => scope.span.covers offset) hfits fun x hx =>
      Edit.covers_carry hle (hsound.holds.shown hx) hleft
  · -- A byte that is put in is covered by what lies around the place.
    exact hsound.labels_apply
      (q := fun scope => scope.span.start < edit.start && edit.start < scope.span.stop)
      hfits fun x hx =>
        Edit.covers_carry_put hle (hsound.holds.shown hx) ⟨hstart, hstop⟩
  · exact Edit.carry?_eq_none_iff hle (hsound.holds.shown hx)
  · exact Edit.of_carry?_eq_some hle (hsound.holds.shown hx) hscope

/-- Of `boxed` the inner scope moves when a character is put in where it starts, and what is put in
lies in the outer one alone. The byte at which the inner scope starts keeps its stack. -/
theorem stack_apply_boxed : boxed.Reached ∧ (Edit.insert 2 "é").fits boxed.text = true ∧
    ((boxed.apply (.insert 2 "é")).layers 3).map label = [(0, "outer", none)] ∧
    ((boxed.apply (.insert 2 "é")).layers 4).map label =
      [(0, "outer", none), (1, "inner", none)] := by
  have hfits : (Edit.insert 2 "é").fits boxed.text = true := by decide +kernel
  obtain ⟨-, -, hleft, hput, -⟩ := stack_apply reached_boxed hfits
  refine ⟨reached_boxed, hfits, ?_, ?_⟩
  · -- The new byte lies on the inner scope's start, which moves with it.
    rw [hput 3 (by decide) (by decide +kernel)]
    decide
  · have hbyte : ((boxed.apply (.insert 2 "é")).layers 4).map label =
        (boxed.layers 2).map label :=
      hleft 2 (.inr (Nat.le_refl 2))
    rw [hbyte]
    decide

end Store

end TextScopes
