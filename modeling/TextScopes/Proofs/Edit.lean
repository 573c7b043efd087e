import TextScopes.Proofs.Text.Boundary
import TextScopes.Store.Basic

/-!
# What an edit does to offsets, scopes and line starts

An edit that fits a text takes characters out between a part before and a part behind, or puts some
in (`Edit.exists_parts`). Offsets before it stay, and those behind it all move by the same number
of bytes (`Edit.shift_behind`), so that no other offset falls among them (`Edit.shift_eq_iff`). A
scope is carried over by its two ends (`Edit.carry?_eq`): the start goes with what is inserted at
it, the stop does not.
-/

namespace TextScopes

namespace Edit

/-- The offset just behind the edit, in the text before it. -/
def stopBefore : Edit → Nat
  | .insert offset _ => offset
  | .delete span => span.stop

/-- Where the stop of a span lies after the edit. One at an insertion stays before what is
inserted. -/
def shiftStop (edit : Edit) (offset : Nat) : Nat :=
  match edit with
  | .insert pos text => if pos < offset then offset + text.utf8ByteSize else offset
  | .delete _ => edit.shift offset

/-- What becomes of a scope under an edit; nothing when all its bytes are taken out. -/
def carry? (edit : Edit) (scope : Scope) : Option Scope :=
  match edit with
  | .insert pos text => some (scope.withSpan (scope.span.afterInsert pos text.utf8ByteSize))
  | .delete span => Level.afterDelete? span scope

variable {edit : Edit} {offset : Nat}

/-- An edit that fits a text replaces characters by others: some by none, or none by some. -/
theorem exists_parts {text : String} (h : edit.fits text = true) :
    ∃ before taken put after, text = String.ofList (before ++ taken ++ after) ∧
      edit.apply text = String.ofList (before ++ put ++ after) ∧
      edit.start = Text.byteCount before ∧ edit.stopBefore = Text.byteCount (before ++ taken) ∧
      edit.stopAfter = Text.byteCount (before ++ put) := by
  -- An insertion takes nothing, and a deletion puts nothing in.
  cases edit with
  | insert pos inserted =>
    obtain ⟨before, after, rfl, rfl⟩ := Text.exists_of_isBoundary h
    refine ⟨before, [], inserted.toList, after, ?_, Text.insert_byteCount before after inserted,
      rfl, ?_, ?_⟩
    · rw [List.append_nil]
    · rw [List.append_nil]
      rfl
    · rw [Text.byteCount_append, ← Text.utf8ByteSize_eq]
      rfl
  | delete span =>
    simp only [fits, Bool.and_eq_true, decide_eq_true_eq] at h
    obtain ⟨⟨hle, hstart⟩, hstop⟩ := h
    obtain ⟨before, taken, after, rfl, hn, hn'⟩ := Text.exists_of_isBoundary_le hstart hstop hle
    obtain rfl : span = ⟨Text.byteCount before, Text.byteCount (before ++ taken)⟩ := by
      rw [hn, hn']
    refine ⟨before, taken, [], after, rfl, ?_, rfl, rfl, ?_⟩
    · rw [List.append_nil]
      exact Text.delete_byteCount before taken after
    · rw [List.append_nil]
      rfl

/-- An edit that fits a text does not stop before it starts. -/
theorem start_le_stopBefore {text : String} (h : edit.fits text = true) :
    edit.start ≤ edit.stopBefore := by
  cases edit with
  | insert pos inserted => exact Nat.le_refl pos
  | delete span =>
    simp only [fits, Bool.and_eq_true, decide_eq_true_eq] at h
    exact h.1.1

/-- Before an edit starts stay. -/
theorem shift_before (h : offset < edit.start) : edit.shift offset = offset := by
  cases edit with
  | insert pos text =>
    have h : offset < pos := h
    rw [shift, if_neg (by omega)]
  | delete span =>
    have h : offset < span.start := h
    simp only [shift, Span.length]
    split
    · omega
    · rw [if_neg (by omega)]

/-- Before an edit, and at it, stops stay. -/
theorem shiftStop_before (h : offset ≤ edit.start) : edit.shiftStop offset = offset := by
  cases edit with
  | insert pos text =>
    have h : offset ≤ pos := h
    simp only [shiftStop]
    rw [if_neg (by omega)]
  | delete span =>
    have h : offset ≤ span.start := h
    simp only [shiftStop, shift, Span.length]
    split
    · omega
    · rw [if_neg (by omega)]

/-- Behind an edit offsets move with the text. -/
theorem shift_behind (hle : edit.start ≤ edit.stopBefore) (h : edit.stopBefore < offset) :
    edit.shift offset + edit.stopBefore = offset + edit.stopAfter := by
  cases edit with
  | insert pos text =>
    have h : pos < offset := h
    simp only [shift, stopBefore, stopAfter]
    rw [if_pos (by omega)]
    omega
  | delete span =>
    have h : span.stop < offset := h
    have hle : span.start ≤ span.stop := hle
    simp only [shift, stopBefore, stopAfter, Span.length]
    rw [if_pos (by omega)]
    omega

/-- What starts in front of the stop of an edit does not come to lie behind it. -/
theorem shift_le_stopAfter (hle : edit.start ≤ edit.stopBefore) (h : offset ≤ edit.stopBefore) :
    edit.shift offset ≤ edit.stopAfter := by
  cases edit with
  | insert pos text =>
    have h : offset ≤ pos := h
    simp only [shift, stopAfter]
    split <;> omega
  | delete span =>
    have h : offset ≤ span.stop := h
    have hle : span.start ≤ span.stop := hle
    simp only [shift, stopAfter, Span.length]
    split
    · omega
    · split <;> omega

/-- Behind an edit stops move as starts do. -/
theorem shiftStop_behind (h : edit.stopBefore < offset) :
    edit.shiftStop offset = edit.shift offset := by
  cases edit with
  | insert pos text =>
    have h : pos < offset := h
    simp only [shiftStop, shift]
    rw [if_pos h, if_pos (Nat.le_of_lt h)]
  | delete span => rfl

/-- What stops with what an edit takes out does not stop behind what it puts in. -/
theorem shiftStop_stopBefore_le (hle : edit.start ≤ edit.stopBefore) :
    edit.shiftStop edit.stopBefore ≤ edit.stopAfter := by
  cases edit with
  | insert pos text =>
    show (if pos < pos then pos + text.utf8ByteSize else pos) ≤ pos + text.utf8ByteSize
    rw [if_neg (Nat.lt_irrefl pos)]
    exact Nat.le_add_right _ _
  | delete span =>
    have hle : span.start ≤ span.stop := hle
    show (if span.stop ≤ span.stop then span.stop - (span.stop - span.start) else _) ≤
      span.start
    rw [if_pos (Nat.le_refl _)]
    omega

/-- What moves behind an edit is met by nothing else. -/
theorem shift_eq_iff (hle : edit.start ≤ edit.stopBefore) {base : Nat}
    (h : edit.stopBefore < base)
    (x i : Nat) : edit.shift x = edit.shift base + i ↔ x = base + i := by
  cases edit with
  | insert pos text =>
    have h : pos < base := h
    simp only [shift]
    rw [if_pos (Nat.le_of_lt h)]
    split <;> omega
  | delete span =>
    have h : span.stop < base := h
    have hle : span.start ≤ span.stop := hle
    simp only [shift, Span.length]
    rw [if_pos (Nat.le_of_lt h)]
    split
    · omega
    · split <;> omega

/-- What lies behind a place before the edit still does. -/
theorem le_shift {place : Nat} (hplace : place ≤ edit.start) (h : place ≤ offset) :
    place ≤ edit.shift offset := by
  cases edit with
  | insert pos text =>
    simp only [shift]
    split <;> omega
  | delete span =>
    have hplace : place ≤ span.start := hplace
    simp only [shift, Span.length]
    split
    · omega
    · split <;> omega

/-- What stops behind a place before the edit still does. -/
theorem le_shiftStop {place : Nat} (hplace : place ≤ edit.start) (h : place ≤ offset) :
    place ≤ edit.shiftStop offset := by
  cases edit with
  | insert pos text =>
    simp only [shiftStop]
    split <;> omega
  | delete span =>
    have hshift : place ≤ shift (.delete span) offset := le_shift hplace h
    exact hshift

/-- Edits keep the order of stops. -/
theorem shiftStop_mono (edit : Edit) {a b : Nat} (h : a ≤ b) :
    edit.shiftStop a ≤ edit.shiftStop b := by
  cases edit with
  | insert pos text =>
    simp only [shiftStop]
    split <;> split <;> omega
  | delete span => exact shift_mono (.delete span) h

/-- A span that stops before another starts still does. -/
theorem shiftStop_le_shift (hle : edit.start ≤ edit.stopBefore) {a b : Nat} (h : a ≤ b) :
    edit.shiftStop a ≤ edit.shift b := by
  cases edit with
  | insert pos text =>
    simp only [shiftStop, shift]
    split <;> split <;> omega
  | delete span => exact shift_mono (.delete span) h

/-- What stops with some characters behind an edit stops with them in the edited text. -/
theorem shiftStop_append_le (hle : edit.start ≤ edit.stopBefore) {old new : List Char}
    (hbefore : edit.stopBefore = Text.byteCount old) (hafter : edit.stopAfter = Text.byteCount new)
    (tail : List Char) :
    edit.shiftStop (Text.byteCount (old ++ tail)) ≤ Text.byteCount (new ++ tail) := by
  have h1 := Text.byteCount_append old tail
  have h2 := Text.byteCount_append new tail
  -- At the end of the edit a stop may stay behind; later ones move.
  rcases Nat.eq_zero_or_pos (Text.byteCount tail) with hnone | hsome
  · have := shiftStop_stopBefore_le hle
    rw [h1, hnone, Nat.add_zero, ← hbefore]
    omega
  · have hbehind : edit.stopBefore < Text.byteCount (old ++ tail) := by omega
    have := shift_behind hle hbehind
    rw [shiftStop_behind hbehind]
    omega

/-- What stops inside a text stops inside the edited text. -/
theorem shiftStop_le {text : String} (h : edit.fits text = true)
    (hoffset : offset ≤ text.utf8ByteSize) :
    edit.shiftStop offset ≤ (edit.apply text).utf8ByteSize := by
  obtain ⟨before, taken, put, after, rfl, happly, -, hbefore, hafter⟩ := exists_parts h
  rw [Text.utf8ByteSize_ofList] at hoffset
  rw [happly, Text.utf8ByteSize_ofList]
  exact Nat.le_trans (edit.shiftStop_mono hoffset)
    (shiftStop_append_le (start_le_stopBefore h) hbefore hafter after)

/-- What an edit puts in lies inside the edited text. -/
theorem stopAfter_le {text : String} (h : edit.fits text = true) :
    edit.stopAfter ≤ (edit.apply text).utf8ByteSize := by
  obtain ⟨before, taken, put, after, -, happly, -, -, hafter⟩ := exists_parts h
  rw [happly, Text.utf8ByteSize_ofList, hafter, Text.byteCount_append _ after]
  exact Nat.le_add_right _ _

/-- What is neither before an edit nor behind it comes to lie behind what the edit puts in. -/
theorem shift_inside (hstart : edit.start ≤ offset) (hstop : offset ≤ edit.stopBefore) :
    edit.shift offset = edit.stopAfter := by
  cases edit with
  | insert pos text =>
    have hstart : pos ≤ offset := hstart
    have hstop : offset ≤ pos := hstop
    simp only [shift, stopAfter]
    rw [if_pos hstart, Nat.le_antisymm hstop hstart]
  | delete span =>
    have hstart : span.start ≤ offset := hstart
    have hstop : offset ≤ span.stop := hstop
    simp only [shift, stopAfter, Span.length]
    split
    · omega
    · split <;> omega

/-- An edit that fits a text carries its boundaries to boundaries, and puts text in between two. -/
theorem isBoundary_of_cases {text : String} (hfits : edit.fits text = true) {offset place : Nat}
    (h : Text.isBoundary text offset = true)
    (hplace : (offset ≤ edit.start ∧ place = offset) ∨ place = edit.stopAfter ∨
      (edit.stopBefore < offset ∧ place + edit.stopBefore = offset + edit.stopAfter)) :
    Text.isBoundary (edit.apply text) place = true := by
  obtain ⟨before, taken, put, after, rfl, happly, hstart, hbefore, hafter⟩ := exists_parts hfits
  obtain ⟨front, back, happ, hn⟩ := Text.isBoundary_iff.1 h
  rw [String.toList_ofList] at happ
  rw [happly]
  refine Text.isBoundary_iff.2 ?_
  rw [String.toList_ofList]
  -- In front of the edit, at its end, or behind it.
  rcases hplace with ⟨hle, rfl⟩ | rfl | ⟨hlt, heq⟩
  · rw [List.append_assoc] at happ
    obtain ⟨more, rfl, -⟩ := Text.exists_append_of_le happ (by omega)
    exact ⟨front, more ++ put ++ after, by simp only [List.append_assoc], hn⟩
  · exact ⟨before ++ put, after, rfl, hafter.symm⟩
  · obtain ⟨more, rfl, rfl⟩ := Text.exists_append_of_le happ.symm (by omega)
    refine ⟨before ++ put ++ more, back, by simp only [List.append_assoc], ?_⟩
    rw [Text.byteCount_append] at hn ⊢
    omega

/-- Starts at boundaries are carried to boundaries. -/
theorem isBoundary_shift {text : String} (hfits : edit.fits text = true)
    (h : Text.isBoundary text offset = true) :
    Text.isBoundary (edit.apply text) (edit.shift offset) = true := by
  refine isBoundary_of_cases hfits h ?_
  rcases Nat.lt_or_ge offset edit.start with hbefore | hstart
  · exact .inl ⟨Nat.le_of_lt hbefore, shift_before hbefore⟩
  · rcases Nat.lt_or_ge edit.stopBefore offset with hbehind | hstop
    · exact .inr (.inr ⟨hbehind, shift_behind (start_le_stopBefore hfits) hbehind⟩)
    · exact .inr (.inl (shift_inside hstart hstop))

/-- Stops at boundaries are carried to boundaries. -/
theorem isBoundary_shiftStop {text : String} (hfits : edit.fits text = true)
    (h : Text.isBoundary text offset = true) :
    Text.isBoundary (edit.apply text) (edit.shiftStop offset) = true := by
  rcases Nat.lt_or_ge edit.start offset with hstart | hbefore
  · -- Behind the start of an edit stops move as starts do.
    have hsame : edit.shiftStop offset = edit.shift offset := by
      cases edit with
      | insert pos text => exact shiftStop_behind hstart
      | delete span => rfl
    rw [hsame]
    exact isBoundary_shift hfits h
  · exact isBoundary_of_cases hfits h (.inl ⟨hbefore, shiftStop_before hbefore⟩)

/-- A scope is carried over by its start and its stop, and goes when nothing is left between
them. -/
theorem carry?_eq (hle : edit.start ≤ edit.stopBefore) {scope : Scope}
    (hshown : scope.span.start < scope.span.stop) :
    edit.carry? scope =
      if edit.shift scope.span.start < edit.shiftStop scope.span.stop then
        some (scope.withSpan ⟨edit.shift scope.span.start, edit.shiftStop scope.span.stop⟩)
      else none := by
  cases edit with
  | insert pos text =>
    have hspan : scope.span.afterInsert pos text.utf8ByteSize =
        ⟨shift (.insert pos text) scope.span.start,
          shiftStop (.insert pos text) scope.span.stop⟩ := by
      -- The start moves from the insertion on, the stop only from behind it.
      unfold Span.afterInsert shift shiftStop
      by_cases h1 : pos ≤ scope.span.start
      · simp only [if_pos h1, if_pos (Nat.lt_of_le_of_lt h1 hshown)]
      · by_cases h2 : pos < scope.span.stop
        · simp only [if_neg h1, if_pos h2]
        · simp only [if_neg h1, if_neg h2]
    -- An insertion takes no byte from a scope.
    have hlt : shift (.insert pos text) scope.span.start <
        shiftStop (.insert pos text) scope.span.stop := by
      simp only [shift, shiftStop]
      split <;> split <;> omega
    rw [if_pos hlt, carry?, hspan]
  | delete span =>
    have hle : span.start ≤ span.stop := hle
    -- Offsets are pulled as they are shifted, in another order of the tests.
    have hpull : ∀ offset, span.pull offset = shift (.delete span) offset := by
      intro offset
      simp only [Span.pull, shift, Span.length]
      split
      · split
        · omega
        · rw [if_neg (by omega)]
      · split
        · rfl
        · rw [if_pos (by omega)]
    have hspan : scope.span.afterDelete span =
        ⟨shift (.delete span) scope.span.start, shiftStop (.delete span) scope.span.stop⟩ := by
      rw [Span.afterDelete, hpull, hpull]
      rfl
    rw [carry?, Level.afterDelete?, hspan]
    -- A scope is dropped when it has no byte left.
    by_cases h : shift (.delete span) scope.span.start < shiftStop (.delete span) scope.span.stop
    · rw [if_pos h, if_neg (by rw [Span.isEmpty_iff]; exact Nat.not_le_of_lt h)]
    · rw [if_neg h, if_pos ((Span.isEmpty_iff _).2 (Nat.le_of_not_lt h))]

/-- What a scope is carried to has its start and its stop moved, and a byte between them. -/
theorem carry?_eq_some_iff (hle : edit.start ≤ edit.stopBefore) {scope new : Scope}
    (hshown : scope.span.start < scope.span.stop) : edit.carry? scope = some new ↔
      edit.shift scope.span.start < edit.shiftStop scope.span.stop ∧
        new = scope.withSpan ⟨edit.shift scope.span.start, edit.shiftStop scope.span.stop⟩ := by
  rw [carry?_eq hle hshown, Option.ite_none_right_eq_some, Option.some.injEq, @eq_comm _ _ new]

end Edit

end TextScopes
