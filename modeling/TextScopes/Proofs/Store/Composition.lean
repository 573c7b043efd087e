import TextScopes.Proofs.Store.Sound

/-!
# Edits of a store one after the other

Two edits come to a third when together they move every start and every stop as the third does
(`Edit.ComesTo`). Each scope is then carried where the third edit carries it: one that the first
edit takes has no byte between its ends afterwards, and the second brings none in between
(`Edit.ComesTo.carry?_bind`). A store is no more than its text and what it holds on which levels, so
that levels which the first edit empties, and which are trimmed then, make no difference
(`Store.Sound.apply_apply`).

What is put in and taken out again comes to nothing, what is taken out in two pieces, the later one
first, comes to taking out both, and what is put in in two pieces comes to putting in both.
-/

namespace TextScopes

namespace Edit

/-- Two edits, one after the other, move starts and stops as a third does. -/
structure ComesTo (first second whole : Edit) : Prop where
  shift : ∀ offset, second.shift (first.shift offset) = whole.shift offset
  shiftStop : ∀ offset, second.shiftStop (first.shiftStop offset) = whole.shiftStop offset

variable {first second whole : Edit}

/-- To put a text in and to take it out again is to put nothing in. -/
theorem comesTo_insert_delete (offset : Nat) (text : String) : ComesTo (.insert offset text)
    (.delete ⟨offset, offset + text.utf8ByteSize⟩) (.insert offset "") := by
  refine ⟨fun place => ?_, fun place => ?_⟩
  · simp only [Edit.shift, Span.length, String.utf8ByteSize_empty]
    split <;> split <;> (try split) <;> omega
  · simp only [Edit.shiftStop, Edit.shift, Span.length, String.utf8ByteSize_empty]
    split <;> split <;> (try split) <;> omega

/-- To take a later piece out and then the one in front of it is to take out both. -/
theorem comesTo_delete_delete {a b c : Nat} (hab : a ≤ b) (hbc : b ≤ c) :
    ComesTo (.delete ⟨b, c⟩) (.delete ⟨a, b⟩) (.delete ⟨a, c⟩) := by
  have hshift : ∀ place, shift (.delete ⟨a, b⟩) (shift (.delete ⟨b, c⟩) place) =
      shift (.delete ⟨a, c⟩) place := by
    intro place
    simp only [Edit.shift, Span.length]
    repeat' split
    all_goals omega
  exact ⟨hshift, hshift⟩

/-- To put a text in and then another one behind it is to put in both. -/
theorem comesTo_insert_insert (offset : Nat) (x y : String) : ComesTo (.insert offset x)
    (.insert (offset + x.utf8ByteSize) y) (.insert offset (x ++ y)) := by
  refine ⟨fun place => ?_, fun place => ?_⟩
  · simp only [Edit.shift, String.utf8ByteSize_append]
    split <;> split <;> omega
  · simp only [Edit.shiftStop, String.utf8ByteSize_append]
    split <;> split <;> omega

/-- The part of a text behind a front part can be deleted. -/
theorem fits_delete_byteCount (before taken after : List Char) :
    (Edit.delete ⟨Text.byteCount before, Text.byteCount (before ++ taken)⟩).fits
      (String.ofList (before ++ taken ++ after)) = true := by
  have hle : Text.byteCount before ≤ Text.byteCount (before ++ taken) := by
    rw [Text.byteCount_append]
    exact Nat.le_add_right _ _
  have hstart := Text.isBoundary_byteCount before (taken ++ after)
  rw [← List.append_assoc] at hstart
  simp only [fits, Bool.and_eq_true, decide_eq_true_eq]
  exact ⟨⟨hle, hstart⟩, Text.isBoundary_byteCount (before ++ taken) after⟩

/-- What two edits carry a scope to is what the edit that they come to carries it to. -/
theorem ComesTo.carry?_bind (h : ComesTo first second whole)
    (hfirst : first.start ≤ first.stopBefore)
    (hsecond : second.start ≤ second.stopBefore) (hwhole : whole.start ≤ whole.stopBefore)
    {scope : Scope} (hshown : scope.span.start < scope.span.stop) :
    (first.carry? scope).bind second.carry? = whole.carry? scope := by
  rw [carry?_eq hfirst hshown, carry?_eq hwhole hshown, ← h.shift, ← h.shiftStop]
  by_cases hkept : first.shift scope.span.start < first.shiftStop scope.span.stop
  · rw [if_pos hkept, Option.bind_some, carry?_eq hsecond hkept]
    rfl
  · -- The second edit does not part ends that have met.
    have hmet := second.shiftStop_le_shift hsecond (Nat.le_of_not_lt hkept)
    rw [if_neg hkept, Option.bind_none, if_neg (Nat.not_lt_of_le hmet)]

end Edit

namespace Store

variable {store : Store}

namespace Sound

/-- Editing a store twice leaves what the edit leaves to which the two come. -/
theorem apply_apply (h : store.Sound) {first second whole : Edit}
    (hcomes : first.ComesTo second whole)
    (hfirst : first.fits store.text = true) (hsecond : second.fits (first.apply store.text) = true)
    (hwhole : whole.fits store.text = true)
    (htext : second.apply (first.apply store.text) = whole.apply store.text) :
    (store.apply first).apply second = store.apply whole := by
  have htwice := (h.holds.apply hfirst).apply hsecond
  have honce := h.holds.apply hwhole
  rw [htext, List.filterMap_filterMap] at htwice
  -- Scope by scope: carried twice or once.
  have hentries : ∀ x ∈ store.toList,
      ((first.carry? x.2).map fun scope => (x.1, scope)).bind
          (fun y => (second.carry? y.2).map fun scope => (y.1, scope)) =
        (whole.carry? x.2).map fun scope => (x.1, scope) := by
    intro x hx
    rw [← hcomes.carry?_bind (Edit.start_le_stopBefore hfirst) (Edit.start_le_stopBefore hsecond)
      (Edit.start_le_stopBefore hwhole) (h.holds.shown hx)]
    cases first.carry? x.2 <;> rfl
  rw [List.filterMap_congr hentries] at htwice
  exact htwice.eq honce

/-- Putting nothing in leaves a store as it is. -/
theorem apply_insert_empty (h : store.Sound) {offset : Nat}
    (hfits : (Edit.insert offset "").fits store.text = true) :
    store.apply (.insert offset "") = store := by
  have hholds := h.holds.apply hfits
  -- An empty text changes nothing, and no scope moves.
  have htext : Edit.apply (.insert offset "") store.text = store.text := by
    obtain ⟨before, after, htext, rfl⟩ := Text.exists_of_isBoundary hfits
    rw [htext, Edit.apply, Text.insert_byteCount, String.toList_empty, List.append_nil]
  have hcarry : ∀ x ∈ store.toList,
      ((Edit.insert offset "").carry? x.2).map (fun scope => (x.1, scope)) =
      some x := by
    intro x hx
    have hstart : Edit.shift (.insert offset "") x.2.span.start = x.2.span.start := by
      simp [Edit.shift]
    have hstop : Edit.shiftStop (.insert offset "") x.2.span.stop = x.2.span.stop := by
      simp [Edit.shiftStop]
    rw [Edit.carry?_eq (Edit.start_le_stopBefore hfits) (h.holds.shown hx), hstart, hstop,
      if_pos (h.holds.shown hx)]
    rfl
  rw [htext, List.filterMap_congr hcarry, List.filterMap_some] at hholds
  exact hholds.eq h.holds

/-- A text that is inserted and deleted again leaves a store as it was. -/
theorem insert_delete (h : store.Sound) {offset : Nat} (text : String)
    (hoffset : Text.isBoundary store.text offset = true) :
    (Edit.delete ⟨offset, offset + text.utf8ByteSize⟩).fits
      (store.insert offset text).text = true ∧
      (store.insert offset text).delete ⟨offset, offset + text.utf8ByteSize⟩ = store := by
  obtain ⟨before, after, htext, rfl⟩ := Text.exists_of_isBoundary hoffset
  have hput := Text.insert_byteCount before after text
  have hstop : Text.byteCount before + text.utf8ByteSize =
      Text.byteCount (before ++ text.toList) := by
    rw [Text.byteCount_append, ← Text.utf8ByteSize_eq]
  have hnothing := Text.insert_byteCount before after ""
  rw [String.toList_empty, List.append_nil] at hnothing
  -- The inserted text lies between two boundaries of the text that has it.
  have hfits := Edit.fits_delete_byteCount before text.toList after
  rw [← hput, ← hstop, ← htext] at hfits
  -- An insertion that is deleted comes to the insertion of nothing.
  refine ⟨hfits,
    (h.apply_apply (Edit.comesTo_insert_delete _ text) hoffset hfits hoffset ?_).trans
    (h.apply_insert_empty hoffset)⟩
  show Text.delete (Text.insert store.text _ text) _ = Text.insert store.text _ ""
  rw [htext, hput, hstop, Text.delete_byteCount, hnothing]

/-- Deleting between two boundaries is deleting from a boundary between them on, and then up to
it. -/
theorem delete_delete (h : store.Sound) {a b c : Nat} (hab : a ≤ b) (hbc : b ≤ c)
    (ha : Text.isBoundary store.text a = true) (hb : Text.isBoundary store.text b = true)
    (hc : Text.isBoundary store.text c = true) :
    (Edit.delete ⟨a, b⟩).fits (store.delete ⟨b, c⟩).text = true ∧
      (store.delete ⟨b, c⟩).delete ⟨a, b⟩ = store.delete ⟨a, c⟩ := by
  have hfirst : (Edit.delete ⟨b, c⟩).fits store.text = true := by simp [Edit.fits, hbc, hb, hc]
  have hwhole : (Edit.delete ⟨a, c⟩).fits store.text = true := by
    simp [Edit.fits, Nat.le_trans hab hbc, ha, hc]
  obtain ⟨front, later, after, htext, rfl, rfl⟩ := Text.exists_of_isBoundary_le hb hc hbc
  -- The part before the first boundary is in front of the part before the second.
  obtain ⟨before, rest, happ, rfl⟩ := Text.isBoundary_iff.1 ha
  rw [htext, String.toList_ofList, List.append_assoc] at happ
  obtain ⟨earlier, rfl, -⟩ := Text.exists_append_of_le happ hab
  have hdelete := Text.delete_byteCount (before ++ earlier) later after
  have hboth := Text.delete_byteCount before (earlier ++ later) after
  rw [← List.append_assoc before] at hboth
  have hfits := Edit.fits_delete_byteCount before earlier after
  rw [← hdelete, ← htext] at hfits
  refine ⟨hfits, h.apply_apply (Edit.comesTo_delete_delete hab hbc) hfirst hfits hwhole ?_⟩
  show Text.delete (Text.delete store.text _) _ = Text.delete store.text _
  rw [htext, hdelete, Text.delete_byteCount, hboth]

/-- Inserting two texts as one is inserting the first, and then the second behind it. -/
theorem insert_insert (h : store.Sound) {offset : Nat} (x y : String)
    (hoffset : Text.isBoundary store.text offset = true) :
    (Edit.insert (offset + x.utf8ByteSize) y).fits (store.insert offset x).text = true ∧
      (store.insert offset x).insert (offset + x.utf8ByteSize) y =
        store.insert offset (x ++ y) := by
  obtain ⟨before, after, htext, rfl⟩ := Text.exists_of_isBoundary hoffset
  have hput := Text.insert_byteCount before after x
  have hstop : Text.byteCount before + x.utf8ByteSize = Text.byteCount (before ++ x.toList) := by
    rw [Text.byteCount_append, ← Text.utf8ByteSize_eq]
  have hfits := Text.isBoundary_byteCount (before ++ x.toList) after
  rw [← hput, ← hstop, ← htext] at hfits
  refine ⟨hfits, h.apply_apply (Edit.comesTo_insert_insert _ x y) hoffset hfits hoffset ?_⟩
  show Text.insert (Text.insert store.text _ x) _ y = Text.insert store.text _ (x ++ y)
  rw [htext, hput, hstop, Text.insert_byteCount, Text.insert_byteCount, String.toList_append,
    List.append_assoc before]

end Sound

/-- On a store that is made from a text and changed, edits one after the other come to one edit, and
each fits where it is applied. A text that is inserted and deleted again leaves the store as it was.
Deleting between two boundaries is deleting from a boundary between them on, and then up to it.
Inserting two texts as one is inserting the first, and then the second behind it. -/
theorem apply_comesTo (h : store.Reached) :
    (∀ offset text, Text.isBoundary store.text offset = true →
      (Edit.delete ⟨offset, offset + text.utf8ByteSize⟩).fits
        (store.insert offset text).text = true ∧
        (store.insert offset text).delete ⟨offset, offset + text.utf8ByteSize⟩ = store) ∧
    (∀ a b c, a ≤ b → b ≤ c → Text.isBoundary store.text a = true →
      Text.isBoundary store.text b = true → Text.isBoundary store.text c = true →
      (Edit.delete ⟨a, b⟩).fits (store.delete ⟨b, c⟩).text = true ∧
        (store.delete ⟨b, c⟩).delete ⟨a, b⟩ = store.delete ⟨a, c⟩) ∧
    ∀ x y offset, Text.isBoundary store.text offset = true →
      (Edit.insert (offset + x.utf8ByteSize) y).fits (store.insert offset x).text = true ∧
        (store.insert offset x).insert (offset + x.utf8ByteSize) y =
          store.insert offset (x ++ y) := by
  have hsound := h.sound
  refine ⟨fun offset text hoffset => hsound.insert_delete text hoffset,
    fun a b c hab hbc ha hb hc => ?_,
    fun x y offset hoffset => hsound.insert_insert x y hoffset⟩
  exact hsound.delete_delete hab hbc ha hb hc

/-- In `boxed` the bytes of the inner scope go in two pieces as they do in one, though the level
of the inner scope is only emptied by the second, and a character put in where that scope starts
is taken out again. -/
theorem apply_comesTo_boxed : boxed.Reached ∧
    (boxed.delete ⟨3, 4⟩).delete ⟨2, 3⟩ =
      ⟨"abef", [[.plain "outer" ⟨1, 3⟩]], .spanning 4⟩ ∧
    (boxed.insert 2 "é").delete ⟨2, 4⟩ = boxed := by
  obtain ⟨hundo, hpieces, -⟩ := apply_comesTo reached_boxed
  refine ⟨reached_boxed, ?_, (hundo 2 "é" (by decide)).2⟩
  rw [(hpieces 2 3 4 (by decide) (by decide) (by decide) (by decide) (by decide)).2]
  decide +kernel

end Store

end TextScopes
